import Gamemaster.Proofs.Play.Logged
import Gamemaster.Proofs.World.Run

namespace Gamemaster

/-- What a request comes to if nothing interrupts it. -/
def Request.outcome (r : Request) (s : Store) : Task.Outcome (Except Refusal Answer) :=
  r.serve.run.run s

/-- A request and the store that it met with. -/
structure Exchange where
  request : Request
  before : Store

def Exchange.outcome (x : Exchange) : Task.Outcome (Except Refusal Answer) :=
  x.request.outcome x.before

namespace Store

def serveAll : List Request → Store → List Exchange
  | [], _ => []
  | r :: rs, s => ⟨r, s⟩ :: serveAll rs (r.outcome s).store

def afterAll (rs : List Request) (s : Store) : Store :=
  rs.foldl (fun s r => (r.outcome s).store) s

def publishedBy (rs : List Request) (s : Store) : List Event :=
  (s.serveAll rs).flatMap fun x => x.outcome.published

theorem afterAll_append (rs rs' : List Request) (s : Store) :
    s.afterAll (rs ++ rs') = (s.afterAll rs).afterAll rs' := List.foldl_append

theorem afterAll_concat (rs : List Request) (r : Request) (s : Store) :
    s.afterAll (rs ++ [r]) = (r.outcome (s.afterAll rs)).store := afterAll_append rs [r] s

theorem serveAll_append (rs rs' : List Request) (s : Store) :
    s.serveAll (rs ++ rs') = s.serveAll rs ++ (s.afterAll rs).serveAll rs' := by
  induction rs generalizing s with
  | nil => rfl
  | cons r rs ih => exact congrArg (⟨r, s⟩ :: ·) (ih _)

theorem serveAll_concat (rs : List Request) (r : Request) (s : Store) :
    s.serveAll (rs ++ [r]) = s.serveAll rs ++ [⟨r, s.afterAll rs⟩] := serveAll_append rs [r] s

theorem publishedBy_concat (rs : List Request) (r : Request) (s : Store) :
    s.publishedBy (rs ++ [r]) = s.publishedBy rs ++ (r.outcome (s.afterAll rs)).published := by
  rw [publishedBy, serveAll_concat, List.flatMap_append, List.flatMap_singleton]
  rfl

end Store

namespace Request

variable {r : Request} {s : Store} {a : Answer}

/-- A request takes effect and succeeds, or it leaves the store alone and publishes nothing. One
that writes is refused then. -/
theorem outcome_cases (r : Request) (hs : s.Sound) :
    (r.outcome s = ⟨(r.outcome s).answer, s, []⟩ ∧
        (r.writes = true → ∃ e, (r.outcome s).answer = .error e)) ∨
      ∃ a, (r.outcome s).answer = .ok a ∧ Effect r a s (r.outcome s).store :=
  (r.serve_atomic hs).run hs

theorem tallies_outcome (r : Request) (s : Store) : (r.outcome s).Tallies s := r.serve_tallies s

theorem sound_outcome (r : Request) (hs : s.Sound) : (r.outcome s).store.Sound := by
  rcases r.outcome_cases hs with ⟨hsame, -⟩ | ⟨a, -, heffect⟩
  · rw [hsame]
    exact hs
  · exact heffect.sound hs

theorem effect_of_ok (hs : s.Sound) (hwrites : r.writes = true)
    (hanswer : (r.outcome s).answer = .ok a) : Effect r a s (r.outcome s).store := by
  rcases r.outcome_cases hs with ⟨-, hidle⟩ | ⟨b, hb, heffect⟩
  · obtain ⟨e, he⟩ := hidle hwrites
    simp [hanswer] at he
  · obtain rfl : a = b := Except.ok.inj (hanswer.symm.trans hb)
    exact heffect

theorem outcome_of_error {e : Refusal} (hs : s.Sound)
    (hanswer : (r.outcome s).answer = .error e) :
    r.outcome s = ⟨.error e, s, []⟩ := by
  rcases r.outcome_cases hs with ⟨hsame, -⟩ | ⟨a, ha, -⟩
  · rw [hsame, hanswer]
  · simp [hanswer] at ha

theorem log_of_not_writes (hs : s.Sound) (hwrites : r.writes = false) :
    (r.outcome s).store.log = s.log := by
  rcases r.outcome_cases hs with ⟨hsame, -⟩ | ⟨a, -, heffect⟩
  · rw [hsame]
  · simp [heffect.writes] at hwrites

theorem published_of_log (hs : s.Sound) (hlog : (r.outcome s).store.log = s.log) :
    (r.outcome s).published = [] := by
  have htallies := r.tallies_outcome s
  obtain ⟨events, hevents⟩ := hs.log
  rw [Task.Outcome.Tallies, hlog, hevents] at htallies
  simpa using htallies

end Request

namespace Store

variable {s : Store}

theorem afterAll_induction {P : List Request → Store → Prop} (hs : s.Sound) (hnil : P [] s)
    (hserve : ∀ rs r, (s.afterAll rs).Sound → P rs (s.afterAll rs) →
      P (rs ++ [r]) (r.outcome (s.afterAll rs)).store) (rs : List Request) :
    (s.afterAll rs).Sound ∧ P rs (s.afterAll rs) := by
  induction rs using List.reverseRecOn with
  | nil => exact ⟨hs, hnil⟩
  | append_singleton rs r ih =>
      rw [afterAll_concat]
      exact ⟨r.sound_outcome ih.1, hserve rs r ih.1 ih.2⟩

theorem sound_afterAll (hs : s.Sound) (rs : List Request) : (s.afterAll rs).Sound :=
  (afterAll_induction (P := fun _ _ => True) hs trivial (fun _ _ _ _ => trivial) rs).1

/-- The log is what it was and then what was published, in the same order. -/
theorem log_afterAll (rs : List Request) (s : Store) :
    (s.afterAll rs).log = s.log.map (· ++ s.publishedBy rs) := by
  induction rs using List.reverseRecOn with
  | nil => cases hlog : s.log <;> simp [afterAll, publishedBy, serveAll, hlog]
  | append_singleton rs r ih =>
      rw [afterAll_concat, publishedBy_concat, r.tallies_outcome, ih, Option.map_map]
      simp [Function.comp_def]

end Store

namespace World

variable {w : World} {i : Nat} {r : Request} {t : Task (Except Refusal Answer)}

/-- Whether some moves take the call at a place to its end while no other call moves. -/
def Finishes (w : World) (i : Nat) (r : Request) (t : Task (Except Refusal Answer)) : Prop :=
  ∃ ms, (w.after ms).store = (t.run w.store).store ∧
    (w.after ms).published = w.published ++ (t.run w.store).published ∧
    (w.after ms).calls = w.calls.set i ⟨r, .done (t.run w.store).answer⟩

theorem Finishes.of_rest (hcall : w.calls[i]? = some ⟨r, t⟩)
    (h : (w.step i).Finishes i r (t.rest w.store)) : w.Finishes i r t := by
  obtain ⟨ms, hstore, hpublished, hcalls⟩ := h
  have hstep := step_of_some hcall
  have hrun : t.run w.store =
      { (t.rest w.store).run (t.effect w.store) with
        published :=
          t.event?.toList ++ ((t.rest w.store).run (t.effect w.store)).published } := by
    cases t <;> rfl
  rw [Finishes, hrun]
  rw [hstep] at hstore hpublished hcalls
  refine ⟨.step i :: ms, ?_, ?_, ?_⟩
  · change ((w.step i).after ms).store = _
    rw [hstep, hstore]
  · change ((w.step i).after ms).published = _
    rw [hstep, hpublished, List.append_assoc]
  · change ((w.step i).after ms).calls = _
    rw [hstep, hcalls, List.set_set]

theorem call_step (hcall : w.calls[i]? = some ⟨r, t⟩) :
    (w.step i).calls[i]? = some ⟨r, t.rest w.store⟩ := by
  rw [step_of_some hcall]
  exact List.getElem?_set_self (List.getElem?_eq_some_iff.mp hcall).1

theorem finishes (hcall : w.calls[i]? = some ⟨r, t⟩) : w.Finishes i r t := by
  induction t generalizing w with
  | done a =>
      obtain ⟨hi, hcall⟩ := List.getElem?_eq_some_iff.mp hcall
      refine ⟨[], rfl, (List.append_nil _).symm, ?_⟩
      change w.calls = w.calls.set i ⟨r, .done a⟩
      rw [← hcall, List.set_getElem_self]
  | step effect next ih => exact .of_rest hcall (ih w.store (call_step hcall))
  | publish e next ih => exact .of_rest hcall (ih (call_step hcall))

/-- Among the runs of calls that take turns there is the one that serves them one after
another. -/
theorem exists_serving (w : World) (rs : List Request) :
    ∃ ms, (w.after ms).store = w.store.afterAll rs ∧
      (w.after ms).published = w.published ++ w.store.publishedBy rs ∧
      (w.after ms).calls = w.calls ++
        (w.store.serveAll rs).map fun x => ⟨x.request, .done x.outcome.answer⟩ := by
  induction rs generalizing w with
  | nil => exact ⟨[], rfl, (List.append_nil _).symm, (List.append_nil _).symm⟩
  | cons r rs ih =>
      have hcall : (w.make (.call r)).calls[w.calls.length]? = some ⟨r, r.serve.run⟩ := by
        simp [make, Call.of]
      obtain ⟨ms, hstore, hpublished, hcalls⟩ := finishes hcall
      obtain ⟨ms', hstore', hpublished', hcalls'⟩ := ih ((w.make (.call r)).after ms)
      refine ⟨.call r :: (ms ++ ms'), ?_, ?_, ?_⟩
      · change ((w.make (.call r)).after (ms ++ ms')).store = _
        rw [after_append, hstore', hstore]
        rfl
      · change ((w.make (.call r)).after (ms ++ ms')).published = _
        rw [after_append, hpublished', hpublished, hstore, List.append_assoc]
        rfl
      · change ((w.make (.call r)).after (ms ++ ms')).calls = _
        rw [after_append, hcalls', hcalls, hstore]
        change (w.calls ++ [Call.of r]).set _ _ ++ _ = _
        rw [List.set_append_right _ _ (Nat.le_refl _), Nat.sub_self, List.append_assoc]
        rfl

end World

end Gamemaster
