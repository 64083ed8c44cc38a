import Gamemaster.Proofs.Request
import Mathlib

namespace Gamemaster

/-- Whatever takes effect writes, and is logged. -/
theorem Effect.writes {r : Request} {a : Answer} {s s' : Store} (h : Effect r a s s') :
    r.writes = true := by
  cases h <;> rfl

theorem Effect.log_ne {r : Request} {a : Answer} {s s' : Store} (h : Effect r a s s') :
    s'.log ≠ s.log := by
  cases h with
  | start _ _ _ _ inserted logged =>
      obtain ⟨-, -, rfl⟩ := Store.eq_of_insertCombat inserted
      exact Store.log_ne_of_append logged rfl
  | act _ _ _ _ _ _ _ written logged =>
      obtain ⟨-, rfl⟩ := Store.eq_of_commitCombatant? written
      exact Store.log_ne_of_append logged rfl
  | turn _ _ _ _ _ _ _ written logged =>
      obtain ⟨-, rfl⟩ := Store.eq_of_commitTurn? written
      exact Store.log_ne_of_append logged rfl
  | build _ _ _ _ inserted logged =>
      obtain ⟨-, rfl⟩ := Prod.mk.inj inserted
      exact Store.log_ne_of_append logged rfl
  | create _ _ _ _ inserted logged =>
      obtain ⟨-, rfl⟩ := Prod.mk.inj inserted
      exact Store.log_ne_of_append logged rfl

namespace World

/-- The call at a place answers with `a`, now or when it gets to its end. -/
def Promises (w : World) (i : Nat) (a : Except Refusal Answer) : Prop :=
  ∃ r t, w.calls[i]? = some ⟨r, t⟩ ∧ t.Settled a

/-- What holds of every world that is reached from a new store: each call has either had no effect
yet, or it has taken effect, has committed just once, and will be answered so. -/
structure Sound (w : World) : Prop where
  store : w.store.Sound
  range : ∀ i ∈ w.commits, i < w.calls.length
  nodup : w.commits.Nodup
  calls : ∀ i r t, w.calls[i]? = some ⟨r, t⟩ →
    (i ∉ w.commits ∧ t.Atomic r.Idle r.TakesEffect w.store) ∨
      ∃ a, t.Settled (.ok a) ∧ i ∈ w.commits

variable {w : World}

theorem sound_opened (onFile : Bool) : (opened onFile).Sound where
  store := Store.sound_empty onFile
  range := by simp [opened]
  nodup := List.nodup_nil
  calls := by simp [opened]

theorem step_of_none {i : Nat} (h : w.calls[i]? = none) : w.step i = w := by
  simp only [step, h]

theorem step_of_some {i : Nat} {c : Call} (h : w.calls[i]? = some c) :
    w.step i =
      { store := c.task.effect w.store
        calls := w.calls.set i ⟨c.request, c.task.rest w.store⟩
        commits :=
          if (c.task.effect w.store).log = w.store.log then w.commits else w.commits ++ [i]
        published := w.published ++ c.task.event?.toList } := by
  simp only [step, h]

theorem calls_make {i : Nat} {c : Call} (h : w.calls[i]? = some c) (m : Move) :
    (m = .step i ∧ (w.make m).calls[i]? = some ⟨c.request, c.task.rest w.store⟩) ∨
      (m ≠ .step i ∧ (w.make m).calls[i]? = some c) := by
  have hi : i < w.calls.length := (List.getElem?_eq_some_iff.mp h).1
  cases m with
  | call r => exact .inr ⟨nofun, (List.getElem?_append_left hi).trans h⟩
  | step j =>
      change (_ ∧ (w.step j).calls[i]? = _) ∨ (_ ∧ (w.step j).calls[i]? = _)
      by_cases hj : j = i
      · subst hj
        rw [step_of_some h]
        exact .inl ⟨rfl, List.getElem?_set_self hi⟩
      · refine .inr ⟨fun heq => hj (Move.step.inj heq), ?_⟩
        cases hcall : w.calls[j]? with
        | none => rw [step_of_none hcall, h]
        | some c' =>
            rw [step_of_some hcall]
            exact (List.getElem?_set_ne hj).trans h

/-- A call that is there after a move has just come in, it has taken its step, or it is as it
was. -/
theorem call_cases {i : Nat} {r : Request} {t' : Task (Except Refusal Answer)} {m : Move}
    (h : (w.make m).calls[i]? = some ⟨r, t'⟩) :
    (m = .call r ∧ i = w.calls.length ∧ t' = r.serve.run) ∨
      ∃ t, w.calls[i]? = some ⟨r, t⟩ ∧
        ((m = .step i ∧ t' = t.rest w.store) ∨ (m ≠ .step i ∧ t' = t)) := by
  cases hcall : w.calls[i]? with
  | some c =>
      obtain ⟨r', t⟩ := c
      right
      rcases calls_make hcall m with ⟨hm, hmade⟩ | ⟨hm, hmade⟩
      · obtain ⟨rfl, rfl⟩ := Call.mk.inj (Option.some.inj (h.symm.trans hmade))
        exact ⟨t, rfl, .inl ⟨hm, rfl⟩⟩
      · obtain ⟨rfl, rfl⟩ := Call.mk.inj (Option.some.inj (h.symm.trans hmade))
        exact ⟨t', rfl, .inr ⟨hm, rfl⟩⟩
  | none =>
      left
      -- A step adds no call, so the move that put one here is its arrival.
      have hi : w.calls.length ≤ i := List.getElem?_eq_none_iff.mp hcall
      cases m with
      | call r' =>
          change (w.calls ++ [Call.of r'])[i]? = some ⟨r, t'⟩ at h
          rw [List.getElem?_append_right hi, List.getElem?_singleton] at h
          split at h
          · obtain ⟨rfl, rfl⟩ := Call.mk.inj (Option.some.inj h)
            exact ⟨rfl, by omega, rfl⟩
          · simp at h
      | step j =>
          change (w.step j).calls[i]? = some ⟨r, t'⟩ at h
          cases hj : w.calls[j]? with
          | none =>
              rw [step_of_none hj, hcall] at h
              simp at h
          | some c =>
              rw [step_of_some hj, List.getElem?_eq_none (by simpa using hi)] at h
              simp at h

/-- A move either leaves the store as it is, or one call takes effect by it. -/
theorem Sound.make_cases (h : w.Sound) (m : Move) :
    ((w.make m).store = w.store ∧ (w.make m).commits = w.commits) ∨
      ∃ i r a, m = .step i ∧ w.request? i = some r ∧ i ∉ w.commits ∧
        Effect r a w.store (w.make m).store ∧ (w.make m).Promises i (.ok a) ∧
        (w.make m).commits = w.commits ++ [i] := by
  cases m with
  | call r => exact .inl ⟨rfl, rfl⟩
  | step i =>
      change ((w.step i).store = _ ∧ (w.step i).commits = _) ∨ _
      cases hcall : w.calls[i]? with
      | none => exact .inl (by rw [step_of_none hcall]; exact ⟨rfl, rfl⟩)
      | some c =>
          have hmade : w.make (.step i) = w.step i := rfl
          rw [hmade, step_of_some hcall]
          -- A call that has committed has only its event and its answer left.
          rcases h.calls i _ _ hcall with ⟨hopen, hatomic⟩ | ⟨a, hsettled, -⟩
          · rcases hatomic.rest h.store with ⟨hread, -⟩ | ⟨_, ⟨a, rfl, heffect⟩, hsettled⟩
            · exact .inl ⟨hread, if_pos (congrArg Store.log hread)⟩
            · have hi : i < w.calls.length := (List.getElem?_eq_some_iff.mp hcall).1
              refine .inr
                ⟨i, c.request, a, rfl, by simp [request?, hcall], hopen, heffect, ?_, ?_⟩
              · exact ⟨c.request, _, List.getElem?_set_self hi, hsettled⟩
              · exact if_neg heffect.log_ne
          · have hread := (hsettled.rest w.store).2
            exact .inl ⟨hread, if_pos (congrArg Store.log hread)⟩

theorem Promises.make {i : Nat} {a : Except Refusal Answer} (h : w.Promises i a) (m : Move) :
    (w.make m).Promises i a := by
  obtain ⟨r, t, hcall, hsettled⟩ := h
  rcases calls_make hcall m with ⟨-, hmade⟩ | ⟨-, hmade⟩
  · exact ⟨r, _, hmade, (hsettled.rest w.store).1⟩
  · exact ⟨r, t, hmade, hsettled⟩

theorem Sound.later_make (h : w.Sound) (m : Move) : w.store.Later (w.make m).store := by
  rcases h.make_cases m with ⟨hstore, -⟩ | ⟨i, r, a, -, -, -, heffect, -⟩
  · rw [hstore]
    exact .refl _
  · exact heffect.later h.store

theorem length_step (w : World) (i : Nat) : (w.step i).calls.length = w.calls.length := by
  cases hcall : w.calls[i]? with
  | none => rw [step_of_none hcall]
  | some c => simp [step_of_some hcall]

theorem length_make (w : World) (m : Move) : w.calls.length ≤ (w.make m).calls.length := by
  cases m with
  | call r => simp [make]
  | step i => exact Nat.le_of_eq (length_step w i).symm

theorem Sound.commits_make (h : w.Sound) (m : Move) :
    (w.make m).commits = w.commits ∨
      ∃ i, m = .step i ∧ i < w.calls.length ∧ i ∉ w.commits ∧
        (w.make m).commits = w.commits ++ [i] := by
  rcases h.make_cases m with ⟨-, hsame⟩ | ⟨i, r, a, hm, hrequest, hopen, -, -, hcommits⟩
  · exact .inl hsame
  · refine .inr ⟨i, hm, ?_, hopen, hcommits⟩
    by_contra hi
    simp [request?, List.getElem?_eq_none (Nat.not_lt.mp hi)] at hrequest

theorem Sound.mem_commits_make (h : w.Sound) (m : Move) {i : Nat} (hi : i ∈ w.commits) :
    i ∈ (w.make m).commits := by
  rcases h.commits_make m with hsame | ⟨j, -, -, -, hcommits⟩
  · rwa [hsame]
  · rw [hcommits]
    exact List.mem_append_left _ hi

theorem Sound.notMem_commits_make (h : w.Sound) {m : Move} {i : Nat} (hm : m ≠ .step i)
    (hi : i ∉ w.commits) : i ∉ (w.make m).commits := by
  rcases h.commits_make m with hsame | ⟨j, rfl, -, -, hcommits⟩
  · rwa [hsame]
  · rw [hcommits, List.mem_append, List.mem_singleton]
    rintro (hmem | rfl)
    · exact hi hmem
    · exact hm rfl

theorem Sound.calls_make (h : w.Sound) (m : Move) {i : Nat} {r : Request}
    {t : Task (Except Refusal Answer)} (hcall : (w.make m).calls[i]? = some ⟨r, t⟩) :
    (i ∉ (w.make m).commits ∧ t.Atomic r.Idle r.TakesEffect (w.make m).store) ∨
      ∃ a, t.Settled (.ok a) ∧ i ∈ (w.make m).commits := by
  rcases call_cases hcall with ⟨rfl, rfl, rfl⟩ | ⟨t, hbefore, ⟨rfl, rfl⟩ | ⟨hm, rfl⟩⟩
  · exact .inl ⟨fun hi => Nat.lt_irrefl _ (h.range _ hi), r.serve_atomic h.store⟩
  · rcases h.calls i r t hbefore with ⟨hopen, hatomic⟩ | ⟨a, hsettled, hcommitted⟩
    · have hstep : w.make (.step i) = _ := step_of_some hbefore
      rw [hstep]
      rcases hatomic.rest h.store with ⟨hread, hrest⟩ | ⟨_, ⟨a, rfl, heffect⟩, hsettled⟩
      · left
        dsimp only
        rw [hread, if_pos rfl]
        exact ⟨hopen, hrest⟩
      · exact .inr ⟨a, hsettled, by simp [heffect.log_ne]⟩
    · exact .inr ⟨a, (hsettled.rest w.store).1, h.mem_commits_make _ hcommitted⟩
  · rcases h.calls i r t hbefore with ⟨hopen, hatomic⟩ | ⟨a, hsettled, hcommitted⟩
    · exact .inl ⟨h.notMem_commits_make hm hopen,
        hatomic.later (fun _ _ _ _ hidle => hidle) (h.later_make m)⟩
    · exact .inr ⟨a, hsettled, h.mem_commits_make _ hcommitted⟩

theorem Sound.make (h : w.Sound) (m : Move) : (w.make m).Sound := by
  refine ⟨?_, fun i hi => ?_, ?_, fun i r t hcall => h.calls_make m hcall⟩
  · rcases h.make_cases m with ⟨hstore, -⟩ | ⟨i, r, a, -, -, -, heffect, -⟩
    · exact hstore ▸ h.store
    · exact heffect.sound h.store
  · refine Nat.lt_of_lt_of_le ?_ (length_make w m)
    rcases h.commits_make m with hsame | ⟨j, -, hj, -, hcommits⟩
    · exact h.range i (hsame ▸ hi)
    · rw [hcommits] at hi
      rcases List.mem_append.mp hi with hi | hi
      · exact h.range i hi
      · rw [List.mem_singleton.mp hi]
        exact hj
  · rcases h.commits_make m with hsame | ⟨j, -, -, hopen, hcommits⟩
    · exact hsame ▸ h.nodup
    · rw [hcommits, ← List.concat_eq_append]
      exact h.nodup.concat hopen

theorem request?_make {i : Nat} {r : Request} (h : w.request? i = some r) (m : Move) :
    (w.make m).request? i = some r := by
  obtain ⟨c, hcall, rfl⟩ := Option.map_eq_some_iff.mp h
  rcases calls_make hcall m with ⟨-, hmade⟩ | ⟨-, hmade⟩ <;> simp [request?, hmade]

/-- The calls of a kind that have committed, in the order of their commits. -/
def committed (kind : Request → Bool) (w : World) : List Nat :=
  w.commits.filter fun i => (w.request? i).any kind

section Committed

variable {kind : Request → Bool} {i : Nat} {r : Request}

theorem mem_committed (hrequest : w.request? i = some r) :
    i ∈ w.committed kind ↔ i ∈ w.commits ∧ kind r = true := by
  simp [committed, hrequest]

theorem Sound.request?_make (h : w.Sound) (hi : i ∈ w.commits) (m : Move) :
    (w.make m).request? i = w.request? i := by
  have hlt := h.range i hi
  have hrequest : w.request? i = some w.calls[i].request := by simp [request?, hlt]
  rw [World.request?_make hrequest m, hrequest]

theorem Sound.committed_same (h : w.Sound) {m : Move} (hsame : (w.make m).commits = w.commits) :
    (w.make m).committed kind = w.committed kind := by
  rw [committed, hsame]
  exact List.filter_congr fun i hi => by rw [h.request?_make hi m]

theorem Sound.committed_concat (h : w.Sound) {m : Move} (hrequest : w.request? i = some r)
    (hgrown : (w.make m).commits = w.commits ++ [i]) :
    (w.make m).committed kind = w.committed kind ++ if kind r then [i] else [] := by
  have hfilter : w.commits.filter (fun j => ((w.make m).request? j).any kind) =
      w.committed kind := List.filter_congr fun j hj => by rw [h.request?_make hj m]
  rw [committed, hgrown, List.filter_append, hfilter, List.filter_singleton,
    World.request?_make hrequest m, Option.any_some]
  cases kind r <;> rfl

end Committed

section Run

variable {i : Nat} {r : Request} {a b : Except Refusal Answer}

theorem after_append (w : World) (ms ms' : List Move) :
    w.after (ms ++ ms') = (w.after ms).after ms' := List.foldl_append

theorem after_append_cons (w : World) (front : List Move) (m : Move) (back : List Move) :
    w.after (front ++ m :: back) = ((w.after front).make m).after back :=
  after_append w front (m :: back)

/-- What each move keeps, every run keeps. -/
theorem Sound.after_induction {P : World → Prop} (h : w.Sound) (hw : P w)
    (hmake : ∀ w m, w.Sound → P w → P (w.make m)) (ms : List Move) :
    (w.after ms).Sound ∧ P (w.after ms) := by
  induction ms generalizing w with
  | nil => exact ⟨h, hw⟩
  | cons m ms ih => exact ih (h.make m) (hmake w m h hw)

theorem Sound.after (h : w.Sound) (ms : List Move) : (w.after ms).Sound :=
  (h.after_induction (P := fun _ => True) trivial (fun _ _ _ _ => trivial) ms).1

theorem Sound.later_after (h : w.Sound) (ms : List Move) : w.store.Later (w.after ms).store :=
  (h.after_induction (P := fun w' => w.store.Later w'.store) (.refl w.store)
    (fun _ m hsound hlater => hlater.trans (hsound.later_make m)) ms).2

theorem Sound.commits_after (h : w.Sound) (ms : List Move) :
    w.commits <+: (w.after ms).commits := by
  refine (h.after_induction (P := fun w' => w.commits <+: w'.commits) List.prefix_rfl
    (fun w' m hsound hfront => hfront.trans ?_) ms).2
  rcases hsound.commits_make m with hsame | ⟨j, -, -, -, hcommits⟩
  · exact hsame ▸ List.prefix_rfl
  · exact hcommits ▸ List.prefix_append _ _

theorem Promises.after (h : w.Promises i a) (ms : List Move) : (w.after ms).Promises i a := by
  induction ms generalizing w with
  | nil => exact h
  | cons m ms ih => exact ih (h.make m)

theorem request?_after (h : w.request? i = some r) (ms : List Move) :
    (w.after ms).request? i = some r := by
  induction ms generalizing w with
  | nil => exact h
  | cons m ms ih => exact ih (request?_make h m)

theorem request?_of_after (hi : i < w.calls.length) {ms : List Move}
    (h : (w.after ms).request? i = some r) : w.request? i = some r := by
  have hrequest : w.request? i = some w.calls[i].request := by simp [request?, hi]
  rw [hrequest, ← h, request?_after hrequest ms]

theorem Promises.answer_eq (h : w.Promises i a) (hb : w.answer? i = some b) : b = a := by
  obtain ⟨r, t, hcall, hsettled⟩ := h
  cases hsettled with
  | done => simpa [answer?, hcall, Call.answer?, eq_comm] using hb
  | publish _ => simp [answer?, hcall, Call.answer?] at hb

theorem promises_of_answer (h : w.answer? i = some a) : w.Promises i a := by
  obtain ⟨⟨r, t⟩, hcall, hanswer⟩ := Option.bind_eq_some_iff.mp h
  cases t with
  | done a' =>
      obtain rfl : a' = a := Option.some.inj hanswer
      exact ⟨r, _, hcall, .done⟩
  | step effect next => simp [Call.answer?] at hanswer
  | publish e next => simp [Call.answer?] at hanswer

theorem Sound.mem_commits (h : w.Sound) (hrequest : w.request? i = some r)
    (hwrites : r.writes = true) {x : Answer} (hpromise : w.Promises i (.ok x)) :
    i ∈ w.commits := by
  obtain ⟨r', t, hcall, hsettled⟩ := hpromise
  obtain rfl : r' = r := by simpa [request?, hcall] using hrequest
  rcases h.calls i r' t hcall with ⟨-, hatomic⟩ | ⟨-, -, hcommitted⟩
  · exact absurd hsettled (Request.not_settled hwrites hatomic)
  · exact hcommitted

theorem Sound.promises_of_make (h : w.Sound) {m : Move}
    (hrequest : (w.make m).request? i = some r) (hwrites : r.writes = true) {x : Answer}
    (hpromise : (w.make m).Promises i (.ok x)) :
    (w.request? i = some r ∧ w.Promises i (.ok x)) ∨ Effect r x w.store (w.make m).store := by
  obtain ⟨r', t', hcall', hsettled'⟩ := hpromise
  obtain rfl : r' = r := by simpa [request?, hcall'] using hrequest
  rcases call_cases hcall' with ⟨-, -, rfl⟩ | ⟨t, hcall, ⟨rfl, rfl⟩ | ⟨-, rfl⟩⟩
  · exact absurd hsettled' (Request.not_settled hwrites (Request.serve_atomic r' h.store))
  · rcases h.calls i r' t hcall with ⟨-, hatomic⟩ | ⟨a, hsettled, -⟩
    · rcases hatomic.rest h.store with ⟨-, hrest⟩ | ⟨_, ⟨a, rfl, heffect⟩, hsettled⟩
      · exact absurd hsettled' (Request.not_settled hwrites hrest)
      · have hstep : w.make (.step i) = _ := step_of_some hcall
        obtain rfl : x = a := Except.ok.inj (hsettled'.unique hsettled)
        rw [hstep]
        exact .inr heffect
    · have hsame := hsettled'.unique (hsettled.rest w.store).1
      rw [hsame]
      exact .inl ⟨by simp [request?, hcall], r', t, hcall, hsettled⟩
  · exact .inl ⟨by simp [request?, hcall], r', t', hcall, hsettled'⟩

theorem Sound.notMem_commits (h : w.Sound) {e : Refusal} (hpromise : w.Promises i (.error e)) :
    i ∉ w.commits := by
  obtain ⟨r, t, hcall, hsettled⟩ := hpromise
  rcases h.calls i r t hcall with ⟨hopen, -⟩ | ⟨a, hsettled', -⟩
  · exact hopen
  · have := hsettled.unique hsettled'
    simp at this

/-- No step of a call that is refused in the end changes the store. -/
theorem Sound.unchanged_of_refused (h : w.Sound) {e : Refusal} {ms ms' : List Move}
    (hanswer : (w.after (ms ++ .step i :: ms')).answer? i = some (.error e)) :
    ((w.after ms).step i).store = (w.after ms).store := by
  rw [after_append] at hanswer
  rcases (h.after ms).make_cases (.step i) with ⟨hstore, -⟩ | ⟨j, r, a, hj, -, -, -, hpromise, -⟩
  · exact hstore
  · obtain rfl := Move.step.inj hj
    have := (hpromise.after ms').answer_eq hanswer
    simp at this

theorem exists_arrival {c : Call} (ms : List Move) (hi : w.calls.length ≤ i)
    (hcall : (w.after ms).calls[i]? = some c) :
    ∃ ms₁ r ms₂, ms = ms₁ ++ .call r :: ms₂ ∧ i = (w.after ms₁).calls.length := by
  induction ms generalizing w with
  | nil =>
      rw [show w.after [] = w from rfl, List.getElem?_eq_none hi] at hcall
      simp at hcall
  | cons m ms ih =>
      -- While the place is still beyond the calls, the arrival is yet to come.
      by_cases hlater : (w.make m).calls.length ≤ i
      · obtain ⟨ms₁, r, ms₂, rfl, hlength⟩ := ih hlater hcall
        exact ⟨m :: ms₁, r, ms₂, rfl, hlength⟩
      · cases m with
        | call r =>
            refine ⟨[], r, ms, rfl, Nat.le_antisymm ?_ hi⟩
            change ¬(w.calls ++ [Call.of r]).length ≤ i at hlater
            rw [List.length_append, List.length_singleton] at hlater
            exact Nat.lt_succ_iff.mp (Nat.not_le.mp hlater)
        | step j => exact absurd ((length_step w j).symm ▸ hi) hlater

theorem exists_call (hi : w.calls.length ≤ i) {ms : List Move}
    (hrequest : (w.after ms).request? i = some r) :
    ∃ front back : List Move, ms = front ++ .call r :: back ∧ i = (w.after front).calls.length ∧
      ((w.after front).make (.call r)).calls[i]? = some (.of r) := by
  obtain ⟨c, hcall, -⟩ := Option.map_eq_some_iff.mp hrequest
  obtain ⟨front, r', back, rfl, rfl⟩ := exists_arrival ms hi hcall
  have hnew : ((w.after front).make (.call r')).calls[(w.after front).calls.length]? =
      some (.of r') := by
    simp [World.make]
  have hsame := request?_after (by rw [request?, hnew]; rfl) back
  rw [after_append_cons] at hrequest
  obtain rfl : r' = r := Option.some.inj (hsame.symm.trans hrequest)
  exact ⟨front, back, rfl, rfl, hnew⟩

theorem Sound.atomic_make {Q : Except Refusal Answer → Store → Prop}
    (hQ : ∀ a s s', s.Later s' → Q a s → Q a s') (h : w.Sound) {t : Task (Except Refusal Answer)}
    (hcall : w.calls[i]? = some ⟨r, t⟩) (hatomic : t.Atomic Q r.TakesEffect w.store) (m : Move) :
    (∃ t', (w.make m).calls[i]? = some ⟨r, t'⟩ ∧ t'.Atomic Q r.TakesEffect (w.make m).store) ∨
      ∃ a, (w.make m).Promises i (.ok a) := by
  rcases World.calls_make hcall m with ⟨-, hmade⟩ | ⟨-, hmade⟩
  · rcases hatomic.rest h.store with ⟨-, hrest⟩ | ⟨_, ⟨a, rfl, -⟩, hsettled⟩
    · exact .inl ⟨_, hmade, hrest.later hQ (h.later_make m)⟩
    · exact .inr ⟨a, r, _, hmade, hsettled⟩
  · exact .inl ⟨t, hmade, hatomic.later hQ (h.later_make m)⟩

theorem Sound.atomic_after {Q : Except Refusal Answer → Store → Prop}
    (hQ : ∀ a s s', s.Later s' → Q a s → Q a s') (h : w.Sound) {t : Task (Except Refusal Answer)}
    (hcall : w.calls[i]? = some ⟨r, t⟩) (hatomic : t.Atomic Q r.TakesEffect w.store)
    (ms : List Move) :
    (∃ t', (w.after ms).calls[i]? = some ⟨r, t'⟩ ∧ t'.Atomic Q r.TakesEffect (w.after ms).store) ∨
      ∃ a, (w.after ms).Promises i (.ok a) := by
  refine (h.after_induction (P := fun w' =>
    (∃ t', w'.calls[i]? = some ⟨r, t'⟩ ∧ t'.Atomic Q r.TakesEffect w'.store) ∨
      ∃ a, w'.Promises i (.ok a)) (.inl ⟨t, hcall, hatomic⟩) (fun w' m hsound hw' => ?_) ms).2
  rcases hw' with ⟨t', hcall', hatomic'⟩ | ⟨a, hpromise⟩
  · exact hsound.atomic_make hQ hcall' hatomic' m
  · exact .inr ⟨a, hpromise.make m⟩

theorem Sound.refused_after {Q : Except Refusal Answer → Store → Prop}
    (hQ : ∀ a s s', s.Later s' → Q a s → Q a s') (h : w.Sound) {t : Task (Except Refusal Answer)}
    (hcall : w.calls[i]? = some ⟨r, t⟩) (hatomic : t.Atomic Q r.TakesEffect w.store)
    {ms : List Move} {e : Refusal} (hanswer : (w.after ms).answer? i = some (.error e)) :
    Q (.error e) (w.after ms).store := by
  rcases h.atomic_after hQ hcall hatomic ms with ⟨t', hcall', hatomic'⟩ | ⟨a, hpromise⟩
  · rw [answer?, hcall'] at hanswer
    cases t' with
    | done a =>
        obtain rfl : a = .error e := Option.some.inj hanswer
        exact hatomic'
    | step effect next => simp [Call.answer?] at hanswer
    | publish e next => simp [Call.answer?] at hanswer
  · have := hpromise.answer_eq hanswer
    simp at this

end Run

/-- The moves by which a combat of one combatant is started. -/
def soloStart : List Move :=
  [.call (.start ⟨"camp", none, [⟨"Aldric", "party", some [("maxHp", .int 10)]⟩]⟩),
    .step 0, .step 0]

def soloCombatant : Combatant where
  id := "combatant-1"
  combatId := "combat-1"
  name := "Aldric"
  side := "party"
  maxHp := 10
  currentHp := 10
  tempHp := 0
  initiative := 10
  conditions := []
  notes := none
  stats := [("maxHp", .int 10)]
  position := 0
  revision := 0

def soloAnswer : StartAnswer :=
  ⟨"combat-1", 1, 1, [.ofCombatant soloCombatant],
    "Combat started: 1 combatants (1 party) - Aldric acts first"⟩

def soloEvent : Event :=
  ⟨some "camp", soloAnswer.summary, .combatStarted "combat-1" none soloAnswer.order⟩

def soloWorld : World where
  store :=
    { Store.empty false with
      issued := ⟨1, 1, 0, 0, 0⟩
      combats := [⟨.start "combat-1" "camp" none, activeStatus⟩]
      combatants := [.intact soloCombatant]
      log := some [soloEvent] }
  calls :=
    [⟨.start ⟨"camp", none, [⟨"Aldric", "party", some [("maxHp", .int 10)]⟩]⟩,
      .done (.ok (.started soloAnswer))⟩]
  commits := [0]
  published := [soloEvent]

theorem after_soloStart : (opened false).after soloStart = soloWorld := by cbv

/-- A roster whose last two members have the same initiative. -/
def tiedStart : StartRequest :=
  ⟨"c", none, [⟨"X", "us", some [("initiative", .int (-2))]⟩,
    ⟨"Y", "us", some [("initiative", .int 7)]⟩, ⟨"Z", "us", some [("initiative", .int 7)]⟩]⟩

def tiedAnswer : StartAnswer where
  combatId := "combat-1"
  round := 1
  version := 1
  order :=
    [⟨"combatant-1", "Y", "us", 7⟩, ⟨"combatant-2", "Z", "us", 7⟩, ⟨"combatant-3", "X", "us", -2⟩]
  summary := "Combat started: 3 combatants (3 us) - Y acts first"

def tiedMoves : List Move := [.call (.start tiedStart), .step 0, .step 0]

def tiedRows : List (Kept Combatant) :=
  let row (id name : String) (initiative position : Int) : Kept Combatant :=
    .intact ⟨id, "combat-1", name, "us", 0, 0, 0, initiative, [], none,
      [("initiative", .int initiative)], position, 0⟩
  [row "combatant-1" "Y" 7 1, row "combatant-2" "Z" 7 2, row "combatant-3" "X" (-2) 0]

def tiedEvent : Event :=
  ⟨some "c", tiedAnswer.summary, .combatStarted "combat-1" none tiedAnswer.order⟩

def tiedWorld : World where
  store :=
    { Store.empty false with
      issued := ⟨1, 3, 0, 0, 0⟩
      combats := [⟨.start "combat-1" "c" none, activeStatus⟩]
      combatants := tiedRows
      log := some [tiedEvent] }
  calls := [⟨.start tiedStart, .done (.ok (.started tiedAnswer))⟩]
  commits := [0]
  published := [tiedEvent]

theorem after_tiedMoves : (opened false).after tiedMoves = tiedWorld := by cbv

end World

end Gamemaster
