import Gamemaster.Proofs.Serial

namespace Gamemaster

namespace Exchange

def granted (x : Exchange) : Bool := x.outcome.answer.isOk

theorem outcome_of_refused {x : Exchange} (hs : x.before.Sound) (hx : x.granted = false) :
    ∃ e, x.outcome = ⟨.error e, x.before, []⟩ := by
  cases hanswer : x.outcome.answer with
  | ok a => simp [granted, hanswer, Except.isOk, Except.toBool] at hx
  | error e => exact ⟨e, Request.outcome_of_error hs hanswer⟩

end Exchange

namespace Store

def granted (rs : List Request) (s : Store) : List Request :=
  ((s.serveAll rs).filter Exchange.granted).map Exchange.request

/-- Without the refused requests, the others meet with the same stores and are answered the
same. -/
theorem serveAll_granted {s : Store} (hs : s.Sound) (rs : List Request) :
    s.serveAll (s.granted rs) = (s.serveAll rs).filter Exchange.granted ∧
      s.afterAll (s.granted rs) = s.afterAll rs := by
  induction rs generalizing s with
  | nil => exact ⟨rfl, rfl⟩
  | cons r rs ih =>
      obtain ⟨hserved, hafter⟩ := ih (r.sound_outcome hs)
      cases hr : Exchange.granted ⟨r, s⟩ with
      | true =>
          have hcons : s.granted (r :: rs) = r :: (r.outcome s).store.granted rs := by
            simp [granted, serveAll, hr]
          rw [hcons]
          refine ⟨?_, hafter⟩
          rw [serveAll, serveAll, List.filter_cons_of_pos hr, hserved]
      | false =>
          have hcons : s.granted (r :: rs) = (r.outcome s).store.granted rs := by
            simp [granted, serveAll, hr]
          have hsame : (r.outcome s).store = s := by
            obtain ⟨e, he⟩ := Exchange.outcome_of_refused (x := ⟨r, s⟩) hs hr
            exact congrArg Task.Outcome.store he
          rw [hcons, serveAll, List.filter_cons_of_neg (by simp [hr]), ← hserved]
          rw [hsame] at hafter ⊢
          refine ⟨rfl, hafter.trans ?_⟩
          exact congrArg (afterAll rs) hsame.symm

end Store

def Move.isStepAt (places : Nat → Bool) : Move → Bool
  | .call _ => false
  | .step i => places i

namespace World

def refuses (w : World) (i : Nat) : Bool := (w.answer? i).any fun a => !a.isOk

theorem exists_refusal {w : World} {i : Nat} (h : w.refuses i = true) :
    ∃ e, w.answer? i = some (.error e) := by
  cases hanswer : w.answer? i with
  | none => simp [refuses, hanswer] at h
  | some a =>
      cases a with
      | ok a => simp [refuses, hanswer, Except.isOk, Except.toBool] at h
      | error e => exact ⟨e, rfl⟩

/-- A step of a call that is refused in the end changes nothing but the call. -/
theorem Sound.step_of_refused {w : World} (h : w.Sound) {i : Nat} {e : Refusal}
    {ms ms' : List Move}
    (hanswer : (w.after (ms ++ .step i :: ms')).answer? i = some (.error e)) :
    (w.after ms).step i = { w.after ms with calls := ((w.after ms).step i).calls } := by
  have hstore := h.unchanged_of_refused hanswer
  have hsound := h.after ms
  rw [after_append] at hanswer
  generalize w.after ms = w at *
  cases hcall : w.calls[i]? with
  | none => rw [step_of_none hcall]
  | some c =>
      have hpublished : c.task.event? = none := by
        rcases hsound.calls i c.request c.task hcall with ⟨-, hatomic⟩ | ⟨a, hsettled, -⟩
        · cases htask : c.task with
          | publish event next => exact (htask ▸ hatomic).elim
          | _ => rfl
        · have hpromise : w.Promises i (.ok a) := ⟨c.request, c.task, hcall, hsettled⟩
          have hend := (hpromise.after (.step i :: ms')).answer_eq hanswer
          simp at hend
      rw [step_of_some hcall] at hstore ⊢
      simp [show c.task.effect w.store = w.store from hstore, hpublished]

/-- Whether two worlds are the same but for the calls at some places. -/
structure SameBut (places : Nat → Bool) (w w' : World) : Prop where
  store : w'.store = w.store
  commits : w'.commits = w.commits
  published : w'.published = w.published
  length : w'.calls.length = w.calls.length
  calls : ∀ i, places i = false → w'.calls[i]? = w.calls[i]?

namespace SameBut

variable {places : Nat → Bool} {w w' : World}

theorem refl (places : Nat → Bool) (w : World) : SameBut places w w :=
  ⟨rfl, rfl, rfl, rfl, fun _ _ => rfl⟩

theorem make (h : SameBut places w w') {m : Move} (hm : m.isStepAt places = false) :
    SameBut places (w.make m) (w'.make m) := by
  cases m with
  | call r =>
      refine ⟨h.store, h.commits, h.published, ?_, fun i hi => ?_⟩
      · simp [World.make, h.length]
      · change (w'.calls ++ [Call.of r])[i]? = (w.calls ++ [Call.of r])[i]?
        rw [List.getElem?_append, List.getElem?_append, h.length, h.calls i hi]
  | step i =>
      change SameBut places (w.step i) (w'.step i)
      have hcall := h.calls i hm
      cases hc : w.calls[i]? with
      | none =>
          rw [step_of_none hc, step_of_none (hcall.trans hc)]
          exact h
      | some c =>
          rw [step_of_some hc, step_of_some (hcall.trans hc), h.store, h.commits, h.published]
          refine ⟨rfl, rfl, rfl, ?_, fun j hj => ?_⟩
          · simp [h.length]
          · simp only [List.getElem?_set, h.length, h.calls j hj]

theorem step_left (h : SameBut places w w') {i : Nat} (hi : places i = true)
    (hstep : w.step i = { w with calls := (w.step i).calls }) : SameBut places (w.step i) w' := by
  have hcalls : ∀ j, places j = false → (w.step i).calls[j]? = w.calls[j]? := by
    intro j hj
    cases hc : w.calls[i]? with
    | none => rw [step_of_none hc]
    | some c =>
        have hne : i ≠ j := by
          rintro rfl
          simp [hi] at hj
        rw [step_of_some hc, List.getElem?_set_ne hne]
  refine ⟨?_, ?_, ?_, ?_, fun j hj => (h.calls j hj).trans (hcalls j hj).symm⟩
  · rw [hstep, h.store]
  · rw [hstep, h.commits]
  · rw [hstep, h.published]
  · rw [length_step, h.length]

end SameBut

/-- The moves of a run without the steps of the calls that it refuses. -/
def struck (w : World) (moves : List Move) : List Move :=
  moves.filter fun m => !m.isStepAt (w.after moves).refuses

/-- Without the steps of the calls that are refused, a run leads to the same store and to the same
events, and every other call gets as far. -/
theorem Sound.sameBut_struck {w : World} (h : w.Sound) (moves : List Move) :
    SameBut (w.after moves).refuses (w.after moves) (w.after (w.struck moves)) := by
  unfold struck
  generalize hplaces : (w.after moves).refuses = places
  have hfront : ∀ ms ms', moves = ms ++ ms' →
      SameBut places (w.after ms) (w.after (ms.filter fun m => !m.isStepAt places)) := by
    intro ms
    induction ms using List.reverseRecOn with
    | nil => exact fun _ _ => .refl places w
    | append_singleton ms m ih =>
        intro ms' hmoves
        rw [List.append_assoc] at hmoves
        have hbefore := ih _ hmoves
        rw [List.filter_append, after_append, after_append]
        cases hm : m.isStepAt places with
        | false =>
            rw [List.filter_singleton, hm]
            exact hbefore.make hm
        | true =>
            rw [List.filter_singleton, hm]
            cases m with
            | call r => simp [Move.isStepAt] at hm
            | step i =>
                change places i = true at hm
                obtain ⟨e, hrefused⟩ : ∃ e, (w.after moves).answer? i = some (.error e) :=
                  exists_refusal (hplaces ▸ hm)
                have hstep := h.step_of_refused (hmoves ▸ hrefused)
                exact hbefore.step_left hm hstep
  exact hfront moves [] (List.append_nil moves).symm

/-- How little a run shows of the requests that are refused. -/
structure HidesRefusals (w : World) (moves : List Move) : Prop where
  /-- A request that is refused without interruption leaves the whole store as it was. -/
  unchanged : ∀ (r : Request) e, (r.outcome (w.after moves).store).answer = .error e →
    r.outcome (w.after moves).store = ⟨.error e, (w.after moves).store, []⟩
  /-- Requests that are served from then on might as well come without the refused ones. -/
  granted : ∀ rs,
    (w.after moves).store.serveAll ((w.after moves).store.granted rs) =
        ((w.after moves).store.serveAll rs).filter Exchange.granted ∧
      (w.after moves).store.afterAll ((w.after moves).store.granted rs) =
        (w.after moves).store.afterAll rs
  /-- No step of a call that is refused in the end changes anything but the call. -/
  steps : ∀ ms i ms' e, moves = ms ++ .step i :: ms' →
    (w.after moves).answer? i = some (.error e) →
    (w.after ms).step i = { w.after ms with calls := ((w.after ms).step i).calls }
  /-- The other calls might as well have raced without the refused ones. -/
  struck : SameBut (w.after moves).refuses (w.after moves) (w.after (w.struck moves))

theorem hidesRefusals_opened (onFile : Bool) (moves : List Move) :
    (opened onFile).HidesRefusals moves := by
  have hw := sound_opened onFile
  have hs := (hw.after moves).store
  refine ⟨fun r e hanswer => Request.outcome_of_error hs hanswer, Store.serveAll_granted hs, ?_,
    hw.sameBut_struck moves⟩
  rintro ms i ms' e rfl hanswer
  exact hw.step_of_refused hanswer

end World

end Gamemaster
