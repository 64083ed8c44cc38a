import Gamemaster.Proofs.World.Refused

namespace Gamemaster

namespace Task

/-- Whether a task is at its end after so many steps at most, whatever it reads. -/
inductive Within : Nat → Task α → Prop
  | done {n : Nat} {a : α} : Within n (.done a)
  | step {n : Nat} {effect : Store → Store} {next : Store → Task α} (h : ∀ s, Within n (next s)) :
      Within (n + 1) (.step effect next)
  | publish {n : Nat} {e : Event} {next : Task α} (h : Within n next) :
      Within (n + 1) (.publish e next)

namespace Within

theorem add {t : Task α} {m : Nat} (h : t.Within m) (n : Nat) : t.Within (m + n) := by
  induction h with
  | done => exact .done
  | step _ ih =>
      rw [Nat.add_right_comm]
      exact .step ih
  | publish _ ih =>
      rw [Nat.add_right_comm]
      exact .publish ih

theorem bind {t : Task α} {f : α → Task β} {m n : Nat} (h : t.Within m)
    (hf : ∀ a, (f a).Within n) :
    (t.bind f).Within (m + n) := by
  induction h with
  | @done m a =>
      rw [Nat.add_comm]
      exact (hf a).add m
  | step _ ih =>
      rw [Nat.add_right_comm]
      exact .step ih
  | publish _ ih =>
      rw [Nat.add_right_comm]
      exact .publish ih

theorem rest {t : Task α} {n : Nat} (h : t.Within n) (s : Store) : (t.rest s).Within (n - 1) := by
  cases h with
  | done => exact .done
  | step h => exact h s
  | publish h => exact h

end Within

end Task

namespace Service

def Within (n : Nat) (x : Service α) : Prop := x.run.Within n

namespace Within

theorem throw (n : Nat) (e : Refusal) : Within n (throw e : Service α) := Task.Within.done

theorem query (question : Store → Except Refusal α) : Within 1 (query question) :=
  .step fun _ => .done

theorem publish (e : Event) : Within 1 (publish e) := Task.Within.publish .done

theorem transact (change : Store → Except Refusal (α × Store)) : Within 1 (transact change) :=
  .step fun _ => .done

theorem bind {x : Service α} {f : α → Service β} {m n : Nat} (hx : Within m x)
    (hf : ∀ a, Within n (f a)) : Within (m + n) (x >>= f) := by
  refine Task.Within.bind hx fun a => ?_
  cases a with
  | error e => exact .done
  | ok a => exact hf a

theorem map {x : Service α} {n : Nat} (g : α → β) (h : Within n x) :
    Within n (do return g (← x) : Service β) := by
  rw [Within, run_map]
  exact Task.Within.bind (n := 0) h fun _ => .done

end Within

end Service

namespace World

variable {w : World} {i : Nat} {r : Request} {t : Task (Except Refusal Answer)} {ms : List Move}

theorem exists_answer_of_within {n : Nat} (hcall : w.calls[i]? = some ⟨r, t⟩) (ht : t.Within n)
    (hsteps : n ≤ ms.countP (Move.isStepAt (· == i))) : ∃ a, (w.after ms).answer? i = some a := by
  induction ms generalizing w t n with
  | nil =>
      obtain rfl : n = 0 := Nat.le_zero.mp hsteps
      cases ht with
      | done => exact ⟨_, by rw [answer?, show (w.after []).calls[i]? = _ from hcall]; rfl⟩
  | cons m ms ih =>
      rw [List.countP_cons] at hsteps
      rcases calls_make hcall m with ⟨rfl, hmade⟩ | ⟨hm, hmade⟩
      · refine ih hmade (ht.rest w.store) ?_
        simp only [Move.isStepAt, beq_self_eq_true, if_true] at hsteps
        omega
      · refine ih hmade ht ?_
        rwa [if_neg, Nat.add_zero] at hsteps
        cases m with
        | call r => exact Bool.false_ne_true
        | step j => exact fun hj => hm (congrArg Move.step (beq_iff_eq.mp hj))

theorem exists_step {c : Call} (hcall : w.calls[i]? = some c)
    (hmoved : (w.after ms).calls[i]? ≠ some c) :
    ∃ front back : List Move, ms = front ++ .step i :: back ∧
      (w.after front).calls[i]? = some c := by
  induction ms generalizing w with
  | nil => exact absurd hcall hmoved
  | cons m ms ih =>
      rcases calls_make hcall m with ⟨rfl, -⟩ | ⟨-, hmade⟩
      · exact ⟨[], ms, rfl, hcall⟩
      · obtain ⟨front, back, rfl, hfront⟩ := ih hmade hmoved
        exact ⟨m :: front, back, rfl, hfront⟩

theorem store_step {c : Call} (hcall : w.calls[i]? = some c) :
    (w.step i).store = c.task.effect w.store := by
  rw [step_of_some hcall]

theorem task_eq (hcall : w.calls[i]? = some ⟨r, t⟩) {a : Except Refusal Answer}
    (hanswer : w.answer? i = some a) : t = .done a := by
  rw [answer?, hcall] at hanswer
  cases t with
  | done a' => exact congrArg Task.done (Option.some.inj hanswer)
  | step effect next => simp [Call.answer?] at hanswer
  | publish e next => simp [Call.answer?] at hanswer

/-- A call that is refused has had no effect, and `Q` holds of the store that it met with last. -/
theorem Sound.exists_refusing_step {Q : Except Refusal Answer → Store → Prop} (h : w.Sound)
    (hcall : w.calls[i]? = some ⟨r, t⟩) (hopen : w.answer? i = none)
    (hatomic : t.Atomic Q r.TakesEffect w.store) {e : Refusal}
    (hanswer : (w.after ms).answer? i = some (.error e)) :
    ∃ front back : List Move, ms = front ++ .step i :: back ∧ (w.after front).answer? i = none ∧
      ((w.after front).step i).answer? i = some (.error e) ∧
      Q (.error e) (w.after front).store := by
  induction ms generalizing w t with
  | nil => exact absurd (hopen.symm.trans hanswer) (by simp)
  | cons m ms ih =>
      rcases World.calls_make hcall m with ⟨rfl, hmade⟩ | ⟨hm, hmade⟩
      · rcases hatomic.rest h.store with ⟨hread, hrest⟩ | ⟨_, ⟨a, rfl, -⟩, hsettled⟩
        · cases hnow : (w.step i).answer? i with
          | none =>
              have hstore : (w.make (.step i)).store = w.store := (store_step hcall).trans hread
              obtain ⟨front, back, rfl, hfront⟩ :=
                ih (h.make _) hmade hnow (hstore ▸ hrest) hanswer
              exact ⟨.step i :: front, back, rfl, hfront⟩
          | some a =>
              obtain rfl : .error e = a := ((promises_of_answer hnow).after ms).answer_eq hanswer
              rw [task_eq hmade hnow] at hrest
              exact ⟨[], ms, rfl, hopen, hnow, hrest⟩
        · have hpromise : (w.make (.step i)).Promises i (.ok a) := ⟨r, _, hmade, hsettled⟩
          cases (hpromise.after ms).answer_eq hanswer
      · have hstill : (w.make m).answer? i = none := by
          rw [answer?, hmade, ← hcall]
          exact hopen
        -- Others need not keep `Q`: it says nothing as long as the call has no answer.
        have hatomic' : t.Atomic Q r.TakesEffect (w.make m).store := by
          cases t with
          | done a => simp [answer?, hcall, Call.answer?] at hopen
          | step effect next =>
              exact fun s hs hsound => hatomic s ((h.later_make m).trans hs) hsound
          | publish e next => exact hatomic
        obtain ⟨front, back, rfl, hfront⟩ := ih (h.make m) hmade hstill hatomic' hanswer
        exact ⟨m :: front, back, rfl, hfront⟩

end World

end Gamemaster
