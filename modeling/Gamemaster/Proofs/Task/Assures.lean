import Gamemaster.Proofs.Store.Writes
import Gamemaster.Proofs.Task.Atomic

namespace Gamemaster

namespace Task

/-- Whatever others write between the steps of a task, each of its steps is a row of writes, and
`Q` holds of its answer and of the store at its end. -/
def Assures (Q : α → Store → Prop) : Task α → Store → Prop
  | .done a, s => Q a s
  | .publish _ next, s => next.Assures Q s
  | .step effect next, s => ∀ s', s.Reaches s' → s'.Tidy →
      s'.Reaches (effect s') ∧ (next s').Assures Q (effect s')

namespace Assures

variable {Q : α → Store → Prop} {t : Task α} {s s' : Store}

theorem later (hQ : ∀ a s s', s.Tidy → s.Reaches s' → Q a s → Q a s') (h : t.Assures Q s)
    (hs : s.Tidy) (hreaches : s.Reaches s') : t.Assures Q s' := by
  induction t with
  | done a => exact hQ a s s' hs hreaches h
  | publish e next ih => exact ih h
  | step effect next ih => exact fun s'' hlater => h s'' (hreaches.trans hlater)

theorem bind {P : β → Store → Prop} {t : Task β} {f : β → Task α} (h : t.Assures P s)
    (hf : ∀ b s', P b s' → (f b).Assures Q s') : (t.bind f).Assures Q s := by
  induction t generalizing s with
  | done b => exact hf b s h
  | publish e next ih => exact ih h
  | step effect next ih =>
      intro s' hreaches htidy
      obtain ⟨hwrites, hnext⟩ := h s' hreaches htidy
      exact ⟨hwrites, ih s' hnext⟩

theorem rest (h : t.Assures Q s) (hs : s.Tidy) :
    s.Reaches (t.effect s) ∧ (t.rest s).Assures Q (t.effect s) := by
  cases t with
  | done a => exact ⟨.refl s, h⟩
  | publish e next => exact ⟨.refl s, h⟩
  | step effect next => exact h s (.refl s) hs

end Assures

end Task

namespace Service

def Assures (Q : Except Refusal α → Store → Prop) (x : Service α) (s : Store) : Prop :=
  x.run.Assures Q s

namespace Assures

variable {Q : Except Refusal α → Store → Prop} {s : Store}

theorem pure {a : α} (h : Q (.ok a) s) : Assures Q (pure a) s := h

theorem throw {e : Refusal} (h : Q (.error e) s) : Assures Q (throw e) s := h

theorem ofExcept {outcome : Except Refusal α} (h : Q outcome s) :
    Assures Q (ofExcept outcome) s := by
  cases outcome <;> exact h

theorem query {question : Store → Except Refusal α}
    (h : ∀ s', s.Reaches s' → s'.Tidy → Q (question s') s') :
    Assures Q (query question) s := by
  refine fun s' hreaches htidy => ⟨.refl s', ?_⟩
  change Q (s'.ask question) s'
  rw [htidy.ask]
  exact h s' hreaches htidy

theorem bind {P : Except Refusal β → Store → Prop} {x : Service β} {f : β → Service α}
    (h : Assures P x s) (hok : ∀ b s', P (.ok b) s' → Assures Q (f b) s')
    (herror : ∀ e s', P (.error e) s' → Q (.error e) s') :
    Assures Q (x >>= f) s := by
  refine Task.Assures.bind h fun b s' hb => ?_
  cases b with
  | ok b => exact hok b s' hb
  | error e => exact herror e s' hb

theorem transact {change : Store → Except Refusal (α × Store)}
    (hok : ∀ s' a s'', s.Reaches s' → s'.Tidy → change s' = .ok (a, s'') → s'.Reaches s'' ∧
      Q (.ok a) s'')
    (herror : ∀ s' e, change s' = .error e → Q (.error e) s') :
    Assures Q (transact change) s := by
  intro s' hreaches htidy
  simp only [htidy.ask]
  cases hchange : change s' with
  | error e => exact ⟨.refl s', herror s' e hchange⟩
  | ok b => exact hok s' b.1 b.2 hreaches htidy hchange

theorem publish {Q : Except Refusal Unit → Store → Prop} (e : Event) (h : Q (.ok ()) s) :
    Assures Q (publish e) s := h

theorem map {Q' : Except Refusal β → Store → Prop} {g : α → β} {x : Service α} (h : Assures Q x s)
    (hok : ∀ a s, Q (.ok a) s → Q' (.ok (g a)) s)
    (herror : ∀ e s, Q (.error e) s → Q' (.error e) s) :
    Assures Q' (do return g (← x)) s := h.bind hok herror

end Assures

end Service

end Gamemaster
