import Gamemaster.Proofs.Store.Sound
import Gamemaster.Proofs.World
/-!
Tasks that look like one step. An atomic task only reads until, at one of its steps, it takes
effect; what other tasks do to the store between its steps may make its reads old but not wrong.
-/
namespace Gamemaster

namespace Task

/-- Nothing is left to do but to publish events and to give the answer. -/
inductive Settled (a : α) : Task α → Prop
  | done : Settled a (.done a)
  | publish {e : Event} {t : Task α} (h : Settled a t) : Settled a (.publish e t)

/-- From a store on a task only reads until it takes effect, if it ever does. `Q` holds of the
answers that it gives without effect, `E` of those that it gives with one and of the stores before
and after. -/
def Atomic (Q : α → Store → Prop) (E : α → Store → Store → Prop) : Task α → Store → Prop
  | .done a, s => Q a s
  | .publish _ _, _ => False
  | .step effect next, s => ∀ s', s.Later s' → s'.Sound →
      (effect s' = s' ∧ (next s').Atomic Q E s') ∨ ∃ a, E a s' (effect s') ∧ (next s').Settled a

theorem Settled.bind {t : Task α} {a : α} {f : α → Task β} {b : β} (h : t.Settled a)
    (hf : (f a).Settled b) : (t.bind f).Settled b := by
  induction h with
  | done => exact hf
  | publish _ ih => exact .publish ih

theorem Settled.unique {t : Task α} {a b : α} (ha : t.Settled a) (hb : t.Settled b) : a = b := by
  induction ha with
  | done =>
      cases hb with
      | done => rfl
  | publish _ ih =>
      cases hb with
      | publish hb => exact ih hb

theorem Settled.rest {t : Task α} {a : α} (h : t.Settled a) (s : Store) :
    (t.rest s).Settled a ∧ t.effect s = s := by
  cases h with
  | done => exact ⟨.done, rfl⟩
  | publish h => exact ⟨h, rfl⟩

namespace Atomic

variable {Q : α → Store → Prop} {E : α → Store → Store → Prop} {t : Task α} {s s' : Store}

theorem later (hQ : ∀ a s s', s.Later s' → Q a s → Q a s') (h : t.Atomic Q E s)
    (hs : s.Later s') : t.Atomic Q E s' := by
  cases t with
  | done a => exact hQ a s s' hs h
  | step effect next => exact fun s'' hs' hsound => h s'' (hs.trans hs') hsound
  | publish e next => exact h

/-- A step of an atomic task is one that only reads, or the one at which it takes effect. -/
theorem rest (h : t.Atomic Q E s) (hs : s.Sound) :
    (t.effect s = s ∧ (t.rest s).Atomic Q E s) ∨
      ∃ a, E a s (t.effect s) ∧ (t.rest s).Settled a := by
  cases t with
  | done a => exact .inl ⟨rfl, h⟩
  | step effect next => exact h s (.refl s) hs
  | publish e next => exact h.elim

theorem imp {Q' : α → Store → Prop} {E' : α → Store → Store → Prop}
    (hQ : ∀ a s, Q a s → Q' a s) (hE : ∀ a s s', E a s s' → E' a s s') {s : Store}
    (h : t.Atomic Q E s) : t.Atomic Q' E' s := by
  induction t generalizing s with
  | done a => exact hQ a s h
  | step effect next ih =>
      intro s' hs hsound
      rcases h s' hs hsound with ⟨hread, hnext⟩ | ⟨a, heffect, hsettled⟩
      · exact .inl ⟨hread, ih s' hnext⟩
      · exact .inr ⟨a, hE a _ _ heffect, hsettled⟩
  | publish e next ih => exact h.elim

theorem bind {P : β → Store → Prop} {t : Task β} {f : β → Task α} {s : Store}
    (h : t.Atomic P (fun _ _ _ => False) s) (hf : ∀ b s', P b s' → (f b).Atomic Q E s') :
    (t.bind f).Atomic Q E s := by
  induction t generalizing s with
  | done b => exact hf b s h
  | step effect next ih =>
      intro s' hs hsound
      rcases h s' hs hsound with ⟨hread, hnext⟩ | ⟨a, hfalse, -⟩
      · exact .inl ⟨hread, ih s' hnext⟩
      · exact hfalse.elim
  | publish e next ih => exact h.elim

theorem map {Q' : β → Store → Prop} {E' : β → Store → Store → Prop} {g : α → β}
    (hQ : ∀ a s, Q a s → Q' (g a) s) (hE : ∀ a s s', E a s s' → E' (g a) s s')
    {s : Store} (h : t.Atomic Q E s) : (t.bind fun a => .done (g a)).Atomic Q' E' s := by
  induction t generalizing s with
  | done a => exact hQ a s h
  | step effect next ih =>
      intro s' hs hsound
      rcases h s' hs hsound with ⟨hread, hnext⟩ | ⟨a, heffect, hsettled⟩
      · exact .inl ⟨hread, ih s' hnext⟩
      · exact .inr ⟨g a, hE a _ _ heffect, hsettled.bind .done⟩
  | publish e next ih => exact h.elim

end Atomic

end Task

namespace Service

/-- An atomic service: `E` goes with its success, while `Q` holds of every answer without
effect. -/
def Atomic (Q : Except Refusal α → Store → Prop) (E : α → Store → Store → Prop) (x : Service α)
    (s : Store) : Prop :=
  x.run.Atomic Q (fun a s s' => ∃ b, a = .ok b ∧ E b s s') s

/-- A service that only reads; `P` holds of what it read. -/
def Reads (P : Except Refusal α → Store → Prop) (x : Service α) (s : Store) : Prop :=
  x.run.Atomic P (fun _ _ _ => False) s

variable {Q : Except Refusal α → Store → Prop} {E : α → Store → Store → Prop} {s : Store}

theorem Atomic.throw {e : Refusal} (h : Q (.error e) s) : Atomic Q E (throw e) s := h

theorem Reads.pure {a : α} (h : Q (.ok a) s) : Reads Q (pure a) s := h

theorem Reads.throw {e : Refusal} (h : Q (.error e) s) : Reads Q (throw e) s := h

theorem Reads.ofExcept {outcome : Except Refusal α} (h : Q outcome s) :
    Reads Q (ofExcept outcome) s := by
  cases outcome <;> exact h

theorem Reads.query (question : Store → Except Refusal α) (s : Store) :
    Reads (fun a s' => s.Later s' ∧ s'.Sound ∧ a = question s') (query question) s := by
  intro s' hs hsound
  exact .inl ⟨rfl, hs, hsound, hsound.ask question⟩

theorem Reads.atomic {x : Service α} (h : Reads Q x s) : Atomic Q E x s :=
  h.imp (fun _ _ ha => ha) fun _ _ _ hfalse => hfalse.elim

theorem Atomic.bind {P : Except Refusal β → Store → Prop} {x : Service β} {f : β → Service α}
    (h : Reads P x s) (hok : ∀ b s', P (.ok b) s' → Atomic Q E (f b) s')
    (herror : ∀ e s', P (.error e) s' → Q (.error e) s') : Atomic Q E (x >>= f) s := by
  refine Task.Atomic.bind h fun b s' hb => ?_
  cases b with
  | ok b => exact hok b s' hb
  | error e => exact herror e s' hb

theorem Reads.bind {P : Except Refusal β → Store → Prop} {x : Service β} {f : β → Service α}
    (h : Reads P x s) (hok : ∀ b s', P (.ok b) s' → Reads Q (f b) s')
    (herror : ∀ e s', P (.error e) s' → Q (.error e) s') : Reads Q (x >>= f) s := by
  refine Task.Atomic.bind h fun b s' hb => ?_
  cases b with
  | ok b => exact hok b s' hb
  | error e => exact herror e s' hb

theorem Atomic.transact {change : Store → Except Refusal (β × Store)} {f : β → Service α}
    (hok : ∀ s' b s'', s.Later s' → s'.Sound → change s' = .ok (b, s'') →
      (s'' = s' ∧ Atomic Q E (f b) s') ∨ ∃ a, E a s' s'' ∧ (f b).run.Settled (.ok a))
    (herror : ∀ s' e, s.Later s' → s'.Sound → change s' = .error e → Q (.error e) s') :
    Atomic Q E (transact change >>= f) s := by
  intro s' hs hsound
  simp only [hsound.ask]
  cases hchange : change s' with
  | error e => exact .inl ⟨rfl, herror s' e hs hsound hchange⟩
  | ok b =>
      obtain ⟨b, s''⟩ := b
      rcases hok s' b s'' hs hsound hchange with ⟨rfl, hf⟩ | ⟨a, heffect, hsettled⟩
      · exact .inl ⟨rfl, hf⟩
      · exact .inr ⟨.ok a, ⟨a, rfl, heffect⟩, hsettled⟩

def Refused (a : Except Refusal α) (_ : Store) : Prop := ∃ e, a = .error e

theorem refused_error (e : Refusal) (s : Store) : Refused (.error e : Except Refusal α) s :=
  ⟨e, rfl⟩

theorem logged_eq_ok {b b' : β} {e : Event} {s s' : Store}
    (h : (do return (b, ← s.append e) : Except Refusal (β × Store)) = .ok (b', s')) :
    b = b' ∧ s.append e = .ok s' := by
  cases hlogged : s.append e with
  | error e => simp [hlogged, bind, Except.bind] at h
  | ok s₁ => simpa [hlogged, bind, Except.bind, pure, Except.pure] using h

theorem settled_publish {e : Event} {a : α} :
    (do publish e; return a : Service α).run.Settled (.ok a) :=
  .publish .done

theorem run_map (g : α → β) (x : Service α) :
    (do return g (← x) : Service β).run = x.run.bind fun a => .done (a.map g) := by
  change x.run.bind _ = _
  congr 1
  funext a
  cases a <;> rfl

theorem Atomic.map {Q' : Except Refusal β → Store → Prop} {E' : β → Store → Store → Prop}
    {g : α → β} {x : Service α} (hok : ∀ a s, Q (.ok a) s → Q' (.ok (g a)) s)
    (herror : ∀ e s, Q (.error e) s → Q' (.error e) s)
    (hE : ∀ a s s', E a s s' → E' (g a) s s') (h : Atomic Q E x s) :
    Atomic Q' E' (do return g (← x)) s := by
  rw [Atomic, run_map]
  refine Task.Atomic.map (fun a s ha => ?_) (fun a s s' ha => ?_) h
  · cases a with
    | ok a => exact hok a s ha
    | error e => exact herror e s ha
  · obtain ⟨b, rfl, hb⟩ := ha
    exact ⟨g b, rfl, hE b s s' hb⟩

end Service

end Gamemaster
