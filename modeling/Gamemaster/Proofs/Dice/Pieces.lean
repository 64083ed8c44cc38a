import Gamemaster.Proofs.Dice.Range

namespace Gamemaster.Dice

open Gamemaster.Random (Source)

/-- The piece of a term has a value for each of its dice, or is the modifier itself. -/
inductive Term.Rolled : Term → Piece → Prop
  | dice {sign : Sign} {count sides : Nat} {values : List Int} (each : values.length = count) :
      Rolled (.dice sign count sides) (.dice sign count sides values)
  | modifier (value : Int) : Rolled (.modifier value) (.modifier value)

section Pieces

variable {exploding : Bool} {total last : Int} {s s' : Source}

theorem length_of_rollDice {sign : Sign} {count sides : Nat} {values : List Int}
    (h : rollDice exploding sign sides count total s = (some (values, last), s')) :
    values.length = count := by
  induction count generalizing total s values with
  | zero =>
      simp only [rollDice, Prod.mk.injEq, Option.some.injEq] at h
      obtain ⟨⟨rfl, -⟩, -⟩ := h
      rfl
  | succ count ih =>
      simp only [rollDice] at h
      split at h
      · simp at h
      · split at h
        · rename_i hrest
          simp only [Prod.mk.injEq, Option.some.injEq] at h
          obtain ⟨⟨rfl, rfl⟩, rfl⟩ := h
          rw [List.length_cons, ih hrest]
        · simp at h

theorem rolled_of_rollTerm {t : Term} {piece : Piece}
    (h : rollTerm exploding t total s = (some (piece, last), s')) : t.Rolled piece := by
  cases t with
  | dice sign count sides =>
      simp only [rollTerm] at h
      split at h
      · rename_i hdice
        simp only [Prod.mk.injEq, Option.some.injEq] at h
        obtain ⟨⟨rfl, rfl⟩, rfl⟩ := h
        exact .dice (length_of_rollDice hdice)
      · simp at h
  | modifier value =>
      simp only [rollTerm, Prod.mk.injEq, Option.map_eq_some_iff] at h
      obtain ⟨⟨_, -, rfl, -⟩, -⟩ := h
      exact .modifier value

theorem rolled_of_rollTerms {terms : List Term} {pieces : List Piece}
    (h : rollTerms exploding terms total s = (some (pieces, last), s')) :
    List.Forall₂ Term.Rolled terms pieces := by
  induction terms generalizing total s pieces with
  | nil =>
      simp only [rollTerms, Prod.mk.injEq, Option.some.injEq] at h
      obtain ⟨⟨rfl, -⟩, -⟩ := h
      exact .nil
  | cons t terms ih =>
      rw [rollTerms_cons] at h
      rcases hfirst : rollTerm exploding t total s with ⟨_ | ⟨piece, next⟩, s₁⟩
      · simp [hfirst, rollOn] at h
      · rcases hrest : rollTerms exploding terms next s₁ with ⟨_ | ⟨rest, final⟩, s₂⟩
        · simp [hfirst, hrest, rollOn] at h
        · simp only [hfirst, hrest, rollOn, Prod.mk.injEq, Option.some.injEq] at h
          obtain ⟨⟨rfl, rfl⟩, rfl⟩ := h
          exact .cons (rolled_of_rollTerm hfirst) (ih hrest)

end Pieces

namespace Formula

variable {f : Formula} {policy : Policy} {s : Source} {r : Roll}

theorem rolled_of_roll (hpair : pairSign? policy.advantage f = none)
    (hr : (f.roll policy s).1 = .ok r) :
    r.formula = f ∧ r.policy = policy ∧ List.Forall₂ Term.Rolled f.terms r.pieces := by
  simp only [roll, hpair] at hr
  rcases hterms : rollTerms policy.exploding f.terms 0 s with ⟨_ | ⟨pieces, total⟩, s'⟩
  · simp [hterms] at hr
  · rw [hterms] at hr
    obtain rfl := Except.ok.inj hr
    exact ⟨rfl, rfl, rolled_of_rollTerms hterms⟩

/-- Where advantage matters, the two rolls of the d20 make one piece, and the one that is kept is
the total. -/
theorem pair_of_roll {sign : Sign} (hpair : pairSign? policy.advantage f = some sign)
    (hr : (f.roll policy s).1 = .ok r) :
    r.formula = f ∧ r.policy = policy ∧ ∃ first second,
      r.pieces = [.pair sign first second (policy.advantage.pick first second)] ∧
      r.total = sign.toInt * policy.advantage.pick first second := by
  simp only [roll, hpair] at hr
  obtain rfl := Except.ok.inj hr
  exact ⟨rfl, rfl, _, _, rfl, rfl⟩

end Formula

end Gamemaster.Dice
