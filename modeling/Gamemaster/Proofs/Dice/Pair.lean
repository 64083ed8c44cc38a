import Gamemaster.Proofs.Dice.Pieces
import Gamemaster.Dice.Narrative

namespace Gamemaster.Dice

open Gamemaster.Random (Source)

/-- What is told of a roll. -/
structure Record where
  rolls : List Int
  total : Int
  narrative : String
  seed : String

def Roll.record (r : Roll) : Record := ⟨r.values, r.total, r.narrative, r.seed⟩

def Piece.isPair : Piece → Bool
  | .pair .. => true
  | _ => false

theorem Term.Rolled.isPair {t : Term} {p : Piece} (h : t.Rolled p) : p.isPair = false := by
  cases h <;> rfl

theorem Piece.told_of_not_pair {p : Piece} (h : p.isPair = false) (mode mode' : Advantage) :
    p.render mode = p.render mode' ∧ p.keptNote mode = p.keptNote mode' := by
  cases p with
  | dice sign count sides values => exact ⟨rfl, rfl⟩
  | pair sign first second kept => cases h
  | modifier value => exact ⟨rfl, rfl⟩

theorem Roll.record_of_no_pair {r : Roll} (h : ∀ p ∈ r.pieces, p.isPair = false)
    (mode : Advantage) :
    Roll.record { r with policy := ⟨mode, r.policy.exploding⟩ } = r.record := by
  have htold := fun p hp => Piece.told_of_not_pair (h p hp) mode r.policy.advantage
  have hnotes :
      r.pieces.map (Piece.keptNote mode) = r.pieces.map (Piece.keptNote r.policy.advantage) :=
    List.map_congr_left fun p hp => (htold p hp).2
  have htexts :
      r.pieces.map (Piece.render mode) = r.pieces.map (Piece.render r.policy.advantage) :=
    List.map_congr_left fun p hp => (htold p hp).1
  simp only [record, narrative, hnotes, htexts]
  rfl

namespace Formula

variable {f : Formula} {exploding : Bool} {s : Source} {r : Roll}

theorem isPair_of_roll (h : (f.roll ⟨.none, exploding⟩ s).1 = .ok r) :
    r.policy = ⟨.none, exploding⟩ ∧ ∀ p ∈ r.pieces, p.isPair = false := by
  obtain ⟨-, hpolicy, hpieces⟩ := rolled_of_roll rfl h
  refine ⟨hpolicy, fun p hp => ?_⟩
  obtain ⟨t, -, hrolled⟩ := exists_term_of_mem hpieces hp
  exact hrolled.isPair

/-- A formula that is not one d20 is rolled as if there were no advantage. -/
theorem roll_ungated (h : ∀ sign, f.terms ≠ [.dice sign 1 20]) (mode : Advantage)
    (exploding : Bool) (s : Source) :
    (f.roll ⟨mode, exploding⟩ s).1.map Roll.record =
    (f.roll ⟨.none, exploding⟩ s).1.map Roll.record ∧
      (f.roll ⟨mode, exploding⟩ s).2 = (f.roll ⟨.none, exploding⟩ s).2 := by
  have hgate : pairSign? mode f = none :=
    Option.eq_none_iff_forall_ne_some.mpr fun sign hsign =>
      h sign (pairSign?_eq_some_iff.mp hsign).2
  rw [roll_of_pairSign?_eq_none hgate]
  refine ⟨?_, rfl⟩
  cases hr : (f.roll ⟨.none, exploding⟩ s).1 with
  | error fault => rfl
  | ok r =>
      obtain ⟨hpolicy, hpieces⟩ := isPair_of_roll hr
      have hrecord := Roll.record_of_no_pair hpieces mode
      rw [hpolicy] at hrecord
      exact congrArg Except.ok hrecord

theorem roll_single {sign : Sign} {sides : Nat} (hterms : f.terms = [.dice sign 1 sides])
    (hsides : 0 < sides) (hmax : sides ≤ maxSides) (exploding : Bool) (s : Source) :
    let die : Die := ⟨sign, sides⟩
    ∃ r, f.roll ⟨.none, exploding⟩ s = (.ok r, s.skip (die.draws exploding s)) ∧
      r.values = [die.value exploding s] := by
  intro die
  have hbounds : ∀ n ∈ [die.value exploding s], n.natAbs ≤ (maxExplosions + 1) * maxSides := by
    intro n hn
    rw [List.mem_singleton.mp hn, Die.natAbs_value]
    exact (die.pips_le s).trans (Nat.mul_le_mul_left _ hmax)
  have hfits : Word.FitsAlong 0 [die.value exploding s] :=
    Word.fitsAlong_of_natAbs_le hbounds (by rw [List.length_singleton]; decide)
  have htallies :
      Tallies [die.value exploding s] (die.draws exploding s) 0 s (List.flatMap Piece.values)
      (rollTerms exploding f.terms 0 s) := by
    have hall : ∀ t ∈ f.terms, t.HasSides := by
      rw [hterms]
      exact List.forall_mem_singleton.mpr hsides
    have hfirst : f.terms.Pairwise fun t u => u.isDice = true → t.isDice = true := by
      rw [hterms]
      exact List.pairwise_singleton _ _
    have hdice : f.terms.flatMap Term.singles = [die] := by
      rw [hterms]
      rfl
    have hmodifiers : f.terms.filterMap Term.modifier? = [] := by
      rw [hterms]
      rfl
    have hrolled : Tallies _ _ 0 s _ (rollTerms exploding f.terms 0 s) :=
      rollTerms_tallies hall hfirst 0 s
    rwa [hdice, hmodifiers] at hrolled
  obtain ⟨r, hr, hvalues, -⟩ :=
    roll_ok_of_tallies htallies (Word.addAll?_zero_eq_some_iff.mpr ⟨hfits, rfl⟩)
  exact ⟨r, hr, hvalues⟩

/-- The mode matters to a lone d20 and to nothing else. Advantage and disadvantage roll the d20
twice, in the same way, and differ in which of the two they keep. -/
theorem advantage_gated_dual (f : Formula) (exploding : Bool) (s : Source) :
    ((∀ sign, f.terms ≠ [.dice sign 1 20]) → ∀ mode mode' : Advantage,
      (f.roll ⟨mode, exploding⟩ s).1.map Roll.record =
      (f.roll ⟨mode', exploding⟩ s).1.map Roll.record ∧
      (f.roll ⟨mode, exploding⟩ s).2 = (f.roll ⟨mode', exploding⟩ s).2) ∧
    ∀ sign, f.terms = [.dice sign 1 20] →
      let die : Die := ⟨sign, 20⟩
      let first := die.pips exploding s
      let second := die.pips exploding (s.skip (die.draws exploding s))
      ∃ high low plain s',
        f.roll ⟨.advantage, exploding⟩ s = (.ok high, s') ∧
        f.roll ⟨.disadvantage, exploding⟩ s = (.ok low, s') ∧
        (f.roll ⟨.none, exploding⟩ s).1 = .ok plain ∧
        high.values = [sign.toInt * first, sign.toInt * second] ∧ low.values = high.values ∧
        high.total = sign.toInt * (max first second : Nat) ∧
        low.total = sign.toInt * (min first second : Nat) ∧
        high.total + low.total = high.values.sum ∧ plain.values = [sign.toInt * first] := by
  constructor
  · intro hgate mode mode'
    obtain ⟨hrecord, hsource⟩ := roll_ungated hgate mode exploding s
    obtain ⟨hrecord', hsource'⟩ := roll_ungated hgate mode' exploding s
    exact ⟨hrecord.trans hrecord'.symm, hsource.trans hsource'.symm⟩
  · intro sign hterms die first second
    have hgate : ∀ mode : Advantage, mode ≠ .none → pairSign? mode f = some sign :=
      fun mode hmode => pairSign?_eq_some_iff.mpr ⟨hmode, hterms⟩
    obtain ⟨high, hhigh, hvalues, hmax⟩ :=
      roll_of_pairSign?_eq_some (hgate .advantage nofun) exploding s
    obtain ⟨low, hlow, hlowValues, hmin⟩ :=
      roll_of_pairSign?_eq_some (hgate .disadvantage nofun) exploding s
    obtain ⟨plain, hplain, hplainValues⟩ := roll_single hterms (by decide) (by decide) exploding s
    change high.values = [sign.toInt * first, sign.toInt * second] at hvalues
    change high.total = sign.toInt * (max first second : Nat) at hmax
    change low.total = sign.toInt * (min first second : Nat) at hmin
    have hsum : high.total + low.total = high.values.sum := by
      have hboth : max first second + min first second = first + second :=
        max_add_min first second
      rw [hmax, hmin, ← Int.mul_add, ← Int.natCast_add, hboth, hvalues]
      simp [Int.mul_add]
    exact ⟨high, low, plain, _, hhigh, hlow, congrArg Prod.fst hplain, hvalues,
      hlowValues.trans hvalues.symm, hmax, hmin, hsum, hplainValues⟩

end Formula

end Gamemaster.Dice
