import Gamemaster.Proofs.Dice.Range
/-!
What the values of a roll tell of its draws. A value bears the sign of its die, and the number of
its draws is its absolute value divided by the sides and rounded up, so that the values account
for the whole way of the source.
-/
namespace Gamemaster.Dice

open Gamemaster.Random (Source)

/-- A chain of faces is made of top faces and a last face, which is the top face only where the
chain may go no further. -/
theorem exists_last_of_chain {sides : Nat} (hsides : 0 < sides) (limit : Nat) (s : Source) :
    ∃ last, (nextFaces sides (topFaces sides limit s + 1) s).sum =
      topFaces sides limit s * sides + last ∧
      (1 ≤ last ∧ last ≤ sides) ∧ (last = sides → topFaces sides limit s = limit) := by
  have hface : ∀ s : Source, 1 ≤ (s.roll sides).1 ∧ (s.roll sides).1 ≤ sides :=
    fun s => ⟨Source.one_le_face hsides _, Source.face_le _ _⟩
  have hfirst : ∀ s : Source, (nextFaces sides (0 + 1) s).sum = 0 * sides + (s.roll sides).1 :=
    fun s => by simp [nextFaces, Source.skip]
  induction limit generalizing s with
  | zero => exact ⟨_, hfirst s, hface s, fun _ => rfl⟩
  | succ limit ih =>
      rw [topFaces_succ]
      split
      · rename_i htop
        obtain ⟨last, hsum, hlast, hended⟩ := ih (s.roll sides).2
        refine ⟨last, ?_, hlast, fun h => by rw [hended h]⟩
        rw [nextFaces_succ, List.sum_cons, hsum, htop, Nat.succ_mul]
        omega
      · rename_i htop
        exact ⟨_, hfirst s, hface s, fun h => absurd h htop⟩

namespace Die

/-- What the value of a die tells: its sign, at least one draw, at most 101 of them, and that it
is a multiple of the sides only if the chain has reached its end. -/
structure Shows (exploding : Bool) (d : Die) (v : Int) : Prop where
  sign : v.sign = d.sign.toInt
  one_le : 1 ≤ v.natAbs
  le : v.natAbs ≤ (if exploding then 101 else 1) * d.sides
  ended : exploding = true → 1 < d.sides → d.sides ∣ v.natAbs → v.natAbs = 101 * d.sides

/-- The number of draws behind a value. -/
def drawsBehind (d : Die) (v : Int) : Nat := v.natAbs ⌈/⌉ d.sides

variable {exploding : Bool} {d : Die} {ds : List Die}

theorem exists_last (exploding : Bool) (hsides : 0 < d.sides) (s : Source) :
    ∃ tops last, d.draws exploding s = tops + 1 ∧ d.pips exploding s = tops * d.sides + last ∧
      (1 ≤ last ∧ last ≤ d.sides) ∧ tops ≤ (if exploding then 100 else 0) ∧
      (exploding = true → 1 < d.sides → last = d.sides → tops = 100) := by
  by_cases hsingle : exploding = false ∨ d.sides = 1
  · have hdraws : d.draws exploding s = topFaces d.sides 0 s + 1 := draws_of_single hsingle s
    obtain ⟨last, hsum, hlast, -⟩ := exists_last_of_chain hsides 0 s
    refine ⟨_, last, hdraws, by rw [pips, hdraws, hsum], hlast, Nat.zero_le _, ?_⟩
    intro hexploding hmany
    rcases hsingle with hplain | hone
    · exact absurd (hplain.symm.trans hexploding) Bool.false_ne_true
    · omega
  · obtain ⟨hexploding, hone⟩ := not_or.mp hsingle
    obtain rfl : exploding = true := by simpa using hexploding
    have hdraws := draws_of_chain (d := d) (by omega) s
    obtain ⟨last, hsum, hlast, hended⟩ := exists_last_of_chain hsides maxExplosions s
    exact ⟨_, last, hdraws, by rw [pips, hdraws, hsum], hlast,
      topFaces_le d.sides maxExplosions s, fun _ _ => hended⟩

theorem value_shows (hsides : 0 < d.sides) (s : Source) :
    d.Shows exploding (d.value exploding s) := by
  obtain ⟨tops, last, -, hpips, hlast, htops, hended⟩ := exists_last exploding hsides s
  constructor
  · exact sign_value (by omega)
  · rw [natAbs_value]
    omega
  · rw [natAbs_value, hpips]
    cases exploding with
    | true =>
        have hle : tops * d.sides ≤ 100 * d.sides := Nat.mul_le_mul_right _ htops
        change _ ≤ 101 * d.sides
        omega
    | false =>
        obtain rfl : tops = 0 := Nat.le_zero.mp htops
        change _ ≤ 1 * d.sides
        omega
  · intro hexploding hmany hdvd
    rw [natAbs_value, hpips] at hdvd ⊢
    have hdvdLast : d.sides ∣ last := (Nat.dvd_add_right (Nat.dvd_mul_left _ _)).mp hdvd
    have hlastTop : last = d.sides := Nat.le_antisymm hlast.2 (Nat.le_of_dvd hlast.1 hdvdLast)
    rw [hended hexploding hmany hlastTop, hlastTop]
    omega

theorem draws_eq (hsides : 0 < d.sides) (s : Source) :
    d.draws exploding s = d.drawsBehind (d.value exploding s) := by
  obtain ⟨tops, last, hdraws, hpips, hlast, -, -⟩ := exists_last exploding hsides s
  rw [drawsBehind, natAbs_value, hdraws, hpips, Nat.ceilDiv_eq_add_pred_div]
  refine (Nat.div_eq_of_lt_le ?_ ?_).symm
  · rw [Nat.succ_mul]
    omega
  · rw [Nat.succ_mul, Nat.succ_mul]
    omega

theorem valuesAll_show (hsides : ∀ d ∈ ds, 0 < d.sides) (s : Source) :
    List.Forall₂ (Shows exploding) ds (valuesAll exploding ds s) := by
  induction ds generalizing s with
  | nil => exact .nil
  | cons d ds ih =>
      rw [List.forall_mem_cons] at hsides
      exact .cons (value_shows hsides.1 s) (ih hsides.2 _)

theorem drawsAll_eq (hsides : ∀ d ∈ ds, 0 < d.sides) (s : Source) :
    drawsAll exploding ds s = (List.zipWith drawsBehind ds (valuesAll exploding ds s)).sum := by
  induction ds generalizing s with
  | nil => rfl
  | cons d ds ih =>
      rw [List.forall_mem_cons] at hsides
      rw [drawsAll, valuesAll, List.zipWith_cons_cons, List.sum_cons, ← draws_eq hsides.1,
        ih hsides.2]

end Die

namespace Formula

variable {text : String} {f : Formula} {policy : Policy} {s s' : Source} {r : Roll}

/-- The dice of a roll, one by one: those of the formula, twice over where advantage matters. -/
def rolledDice (f : Formula) (mode : Advantage) : List Die :=
  if mode ≠ .none ∧ f.isSingleD20 = true then f.dice ++ f.dice else f.dice

theorem isSingleD20_iff : f.isSingleD20 = true ↔ ∃ sign, f.terms = [.dice sign 1 20] := by
  unfold isSingleD20
  split
  · rename_i sign hterms
    simp [hterms]
  · rename_i hterms
    simpa using hterms

theorem rolledDice_of_pairSign?_eq_some {mode : Advantage} {sign : Sign}
    (h : pairSign? mode f = some sign) :
    f.rolledDice mode = [⟨sign, 20⟩, ⟨sign, 20⟩] := by
  obtain ⟨hmode, hterms⟩ := pairSign?_eq_some_iff.mp h
  rw [rolledDice, if_pos ⟨hmode, isSingleD20_iff.mpr ⟨sign, hterms⟩⟩, dice, hterms]
  rfl

theorem rolledDice_of_pairSign?_eq_none {mode : Advantage} (h : pairSign? mode f = none) :
    f.rolledDice mode = f.dice := by
  refine if_neg ?_
  rintro ⟨hmode, hsingle⟩
  obtain ⟨sign, hterms⟩ := isSingleD20_iff.mp hsingle
  rw [pairSign?_eq_some_iff.mpr ⟨hmode, hterms⟩] at h
  cases h

theorem mem_dice_of_mem_rolledDice {mode : Advantage} {d : Die} (h : d ∈ f.rolledDice mode) :
    d ∈ f.dice := by
  unfold rolledDice at h
  split at h
  · simpa using h
  · exact h

theorem values_of_roll_ok (h : parse text = .ok f) (hr : f.roll policy s = (.ok r, s')) :
    r.values = Die.valuesAll policy.exploding (f.rolledDice policy.advantage) s ++ f.modifiers ∧
      s' = s.skip (Die.drawsAll policy.exploding (f.rolledDice policy.advantage) s) := by
  cases hpair : pairSign? policy.advantage f with
  | some sign =>
      obtain ⟨r', hr', hvalues, -⟩ := roll_of_pairSign?_eq_some hpair policy.exploding s
      obtain ⟨hok, rfl⟩ := Prod.mk.inj (hr.symm.trans hr')
      obtain rfl := Except.ok.inj hok
      rw [rolledDice_of_pairSign?_eq_some hpair, modifiers_of_pairSign? hpair, List.append_nil]
      exact ⟨hvalues, rfl⟩
  | none =>
      rw [roll_of_pairSign?_eq_none hpair] at hr
      rw [rolledDice_of_pairSign?_eq_none hpair]
      rcases hplain : f.roll ⟨.none, policy.exploding⟩ s with ⟨fault | plain, t⟩
      · simp [hplain, Except.map] at hr
      · rw [hplain] at hr
        obtain ⟨hok, rfl⟩ := Prod.mk.inj hr
        obtain rfl := Except.ok.inj hok
        obtain ⟨-, hvalues, hskip⟩ := eq_of_roll_ok h hplain
        exact ⟨hvalues, hskip⟩

theorem length_rolledDice_add {mode : Advantage} :
    (f.rolledDice mode).length + f.modifiers.length =
      if mode ≠ .none ∧ f.isSingleD20 = true then 2 else f.dice.length + f.modifiers.length := by
  unfold rolledDice
  split
  · rename_i hpair
    obtain ⟨sign, hterms⟩ := isSingleD20_iff.mp hpair.2
    rw [dice, modifiers, hterms]
    rfl
  · rfl

/-- A roll has a value for each die and each modifier, and from the values of the dice it can be
told how far the source has moved. -/
theorem roll_accounts_for_draws (h : parse text = .ok f) (hr : f.roll policy s = (.ok r, s')) :
    r.values.length = (if policy.advantage ≠ .none ∧ f.isSingleD20 = true then 2
      else f.dice.length + f.modifiers.length) ∧
    ∃ values, r.values = values ++ f.modifiers ∧
      List.Forall₂ (Die.Shows policy.exploding) (f.rolledDice policy.advantage) values ∧
      s' = s.skip (List.zipWith Die.drawsBehind (f.rolledDice policy.advantage) values).sum := by
  obtain ⟨hvalues, rfl⟩ := values_of_roll_ok h hr
  have hsides : ∀ d ∈ f.rolledDice policy.advantage, 0 < d.sides :=
    fun d hd => sides_pos_of_parse h d (mem_dice_of_mem_rolledDice hd)
  refine ⟨?_, _, hvalues, Die.valuesAll_show hsides s, by rw [Die.drawsAll_eq hsides]⟩
  rw [hvalues, List.length_append, Die.length_valuesAll, length_rolledDice_add]

/-- The d4 alone does not explode: five draws stand behind three dice. -/
theorem roll_accounts_for_draws_dragon :
    let f : Formula := ⟨"2D2 + 3 - 1d4", [.dice .plus 2 2, .dice .minus 1 4, .modifier 3]⟩
    let s := Source.ofSeed "dragon"
    parse " 2D2 + 3 - 1d4 " = .ok f ∧ ∃ r s', f.roll ⟨.none, true⟩ s = (.ok r, s') ∧
      r.values = [3, 3, -1, 3] ∧ List.Forall₂ (Die.Shows true) f.dice [3, 3, -1] ∧
      s' = s.skip 5 := by
  intro f s
  have hparse : parse " 2D2 + 3 - 1d4 " = .ok f := by cbv
  have hdice : Die.valuesAll true f.dice s = [3, 3, -1] := by decide +kernel
  have htotal : Word.addAll? 0 (Die.valuesAll true f.dice s ++ f.modifiers) = some 8 := by
    rw [hdice]
    decide
  obtain ⟨r, hr, hvalues, -⟩ := roll_ok_of_tallies (tallies_of_parse hparse true s) htotal
  have hrolls : r.values = [3, 3, -1] ++ f.modifiers := by rw [hvalues, hdice]
  obtain ⟨-, values, hsplit, hshows, hskip⟩ := roll_accounts_for_draws hparse hr
  obtain rfl := List.append_cancel_right (hsplit.symm.trans hrolls)
  exact ⟨hparse, r, _, hr, hrolls, hshows, hskip⟩

end Formula

end Gamemaster.Dice
