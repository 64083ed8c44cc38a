import Gamemaster.Dice.Roll
import Gamemaster.Proofs.Dice.Grammar
import Mathlib

namespace Gamemaster

namespace Word

/-- Adds integers one after the other, as long as every total on the way fits. -/
def addAll? (total : Int) (ns : List Int) : Option Int := ns.foldlM add? total

theorem addAll?_cons (total n : Int) (ns : List Int) :
    addAll? total (n :: ns) = (add? total n).bind fun total => addAll? total ns := rfl

theorem addAll?_append (total : Int) (ms ns : List Int) :
    addAll? total (ms ++ ns) = (addAll? total ms).bind fun total => addAll? total ns :=
  List.foldlM_append

theorem addAll?_eq_some_iff {total m : Int} {ns : List Int} (h : Fits total) :
    addAll? total ns = some m ↔ (∀ i, Fits (total + (ns.take i).sum)) ∧ m = total + ns.sum := by
  induction ns generalizing total with
  | nil => simp [addAll?, h, eq_comm]
  | cons n ns ih =>
      have hshift : ∀ i, total + ((n :: ns).take (i + 1)).sum = total + n + (ns.take i).sum := by
        intro i
        rw [List.take_succ_cons, List.sum_cons, Int.add_assoc]
      rw [addAll?_cons, Option.bind_eq_some_iff, List.sum_cons, ← Int.add_assoc]
      constructor
      · rintro ⟨next, hnext, hm⟩
        obtain ⟨hfits, rfl⟩ := add?_eq_some_iff.mp hnext
        obtain ⟨hall, rfl⟩ := (ih hfits).mp hm
        refine ⟨fun i => ?_, rfl⟩
        cases i with
        | zero => simpa using h
        | succ i => exact hshift i ▸ hall i
      · rintro ⟨hall, rfl⟩
        have hfits : Fits (total + n) := by simpa using hall 1
        refine ⟨total + n, add?_eq_some_iff.mpr ⟨hfits, rfl⟩, (ih hfits).mpr ⟨fun i => ?_, rfl⟩⟩
        exact hshift i ▸ hall (i + 1)

end Word

namespace Dice

open Gamemaster.Random (Source)

structure Die where
  sign : Sign
  sides : Nat

def Term.singles : Term → List Die
  | dice sign count sides => List.replicate count ⟨sign, sides⟩
  | modifier _ => []

def Term.modifier? : Term → Option Int
  | dice .. => none
  | modifier value => some value

def Term.HasSides : Term → Prop
  | dice _ _ sides => 0 < sides
  | modifier _ => True

def Formula.dice (f : Formula) : List Die := f.terms.flatMap Term.singles

def Formula.modifiers (f : Formula) : List Int := f.terms.filterMap Term.modifier?

def nextFaces (sides n : Nat) (s : Source) : List Nat :=
  (List.range n).map fun i => ((s.skip i).roll sides).1

/-- The number of top faces that come first among the next faces. -/
def topFaces (sides limit : Nat) (s : Source) : Nat :=
  ((nextFaces sides limit s).takeWhile fun face => face = sides).length

namespace Die

variable (exploding : Bool)

/-- The number of draws that a die takes. An exploding one goes on as long as the last face is the
top face, up to a hundred times. -/
def draws (d : Die) (s : Source) : Nat :=
  if exploding = false ∨ d.sides = 1 then 1
  else ((nextFaces d.sides 100 s).takeWhile fun face => face = d.sides).length + 1

def value (d : Die) (s : Source) : Int :=
  d.sign.toInt * ((nextFaces d.sides (d.draws exploding s) s).sum : Nat)

def pips (d : Die) (s : Source) : Nat := (nextFaces d.sides (d.draws exploding s) s).sum

def drawsAll : List Die → Source → Nat
  | [], _ => 0
  | d :: ds, s => d.draws exploding s + drawsAll ds (s.skip (d.draws exploding s))

def valuesAll : List Die → Source → List Int
  | [], _ => []
  | d :: ds, s => d.value exploding s :: valuesAll ds (s.skip (d.draws exploding s))

variable {exploding}

theorem value_eq (d : Die) (s : Source) :
    d.value exploding s = d.sign.toInt * d.pips exploding s := rfl

theorem natAbs_value (d : Die) (s : Source) :
    (d.value exploding s).natAbs = d.pips exploding s := by
  rw [value_eq]
  cases d.sign <;> simp [Sign.toInt]

theorem sign_value {d : Die} {s : Source} (h : 0 < d.pips exploding s) :
    (d.value exploding s).sign = d.sign.toInt := by
  rw [value_eq, Int.sign_mul, Int.sign_natCast_of_ne_zero (by omega), Int.mul_one]
  cases d.sign <;> rfl

theorem length_valuesAll (ds : List Die) (s : Source) :
    (valuesAll exploding ds s).length = ds.length := by
  induction ds generalizing s with
  | nil => rfl
  | cons d ds ih => simp [valuesAll, ih]

theorem drawsAll_append (ds es : List Die) (s : Source) :
    drawsAll exploding (ds ++ es) s =
      drawsAll exploding ds s + drawsAll exploding es (s.skip (drawsAll exploding ds s)) := by
  induction ds generalizing s with
  | nil => simp [drawsAll, Source.skip]
  | cons d ds ih => simp [drawsAll, ih, Source.skip_add, Nat.add_assoc]

theorem valuesAll_append (ds es : List Die) (s : Source) :
    valuesAll exploding (ds ++ es) s =
      valuesAll exploding ds s ++ valuesAll exploding es (s.skip (drawsAll exploding ds s)) := by
  induction ds generalizing s with
  | nil => simp [valuesAll, drawsAll, Source.skip]
  | cons d ds ih => simp [valuesAll, drawsAll, ih, Source.skip_add]

end Die

theorem nextFaces_succ (sides n : Nat) (s : Source) :
    nextFaces sides (n + 1) s = (s.roll sides).1 :: nextFaces sides n (s.roll sides).2 := by
  simp [nextFaces, List.range_succ_eq_map, Source.skip, Function.comp_def]

theorem topFaces_succ (sides limit : Nat) (s : Source) :
    topFaces sides (limit + 1) s =
      if (s.roll sides).1 = sides then topFaces sides limit (s.roll sides).2 + 1 else 0 := by
  simp only [topFaces, nextFaces_succ, List.takeWhile_cons, decide_eq_true_eq]
  split <;> rfl

theorem topFaces_le (sides limit : Nat) (s : Source) : topFaces sides limit s ≤ limit := by
  have hprefix :=
    List.takeWhile_prefix (fun face => decide (face = sides)) (l := nextFaces sides limit s)
  simpa [topFaces, nextFaces] using hprefix.length_le

/-- A die is rolled once for each top face at the front of its stream, and once more. -/
theorem rollFaces_eq (sides extra : Nat) (s : Source) :
    rollFaces sides extra s =
      (nextFaces sides (topFaces sides extra s + 1) s, s.skip (topFaces sides extra s + 1)) := by
  induction extra generalizing s with
  | zero => rfl
  | succ extra ih =>
      rw [topFaces_succ, rollFaces]
      by_cases htop : (s.roll sides).1 = sides
      · simp only [htop, if_true, ih]
        rw [nextFaces_succ sides (_ + 1) s, htop]
        rfl
      · simp only [htop, if_false]
        rfl

namespace Die

variable {exploding : Bool} {d : Die}

theorem draws_of_single (h : exploding = false ∨ d.sides = 1) (s : Source) :
    d.draws exploding s = 1 :=
  if_pos h

theorem draws_of_chain (hsides : 1 < d.sides) (s : Source) :
    d.draws true s = topFaces d.sides maxExplosions s + 1 :=
  if_neg (by simp; omega)

end Die

theorem rollDie_eq (exploding : Bool) (sign : Sign) {sides : Nat} (hsides : 0 < sides)
    (s : Source) :
    rollDie exploding sides s =
      ((nextFaces sides ((Die.mk sign sides).draws exploding s) s).sum,
        s.skip ((Die.mk sign sides).draws exploding s)) := by
  have hdraws : topFaces sides (extraRolls exploding sides) s + 1 =
      (Die.mk sign sides).draws exploding s := by
    unfold extraRolls
    split
    · rename_i hexplodes
      rw [hexplodes.1, Die.draws_of_chain hexplodes.2]
    · rw [Die.draws_of_single (by grind)]
      rfl
  rw [rollDie, rollFaces_eq, hdraws]
  rfl

/-- Rolls on after a first part, unless its total is out of range. -/
def rollOn (x : Option (α × Int) × Source) (rest : Int → Source → Option (β × Int) × Source)
    (join : α → β → γ) : Option (γ × Int) × Source :=
  match x with
  | (none, s) => (none, s)
  | (some (a, total), s) =>
    match rest total s with
    | (some (b, total), s) => (some (join a b, total), s)
    | (none, s) => (none, s)

/-- The outcome of rolling values on top of a total: all of them, with the source past their
draws, or nothing if a total on the way is out of range. -/
structure Tallies (values : List Int) (draws : Nat) (total : Int) (s : Source)
    (valuesOf : α → List Int) (x : Option (α × Int) × Source) : Prop where
  ok : ∀ {t}, Word.addAll? total values = some t →
    ∃ a, x = (some (a, t), s.skip draws) ∧ valuesOf a = values
  outOfRange : Word.addAll? total values = none → x.1 = none

namespace Tallies

variable {values values' : List Int} {draws draws' : Nat} {total : Int} {s : Source}
  {valuesOf : α → List Int} {x : Option (α × Int) × Source}

theorem nil {a : α} (ha : valuesOf a = []) :
    Tallies [] 0 total s valuesOf (some (a, total), s) where
  ok := by
    intro t ht
    obtain rfl := Option.some.inj ht
    exact ⟨a, rfl, ha⟩
  outOfRange := by simp [Word.addAll?]

theorem single {a : α} {value : Int} (ha : valuesOf a = [value]) :
    Tallies [value] draws total s valuesOf
      ((Word.add? total value).map fun total => (a, total), s.skip draws) := by
  have hvalue : Word.addAll? total [value] = Word.add? total value := by
    simp [Word.addAll?]
  constructor
  · intro t ht
    rw [hvalue] at ht
    exact ⟨a, by rw [ht]; rfl, ha⟩
  · intro ht
    rw [hvalue] at ht
    rw [ht]
    rfl

theorem append {valuesOf' : β → List Int} {valuesOf'' : γ → List Int} {join : α → β → γ}
    {rest : Int → Source → Option (β × Int) × Source}
    (h : Tallies values draws total s valuesOf x)
    (hrest : ∀ t, Tallies values' draws' t (s.skip draws) valuesOf' (rest t (s.skip draws)))
    (hjoin : ∀ a b, valuesOf'' (join a b) = valuesOf a ++ valuesOf' b) :
    Tallies (values ++ values') (draws + draws') total s valuesOf'' (rollOn x rest join) := by
  constructor
  · intro t ht
    rw [Word.addAll?_append] at ht
    obtain ⟨next, hnext, ht⟩ := Option.bind_eq_some_iff.mp ht
    obtain ⟨a, rfl, ha⟩ := h.ok hnext
    obtain ⟨b, hb, hvalues⟩ := (hrest next).ok ht
    refine ⟨join a b, ?_, by rw [hjoin, ha, hvalues]⟩
    simp only [rollOn, hb, Source.skip_add]
  · intro ht
    rw [Word.addAll?_append] at ht
    cases hnext : Word.addAll? total values with
    | none =>
        have hx := h.outOfRange hnext
        obtain ⟨_ | ⟨a, t⟩, s'⟩ := x
        · rfl
        · simp at hx
    | some next =>
        rw [hnext] at ht
        obtain ⟨a, rfl, -⟩ := h.ok hnext
        have hnone := (hrest next).outOfRange ht
        simp only [rollOn]
        split
        · rename_i heq
          simp [heq] at hnone
        · rfl

end Tallies

section Rolling

variable (exploding : Bool)

theorem rollDice_succ (sign : Sign) {sides : Nat} (hsides : 0 < sides) (count : Nat) (total : Int)
    (s : Source) :
    let die : Die := ⟨sign, sides⟩
    rollDice exploding sign sides (count + 1) total s =
      rollOn ((Word.add? total (die.value exploding s)).map
        fun total => (die.value exploding s, total),
        s.skip (die.draws exploding s)) (rollDice exploding sign sides count) List.cons := by
  intro die
  have hvalue : die.value exploding s =
      sign.toInt * ((nextFaces sides (die.draws exploding s) s).sum : Nat) := rfl
  simp only [rollDice, rollDie_eq exploding sign hsides s, rollOn]
  rw [← hvalue]
  cases Word.add? total (die.value exploding s) with
  | none => rfl
  | some next =>
      simp only [Option.map_some]
      rcases rollDice exploding sign sides count next _ with ⟨_ | ⟨values, t⟩, s'⟩ <;> rfl

theorem rollDice_tallies (sign : Sign) {sides : Nat} (hsides : 0 < sides) (count : Nat)
    (total : Int) (s : Source) :
    Tallies (Die.valuesAll exploding (List.replicate count ⟨sign, sides⟩) s)
      (Die.drawsAll exploding (List.replicate count ⟨sign, sides⟩) s) total s id
      (rollDice exploding sign sides count total s) := by
  induction count generalizing total s with
  | zero => exact .nil rfl
  | succ count ih =>
      let die : Die := ⟨sign, sides⟩
      have hfirst : Tallies [die.value exploding s] (die.draws exploding s) total s (fun n => [n])
          ((Word.add? total (die.value exploding s)).map
            fun total => (die.value exploding s, total),
            s.skip (die.draws exploding s)) := .single rfl
      rw [rollDice_succ exploding sign hsides]
      exact hfirst.append (fun t => ih t _) fun _ _ => rfl

variable {exploding}

theorem rollTerm_tallies {t : Term} (ht : t.HasSides) (total : Int) (s : Source) :
    Tallies (Die.valuesAll exploding t.singles s ++ t.modifier?.toList)
      (Die.drawsAll exploding t.singles s)
      total s Piece.values (rollTerm exploding t total s) := by
  cases t with
  | modifier value => exact .single rfl
  | dice sign count sides =>
      obtain ⟨hok, hout⟩ := rollDice_tallies exploding sign ht count total s
      simp only [Term.singles, Term.modifier?, Option.toList_none, List.append_nil, rollTerm]
      constructor
      · intro t ht
        obtain ⟨values, hrolled, hvalues⟩ := hok ht
        exact ⟨.dice sign count sides values, by rw [hrolled], hvalues⟩
      · intro ht
        have hnone := hout ht
        split
        · rename_i hrolled
          simp [hrolled] at hnone
        · rfl

theorem rollTerms_cons (t : Term) (terms : List Term) (total : Int) (s : Source) :
    rollTerms exploding (t :: terms) total s =
      rollOn (rollTerm exploding t total s) (rollTerms exploding terms) List.cons := by
  simp only [rollTerms, rollOn]
  rcases rollTerm exploding t total s with ⟨_ | ⟨piece, next⟩, s'⟩
  · rfl
  · dsimp only
    rcases rollTerms exploding terms next s' with ⟨_ | ⟨pieces, last⟩, s''⟩ <;> rfl

theorem rollTerms_tallies {terms : List Term} (hsides : ∀ t ∈ terms, t.HasSides)
    (hfirst : terms.Pairwise fun t u => u.isDice = true → t.isDice = true) (total : Int)
    (s : Source) :
    Tallies (Die.valuesAll exploding (terms.flatMap Term.singles) s ++
      terms.filterMap Term.modifier?)
      (Die.drawsAll exploding (terms.flatMap Term.singles) s) total s (List.flatMap Piece.values)
      (rollTerms exploding terms total s) := by
  induction terms generalizing total s with
  | nil => exact .nil rfl
  | cons t terms ih =>
      rw [List.pairwise_cons] at hfirst
      have hrest := fun next =>
        ih (fun u hu => hsides u (List.mem_cons_of_mem t hu)) hfirst.2 next
        (s.skip (Die.drawsAll exploding t.singles s))
      have hjoin : ∀ (piece : Piece) pieces,
          List.flatMap Piece.values (piece :: pieces) = piece.values ++
            List.flatMap Piece.values pieces :=
        fun _ _ => rfl
      have hall := (rollTerm_tallies (hsides t List.mem_cons_self) total s).append hrest hjoin
      rw [rollTerms_cons, List.flatMap_cons, Die.drawsAll_append]
      suffices hvalues : Die.valuesAll exploding (t.singles ++ terms.flatMap Term.singles) s ++
          (t :: terms).filterMap Term.modifier? =
          Die.valuesAll exploding t.singles s ++ t.modifier?.toList ++
            (Die.valuesAll exploding (terms.flatMap Term.singles)
              (s.skip (Die.drawsAll exploding t.singles s)) ++ terms.filterMap Term.modifier?) by
        rw [hvalues]
        exact hall
      cases t with
      | dice sign count sides =>
          have hmodifiers : (Term.dice sign count sides :: terms).filterMap Term.modifier? =
              terms.filterMap Term.modifier? := List.filterMap_cons_none rfl
          rw [Die.valuesAll_append, hmodifiers]
          simp [Term.modifier?]
      | modifier value =>
          -- No dice follow a modifier.
          have hnone : terms.flatMap Term.singles = [] := by
            rw [List.flatMap_eq_nil_iff]
            intro u hu
            cases u with
            | dice sign count sides => exact absurd (hfirst.1 _ hu rfl) Bool.false_ne_true
            | modifier value => rfl
          rw [hnone]
          rfl

end Rolling

theorem pairwise_diceFirst (terms : List Term) :
    (diceFirst terms).Pairwise fun t u => u.isDice = true → t.isDice = true := by
  have hdice : ∀ t ∈ terms.filter Term.isDice, t.isDice = true := fun t ht =>
    (List.mem_filter.mp ht).2
  refine List.pairwise_append.mpr
    ⟨List.pairwise_of_forall_mem_list ?_, List.pairwise_of_forall_mem_list ?_, ?_⟩
  · intro t ht u hu _
    exact hdice t ht
  · intro t ht u hu huDice
    simp [huDice] at hu
  · intro t ht u hu _
    exact hdice t ht

theorem Term.Written.hasSides {t : Term} {token : List Char} (h : t.Written token) :
    t.HasSides := by
  cases h with
  | dice _ _ _ _ _ sidesBounds => exact sidesBounds.1
  | modifier => trivial

namespace Formula

variable {text : String} {f : Formula}

theorem hasSides_of_parse (h : parse text = .ok f) : ∀ t ∈ f.terms, t.HasSides := by
  intro t ht
  obtain ⟨token, hwritten⟩ := (exists_written_of_parse h).2 t ht
  exact hwritten.hasSides

theorem pairwise_of_parse (h : parse text = .ok f) :
    f.terms.Pairwise fun t u => u.isDice = true → t.isDice = true := by
  obtain ⟨terms, -, -, rfl⟩ := exists_terms_of_parse h
  exact pairwise_diceFirst terms

theorem tallies_of_parse (h : parse text = .ok f) (exploding : Bool) (s : Source) :
    Tallies (Die.valuesAll exploding f.dice s ++ f.modifiers)
      (Die.drawsAll exploding f.dice s) 0 s
      (List.flatMap Piece.values) (rollTerms exploding f.terms 0 s) :=
  rollTerms_tallies (hasSides_of_parse h) (pairwise_of_parse h) 0 s

theorem roll_without_advantage (f : Formula) (exploding : Bool) (s : Source) :
    f.roll ⟨.none, exploding⟩ s =
      match rollTerms exploding f.terms 0 s with
      | (some (pieces, total), s) => (.ok ⟨f, ⟨.none, exploding⟩, pieces, total, s.seed⟩, s)
      | (none, s) => (.error (.totalOutOfRange f.raw), s) := rfl

section Tallied

variable {exploding : Bool} {s : Source} {values : List Int} {draws : Nat}

theorem roll_ok_of_tallies
    (h : Tallies values draws 0 s (List.flatMap Piece.values) (rollTerms exploding f.terms 0 s))
    {total : Int} (htotal : Word.addAll? 0 values = some total) :
    ∃ r, f.roll ⟨.none, exploding⟩ s = (.ok r, s.skip draws) ∧ r.values = values ∧
      r.total = total := by
  obtain ⟨pieces, hpieces, hvalues⟩ := h.ok htotal
  rw [roll_without_advantage, hpieces]
  exact ⟨_, rfl, hvalues, rfl⟩

theorem roll_error_of_tallies
    (h : Tallies values draws 0 s (List.flatMap Piece.values) (rollTerms exploding f.terms 0 s))
    (htotal : Word.addAll? 0 values = none) :
    (f.roll ⟨.none, exploding⟩ s).1 = .error (.totalOutOfRange f.raw) := by
  have hnone := h.outOfRange htotal
  rw [roll_without_advantage]
  rcases hrolled : rollTerms exploding f.terms 0 s with ⟨_ | ⟨pieces, total⟩, s'⟩
  · rfl
  · simp [hrolled] at hnone

end Tallied

theorem eq_of_roll_ok (h : parse text = .ok f) {exploding : Bool} {r : Roll} {s s' : Source}
    (hr : f.roll ⟨.none, exploding⟩ s = (.ok r, s')) :
    Word.addAll? 0 (Die.valuesAll exploding f.dice s ++ f.modifiers) = some r.total ∧
      r.values = Die.valuesAll exploding f.dice s ++ f.modifiers ∧
      s' = s.skip (Die.drawsAll exploding f.dice s) := by
  have hroll := tallies_of_parse h exploding s
  cases htotal : Word.addAll? 0 (Die.valuesAll exploding f.dice s ++ f.modifiers) with
  | none =>
      have herror := roll_error_of_tallies hroll htotal
      simp [hr] at herror
  | some total =>
      obtain ⟨r', hr', hvalues, rfl⟩ := roll_ok_of_tallies hroll htotal
      obtain ⟨hok, rfl⟩ := Prod.mk.inj (hr.symm.trans hr')
      obtain rfl := Except.ok.inj hok
      exact ⟨rfl, hvalues, rfl⟩

theorem sides_pos_of_parse (h : parse text = .ok f) : ∀ d ∈ f.dice, 0 < d.sides := by
  intro d hd
  obtain ⟨t, ht, hd⟩ := List.mem_flatMap.mp hd
  have hsides := hasSides_of_parse h t ht
  cases t with
  | dice sign count sides =>
      obtain rfl := List.eq_of_mem_replicate hd
      exact hsides
  | modifier value => simp [Term.singles] at hd

/-- A formula is rolled die by die from left to right, and then its modifiers are added. It fails
if a total on the way is out of range, and in no other way. -/
theorem roll_die_by_die (h : parse text = .ok f) (exploding : Bool) (s : Source) :
    let rolls := Die.valuesAll exploding f.dice s ++ f.modifiers
    let outcome := f.roll ⟨.none, exploding⟩ s
    (∀ r, outcome.1 = .ok r →
      r.values = rolls ∧ r.total = rolls.sum ∧
      outcome.2 = s.skip (Die.drawsAll exploding f.dice s)) ∧
    ((∀ n, Word.Fits (rolls.take n).sum) → ∃ r, outcome.1 = .ok r) ∧
    ∀ fault, outcome.1 = .error fault →
      fault = .totalOutOfRange f.raw ∧ ∃ n, ¬Word.Fits (rolls.take n).sum := by
  intro rolls outcome
  have hroll : Tallies rolls (Die.drawsAll exploding f.dice s) 0 s (List.flatMap Piece.values)
      (rollTerms exploding f.terms 0 s) :=
      rollTerms_tallies (hasSides_of_parse h) (pairwise_of_parse h) 0 s
  have hfits : ∀ {total}, Word.addAll? 0 rolls = some total ↔
      (∀ n, Word.Fits (rolls.take n).sum) ∧ total = rolls.sum := by
    intro total
    have hzero : Word.Fits 0 := by decide
    rw [Word.addAll?_eq_some_iff hzero]
    simp only [Int.zero_add]
  cases htotal : Word.addAll? 0 rolls with
  | none =>
      have herror : outcome.1 = .error (.totalOutOfRange f.raw) :=
        roll_error_of_tallies hroll htotal
      have hnot : ¬∀ n, Word.Fits (rolls.take n).sum := by
        intro hall
        exact Option.some_ne_none _ ((hfits.mpr ⟨hall, rfl⟩).symm.trans htotal)
      rw [herror]
      refine ⟨by simp, fun hall => absurd hall hnot, ?_⟩
      rintro fault hfault
      exact ⟨(Except.error.inj hfault).symm, not_forall.mp hnot⟩
  | some total =>
      obtain ⟨-, rfl⟩ := hfits.mp htotal
      obtain ⟨r, hr, hvalues, hsum⟩ := roll_ok_of_tallies hroll htotal
      rw [show outcome = _ from hr]
      refine ⟨?_, fun _ => ⟨r, rfl⟩, by simp⟩
      rintro r' hr'
      obtain rfl := Except.ok.inj hr'
      exact ⟨hvalues, hsum, rfl⟩

/-- Both dice show their top face first and explode. -/
theorem roll_die_by_die_exploding :
    let f : Formula := ⟨"2D2 + 3 - 1d4", [.dice .plus 2 2, .dice .minus 1 4, .modifier 3]⟩
    let s := Source.ofSeed "dragon"
    parse " 2D2 + 3 - 1d4 " = .ok f ∧ ∃ r, f.roll ⟨.none, true⟩ s = (.ok r, s.skip 5) ∧
      r.values = [3, 3, -1, 3] ∧ r.total = 8 := by
  intro f s
  have hparse : parse " 2D2 + 3 - 1d4 " = .ok f := by cbv
  have htotal : Word.addAll? 0 [3, 3, -1, 3] = some 8 := by decide
  have hfits := ((Word.addAll?_eq_some_iff (by decide)).mp htotal).1
  have hrolled : ∀ t : Source, Die.valuesAll true f.dice t = [3, 3, -1] →
      Die.drawsAll true f.dice t = 5 → ∃ r, f.roll ⟨.none, true⟩ t = (.ok r, t.skip 5) ∧
        r.values = [3, 3, -1, 3] ∧ r.total = 8 := by
    intro t hdice hdraws
    have hrolls : Die.valuesAll true f.dice t ++ f.modifiers = [3, 3, -1, 3] := by
      rw [hdice]
      rfl
    obtain ⟨hok, hfinishes, -⟩ := roll_die_by_die hparse true t
    simp only [hrolls, hdraws] at hok hfinishes
    obtain ⟨r, hr⟩ := hfinishes (by simpa using hfits)
    obtain ⟨hvalues, hsum, hskip⟩ := hok r hr
    exact ⟨r, Prod.ext hr hskip, hvalues, hsum⟩
  exact ⟨hparse, hrolled s (by decide +kernel) (by decide +kernel)⟩

end Formula

end Dice
end Gamemaster
