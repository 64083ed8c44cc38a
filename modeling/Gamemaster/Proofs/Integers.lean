import Gamemaster.Proofs.Combatant.Confinement

namespace Gamemaster

namespace Literal

/-- How an integer is spelled: a sign, then its digits after any number of zeros. Only a plus may
be left out, and zero may have either sign. -/
inductive Spelled (n : Int) : List Char → Prop
  | plain (zeros : Nat) (nonneg : 0 ≤ n) :
      Spelled n (List.replicate zeros '0' ++ Nat.toDigits 10 n.natAbs)
  | plus (zeros : Nat) (nonneg : 0 ≤ n) :
      Spelled n ('+' :: (List.replicate zeros '0' ++ Nat.toDigits 10 n.natAbs))
  | minus (zeros : Nat) (nonpos : n ≤ 0) :
      Spelled n ('-' :: (List.replicate zeros '0' ++ Nat.toDigits 10 n.natAbs))

variable {cs : List Char} {n : Int}

theorem exists_digitChar {c : Char} (h : c.isDigit = true) : ∃ d < 10, Nat.digitChar d = c := by
  have hbounds : 48 ≤ c.toNat ∧ c.toNat ≤ 57 := Char.isDigit_iff_toNat.mp h
  have hlt : c.toNat - 48 < 10 := by omega
  refine ⟨c.toNat - 48, hlt, Char.toNat_inj.mp ?_⟩
  rw [Nat.toNat_digitChar_of_lt_ten hlt]
  omega

/-- Digits that are read on to a number other than zero follow the digits of this number. -/
theorem toDigits_ofDigitChars (hdigits : ∀ c ∈ cs, c.isDigit = true) {m : Nat} (hm : 0 < m) :
    Nat.toDigits 10 (Nat.ofDigitChars 10 cs m) = Nat.toDigits 10 m ++ cs := by
  induction cs generalizing m with
  | nil => rw [Nat.ofDigitChars_nil, List.append_nil]
  | cons c cs ih =>
      rw [List.forall_mem_cons] at hdigits
      obtain ⟨d, hd, rfl⟩ := exists_digitChar hdigits.1
      have hlast : Nat.toDigits 10 (10 * m + d) = Nat.toDigits 10 m ++ [Nat.digitChar d] := by
        rw [← Nat.toDigits_append_toDigits (by decide) hm hd, Nat.toDigits_of_lt_base hd]
      rw [Nat.ofDigitChars_cons_digitChar_of_lt_ten hd, ih hdigits.2 (by omega), hlast,
        List.append_assoc, List.singleton_append]

theorem exists_zeros_of_numeral {m : Nat} (h : Numeral m cs) :
    ∃ zeros, cs = List.replicate zeros '0' ++ Nat.toDigits 10 m := by
  obtain ⟨hne, hdigits, rfl⟩ := h
  induction cs with
  | nil => exact absurd rfl hne
  | cons c cs ih =>
      rw [List.forall_mem_cons] at hdigits
      obtain ⟨d, hd, rfl⟩ := exists_digitChar hdigits.1
      rw [Nat.ofDigitChars_cons_digitChar_of_lt_ten hd, Nat.mul_zero, Nat.zero_add]
      rcases Nat.eq_zero_or_pos d with rfl | hpos
      · -- A zero counts as one before the digits, unless it is all there is.
        rcases eq_or_ne cs [] with rfl | hrest
        · exact ⟨0, rfl⟩
        · obtain ⟨zeros, hzeros⟩ := ih hrest hdigits.2
          refine ⟨zeros + 1, ?_⟩
          rw [List.replicate_succ, List.cons_append, ← hzeros]
          rfl
      · refine ⟨0, ?_⟩
        rw [toDigits_ofDigitChars hdigits.2 hpos, Nat.toDigits_of_lt_base hd]
        rfl

theorem numeral_zeros_append (zeros m : Nat) :
    Numeral m (List.replicate zeros '0' ++ Nat.toDigits 10 m) where
  nonempty := List.append_ne_nil_of_right_ne_nil _ Nat.toDigits_ne_nil
  digits := by
    rw [List.forall_mem_append]
    refine ⟨fun c hc => ?_, (Dice.numeral_toDigits m).digits⟩
    rw [List.eq_of_mem_replicate hc]
    rfl
  value := by
    rw [Nat.ofDigitChars_append, Nat.ofDigitChars_replicate_zero, Nat.mul_zero,
      Nat.ofDigitChars_ten_toDigits]

/-- A literal is read just if it spells an integer of 64 bits, and then as this integer. -/
theorem word?_eq_some_iff_spelled : word? cs = some n ↔ Word.Fits n ∧ Spelled n cs := by
  rw [Dice.word?_eq_some_iff]
  constructor
  · rintro ⟨sign, mark, digits, m, hmark, hnumeral, hfits, rfl, rfl⟩
    obtain ⟨zeros, rfl⟩ := exists_zeros_of_numeral hnumeral
    refine ⟨hfits, ?_⟩
    cases hmark with
    | omitted => simpa [Dice.Sign.toInt] using Spelled.plain (n := m) zeros (by omega)
    | plus => simpa [Dice.Sign.toInt] using Spelled.plus (n := m) zeros (by omega)
    | minus => simpa [Dice.Sign.toInt] using Spelled.minus (n := -m) zeros (by omega)
  · rintro ⟨hfits, hspelled⟩
    have hplus : 0 ≤ n → n = Dice.Sign.plus.toInt * n.natAbs := by
      simp only [Dice.Sign.toInt]
      omega
    have hminus : n ≤ 0 → n = Dice.Sign.minus.toInt * n.natAbs := by
      simp only [Dice.Sign.toInt]
      omega
    cases hspelled with
    | plain zeros hnonneg =>
        exact ⟨_, _, _, _, .omitted, numeral_zeros_append zeros _, hfits, hplus hnonneg, rfl⟩
    | plus zeros hnonneg =>
        exact ⟨_, _, _, _, .plus, numeral_zeros_append zeros _, hfits, hplus hnonneg, rfl⟩
    | minus zeros hnonpos =>
        exact ⟨_, _, _, _, .minus, numeral_zeros_append zeros _, hfits, hminus hnonpos, rfl⟩

theorem word?_eq_none_iff_unspelled : word? cs = none ↔ ∀ n, Word.Fits n → ¬Spelled n cs := by
  simp only [Option.eq_none_iff_forall_ne_some, Ne, word?_eq_some_iff_spelled, not_and]

theorem Spelled.isBlank_of_mem (h : Spelled n cs) : ∀ c ∈ cs, Text.isBlank c = false := by
  have hdigits := fun zeros c hc =>
    Dice.isBlank_of_isDigit ((numeral_zeros_append zeros n.natAbs).digits c hc)
  cases h with
  | plain zeros => exact hdigits zeros
  | plus zeros | minus zeros => exact List.forall_mem_cons.mpr ⟨rfl, hdigits zeros⟩

end Literal

namespace Dice

open Text

variable {s : String} {t : Term} {cs : List Char} {n : Int}

theorem written_singleton_iff : Written [t] cs ↔ t.Written cs := by
  constructor
  · rintro ⟨-, row, rfl, -, hrow⟩
    obtain ⟨token, rest, hterm, hrest, rfl⟩ := List.forall₂_cons_left_iff.mp hrow
    obtain rfl := List.forall₂_nil_left_iff.mp hrest
    rwa [List.flatten_singleton]
  · intro h
    exact ⟨List.cons_ne_nil _ _, [cs], List.flatten_singleton, nofun, .cons h .nil⟩

theorem diceFirst_eq_singleton_iff {terms : List Term} : diceFirst terms = [t] ↔ terms = [t] := by
  constructor
  · intro h
    have hperm : (diceFirst terms).Perm terms := List.filter_append_perm Term.isDice terms
    exact List.perm_singleton.mp (h ▸ hperm.symm)
  · rintro rfl
    cases t <;> rfl

theorem written_modifier_iff : (Term.modifier n).Written cs ↔ Literal.word? cs = some n := by
  rw [word?_eq_some_iff]
  constructor
  · intro h
    cases h with
    | modifier hmark hnumeral hfits => exact ⟨_, _, _, _, hmark, hnumeral, hfits, rfl, rfl⟩
  · rintro ⟨sign, mark, digits, m, hmark, hnumeral, hfits, rfl, rfl⟩
    exact .modifier hmark hnumeral hfits

namespace Formula

/-- A formula of one term is a text with nothing but this term in it, apart from blanks. -/
theorem parse_singleton_iff :
    (∃ f, parse s = .ok f ∧ f.terms = [t]) ↔ t.Written (withoutBlanks s.toList) := by
  rw [← written_singleton_iff]
  constructor
  · rintro ⟨f, hf, hterms⟩
    obtain ⟨terms, hne, hread, rfl⟩ := exists_terms_of_parse hf
    obtain rfl := diceFirst_eq_singleton_iff.mp hterms
    exact written_iff.mpr ⟨hne, readTerms_eq_ok_iff.mp hread⟩
  · intro h
    exact ⟨_, parse_of_written h, diceFirst_eq_singleton_iff.mpr rfl⟩

/-- Only blanks inside a text can make a modifier of what is no literal. -/
theorem parse_modifier_iff (h : ∀ c ∈ trimChars s.toList, isBlank c = false) :
    (∃ f, parse s = .ok f ∧ f.terms = [.modifier n]) ↔ Literal.word? (trimChars s.toList) =
      some n := by
  rw [parse_singleton_iff, ← withoutBlanks_trimChars, withoutBlanks_of_not_blank h,
    written_modifier_iff]

example :
    parse "9 007" = .ok ⟨"9 007", [.modifier 9007]⟩ ∧ (ActionValue.text "9 007").amount? = none :=
  ⟨by cbv, by cbv⟩

end Formula

end Dice

theorem Json.numeric?_of_word {s : String} {n : Int}
    (h : Literal.word? (Text.trimChars s.toList) = some n) :
    (text s).numeric? = some n := by
  simp only [numeric?, h]

namespace Action

/-- The tags that ask for an amount, each with what it does with the amount. -/
def measured : List (String × (Int → Action)) :=
  [("damage", damage), ("heal", heal), ("temp_hp", tempHp)]

variable {tag s : String} {act : Int → Action} {condition : Option String}

theorem ofRequest_of_measured (h : (tag, act) ∈ measured) (value : Option ActionValue)
    (condition : Option String) :
    ofRequest tag value condition = (amountOf tag value).map act := by
  simp only [measured, List.mem_cons, List.not_mem_nil, or_false, Prod.mk.injEq] at h
  rcases h with ⟨rfl, rfl⟩ | ⟨rfl, rfl⟩ | ⟨rfl, rfl⟩ <;> rfl

theorem ofRequest_of_word (h : (tag, act) ∈ measured) {n : Int}
    (hword : Literal.word? (Text.trimChars s.toList) = some n) :
    ofRequest tag (some (.text s)) condition = .ok (act (max n 0)) := by
  rw [ofRequest_of_measured h]
  simp only [amountOf, ActionValue.amount?, hword, Except.map]

theorem ofRequest_of_no_word (h : (tag, act) ∈ measured)
    (hword : Literal.word? (Text.trimChars s.toList) = none) :
    ofRequest tag (some (.text s)) condition = .error (.amountUnreadable tag s) := by
  rw [ofRequest_of_measured h]
  simp only [amountOf, ActionValue.amount?, hword, ActionValue.render, Except.map]

end Action

/-- A text that spells an integer of 64 bits, with any blanks around it, is this integer for a
stat block, asks for it as an amount, or for zero if it is negative, and is the formula of it as a
modifier. Any other text is refused as an amount, and is no formula of one modifier unless there
are blanks inside it. -/
theorem integers_read_alike (s : String) :
    (∀ n front token back, s.toList = front ++ token ++ back →
      (∀ c ∈ front ++ back, Text.isBlank c = true) →
      Literal.Spelled n token → Word.Fits n →
        (Json.text s).numeric? = some n ∧
        (∀ condition tag act, (tag, act) ∈ Action.measured →
          Action.ofRequest tag (some (.text s)) condition = .ok (act (max n 0))) ∧
        ∃ f, Dice.Formula.parse s = .ok f ∧ f.terms = [.modifier n]) ∧
    ((∀ n, Word.Fits n → ¬Literal.Spelled n (Text.trimChars s.toList)) →
      (∀ condition tag act, (tag, act) ∈ Action.measured →
        Action.ofRequest tag (some (.text s)) condition = .error (.amountUnreadable tag s)) ∧
      ((∀ c ∈ Text.trimChars s.toList, Text.isBlank c = false) →
        ∀ n, ¬∃ f, Dice.Formula.parse s = .ok f ∧ f.terms = [.modifier n])) := by
  constructor
  · intro n front token back hs hpadding hspelled hfits
    obtain rfl : Text.trimChars s.toList = token := by
      rw [hs, Text.trimChars_padded hpadding hspelled.isBlank_of_mem]
    have hword := Literal.word?_eq_some_iff_spelled.mpr ⟨hfits, hspelled⟩
    exact ⟨Json.numeric?_of_word hword, fun condition tag act hact =>
      Action.ofRequest_of_word hact hword,
      (Dice.Formula.parse_modifier_iff hspelled.isBlank_of_mem).mpr hword⟩
  · intro hunspelled
    have hword := Literal.word?_eq_none_iff_unspelled.mpr hunspelled
    refine ⟨fun condition tag act hact => Action.ofRequest_of_no_word hact hword,
      fun hunbroken n hparse => ?_⟩
    have hread := (Dice.Formula.parse_modifier_iff hunbroken).mp hparse
    rw [hword] at hread
    cases hread

/-- The least integer of 64 bits, with zeros before its digits and blanks around it, and the first
that is too large, which a stat block alone still takes. -/
theorem integers_read_alike_least :
    let least := "\u3000-0009223372036854775808\n"
    let beyond := "9223372036854775808"
    (least.toList = ['\u3000'] ++ "-0009223372036854775808".toList ++ ['\n'] ∧
      Literal.Spelled Word.low "-0009223372036854775808".toList ∧ Word.Fits Word.low ∧
      (Json.text least).numeric? = some Word.low ∧
      Action.ofRequest "damage" (some (.text least)) none = .ok (.damage 0) ∧
      ∃ f, Dice.Formula.parse least = .ok f ∧ f.terms = [.modifier Word.low]) ∧
    ((∀ n, Word.Fits n → ¬Literal.Spelled n (Text.trimChars beyond.toList)) ∧
      (∀ c ∈ Text.trimChars beyond.toList, Text.isBlank c = false) ∧
      (Json.text beyond).numeric? = some Word.high ∧
      Action.ofRequest "heal" (some (.text beyond)) none =
        .error (.amountUnreadable "heal" beyond) ∧
      ∀ n, ¬∃ f, Dice.Formula.parse beyond = .ok f ∧ f.terms = [.modifier n]) := by
  intro least beyond
  have hleast : least.toList = ['\u3000'] ++ "-0009223372036854775808".toList ++ ['\n'] := by
    decide +kernel
  have hblank : ∀ c ∈ ['\u3000'] ++ ['\n'], Text.isBlank c = true :=
    List.forall_mem_append.mpr
      ⟨List.forall_mem_singleton.mpr rfl, List.forall_mem_singleton.mpr rfl⟩
  have hdigits : "-0009223372036854775808".toList =
      '-' :: (List.replicate 3 '0' ++ Nat.toDigits 10 Word.low.natAbs) := by decide +kernel
  have hspelled : Literal.Spelled Word.low "-0009223372036854775808".toList :=
    hdigits ▸ .minus 3 (by decide)
  have hunspelled : ∀ n, Word.Fits n → ¬Literal.Spelled n (Text.trimChars beyond.toList) :=
    Literal.word?_eq_none_iff_unspelled.mp (by decide +kernel)
  have hunbroken : ∀ c ∈ Text.trimChars beyond.toList, Text.isBlank c = false :=
    fun c hc => Dice.isBlank_of_isDigit (List.all_eq_true.mp (by decide +kernel) c hc)
  obtain ⟨hnumber, hamount, hmodifier⟩ :=
    (integers_read_alike least).1 _ _ _ _ hleast hblank hspelled (by decide)
  obtain ⟨hrefused, hnone⟩ := (integers_read_alike beyond).2 hunspelled
  have hdamage := hamount none "damage" .damage (by simp [Action.measured])
  have hheal := hrefused none "heal" .heal (by simp [Action.measured])
  exact ⟨⟨hleast, hspelled, by decide, hnumber, hdamage, hmodifier⟩,
    hunspelled, hunbroken, by decide +kernel, hheal, hnone hunbroken⟩

end Gamemaster
