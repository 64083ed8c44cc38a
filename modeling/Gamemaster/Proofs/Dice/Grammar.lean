import Gamemaster.Dice.Formula
import Mathlib.Data.List.Forall2
import Mathlib.Data.List.TakeWhile

namespace Gamemaster

namespace Text

theorem withoutBlanks_dropWhile (cs : List Char) :
    withoutBlanks (cs.dropWhile isBlank) = withoutBlanks cs := by
  induction cs with
  | nil => rfl
  | cons c cs ih =>
      by_cases hc : isBlank c = true
      · rw [List.dropWhile_cons_of_pos hc, ih]
        simp [withoutBlanks, hc]
      · rw [List.dropWhile_cons_of_neg hc]

theorem withoutBlanks_trimChars (cs : List Char) :
    withoutBlanks (trimChars cs) = withoutBlanks cs := by
  have hreverse : ∀ ds, withoutBlanks ds.reverse = (withoutBlanks ds).reverse :=
    fun _ => List.filter_reverse
  rw [trimChars, hreverse, withoutBlanks_dropWhile, hreverse, withoutBlanks_dropWhile,
    List.reverse_reverse]

theorem toList_trim (s : String) : (trim s).toList = trimChars s.toList :=
  String.toList_ofList

theorem trim_eq_empty_iff (s : String) : trim s = "" ↔ withoutBlanks s.toList = [] := by
  have hempty : trim s = "" ↔ trimChars s.toList = [] := by
    rw [trim, ← String.ofList_nil, String.ofList_inj]
  rw [hempty]
  constructor
  · intro h
    rw [← withoutBlanks_trimChars, h]
    rfl
  · intro h
    have hall : s.toList.dropWhile isBlank = [] := by
      rw [List.dropWhile_eq_nil_iff]
      simpa [withoutBlanks] using h
    rw [trimChars, hall]
    rfl

end Text

namespace Literal

/-- At least one decimal digit, and the number that the digits stand for. -/
structure Numeral (n : Nat) (cs : List Char) : Prop where
  nonempty : cs ≠ []
  digits : ∀ c ∈ cs, c.isDigit = true
  value : n = Nat.ofDigitChars 10 cs 0

theorem natural?_eq_some_iff {n : Nat} {cs : List Char} :
    natural? cs = some n ↔ Numeral n cs := by
  simp only [natural?, Option.ite_none_right_eq_some, Option.some.injEq, List.all_eq_true]
  constructor
  · rintro ⟨⟨hne, hdigits⟩, hvalue⟩
    exact ⟨hne, hdigits, hvalue.symm⟩
  · rintro ⟨hne, hdigits, hvalue⟩
    exact ⟨⟨hne, hdigits⟩, hvalue.symm⟩

end Literal

namespace Dice

open Literal (Numeral)

/-- How a sign is written. A plus may be left out. -/
inductive Sign.Written : Sign → List Char → Prop
  | omitted : Written .plus []
  | plus : Written .plus ['+']
  | minus : Written .minus ['-']

/-- How a term is written. The count of its dice may be left out if it is one. -/
inductive Term.Written : Term → List Char → Prop
  | dice {sign : Sign} {count sides : Nat} {mark countDigits sidesDigits : List Char}
      {letter : Char} (marked : sign.Written mark)
      (counted : (countDigits = [] ∧ count = 1) ∨ Numeral count countDigits)
      (lettered : letter = 'd' ∨ letter = 'D')
      (sided : Numeral sides sidesDigits)
      (countBounds : 1 ≤ count ∧ count ≤ 1000)
      (sidesBounds : 1 ≤ sides ∧ sides ≤ 1000000) :
      Written (.dice sign count sides) (mark ++ countDigits ++ letter :: sidesDigits)
  | modifier {sign : Sign} {n : Nat} {mark digits : List Char}
      (marked : sign.Written mark)
      (numeral : Numeral n digits)
      (fits : Word.Fits (sign.toInt * n)) :
      Written (.modifier (sign.toInt * n)) (mark ++ digits)

/-- The parts of a group of dice, whatever its numbers. -/
inductive DiceShaped (sign : Sign) (count sides : Nat) : List Char → Prop
  | parts {mark countDigits sidesDigits : List Char} {letter : Char}
      (marked : sign.Written mark)
      (counted : (countDigits = [] ∧ count = 1) ∨ Numeral count countDigits)
      (lettered : letter = 'd' ∨ letter = 'D')
      (sided : Numeral sides sidesDigits) :
      DiceShaped sign count sides (mark ++ countDigits ++ letter :: sidesDigits)

/-- How a row of terms is written: one after the other, each but the first with its sign. -/
def Written (terms : List Term) (cs : List Char) : Prop :=
  terms ≠ [] ∧ ∃ row : List (List Char), row.flatten = cs ∧
    (∀ token ∈ row.tail, token.head?.any isSign = true) ∧ List.Forall₂ Term.Written terms row

theorem isSign_iff {c : Char} : isSign c = true ↔ c = '+' ∨ c = '-' := by
  simp [isSign]

theorem isDiceLetter_iff {c : Char} : isDiceLetter c = true ↔ c = 'd' ∨ c = 'D' := by
  simp [isDiceLetter]

theorem isSign_of_isDigit {c : Char} (h : c.isDigit = true) : isSign c = false := by
  rw [Bool.eq_false_iff, ne_eq, isSign_iff]
  rintro (rfl | rfl) <;> exact absurd h (by decide)

theorem isDiceLetter_of_isDigit {c : Char} (h : c.isDigit = true) : isDiceLetter c = false := by
  rw [Bool.eq_false_iff, ne_eq, isDiceLetter_iff]
  rintro (rfl | rfl) <;> exact absurd h (by decide)

theorem isBlank_of_isDigit {c : Char} (h : c.isDigit = true) : Text.isBlank c = false := by
  simp only [Char.isDigit, Bool.and_eq_true, decide_eq_true_eq, UInt32.le_iff_toNat_le] at h
  have hlow : 48 ≤ c.toNat := h.1
  have hhigh : c.toNat ≤ 57 := h.2
  simp only [Text.isBlank, Bool.or_eq_false_iff, Bool.and_eq_false_iff, decide_eq_false_iff_not,
    beq_eq_false_iff_ne]
  omega

theorem isSign_of_isDiceLetter {c : Char} (h : isDiceLetter c = true) : isSign c = false := by
  rcases isDiceLetter_iff.mp h with rfl | rfl <;> rfl

/-- The characters of terms. -/
def isTermChar (c : Char) : Bool := isSign c || isDiceLetter c || c.isDigit

theorem isTermChar_iff {c : Char} :
    isTermChar c = true ↔ (isSign c = true ∨ isDiceLetter c = true) ∨ c.isDigit = true := by
  simp [isTermChar]

theorem isBlank_of_isTermChar {c : Char} (h : isTermChar c = true) : Text.isBlank c = false := by
  rcases isTermChar_iff.mp h with (h | h) | h
  · rcases isSign_iff.mp h with rfl | rfl <;> rfl
  · rcases isDiceLetter_iff.mp h with rfl | rfl <;> rfl
  · exact isBlank_of_isDigit h

section Tokens

theorem exists_tokens_cons (c : Char) (cs : List Char) :
    ∃ body row, tokens (c :: cs) = (c :: body) :: row := by
  simp only [tokens]
  split
  · exact ⟨_, _, rfl⟩
  · split <;> exact ⟨_, _, rfl⟩

theorem tokens_ne_nil {cs : List Char} (h : cs ≠ []) : tokens cs ≠ [] := by
  obtain ⟨c, cs, rfl⟩ := List.exists_cons_of_ne_nil h
  obtain ⟨body, row, htokens⟩ := exists_tokens_cons c cs
  simp [htokens]

theorem flatten_tokens (cs : List Char) : (tokens cs).flatten = cs := by
  induction cs with
  | nil => rfl
  | cons c cs ih =>
      simp only [tokens]
      split
      · rename_i h
        rw [h] at ih
        simp [← ih]
      · rename_i token row h
        rw [h] at ih
        split <;> simp [← ih]

theorem sign_of_mem_tail_tokens {cs token : List Char} (h : token ∈ (tokens cs).tail) :
    token.head?.any isSign = true := by
  induction cs with
  | nil => simp [tokens] at h
  | cons c cs ih =>
      simp only [tokens] at h
      split at h
      · simp at h
      · rename_i first row htokens
        rw [htokens] at ih
        split at h
        · rename_i hsign
          rcases List.mem_cons.mp h with rfl | h
          · exact hsign
          · exact ih h
        · exact ih h

theorem tokens_cons {c : Char} {cs token : List Char} {row : List (List Char)}
    (h : tokens cs = token :: row) :
    tokens (c :: cs) =
      if token.head?.any isSign then [c] :: token :: row else (c :: token) :: row := by
  rw [tokens, h]

theorem tokens_cons_signed {cs : List Char} (hsign : cs.head?.any isSign = true) (c : Char) :
    tokens (c :: cs) = [c] :: tokens cs := by
  cases cs with
  | nil => simp at hsign
  | cons d cs =>
      obtain ⟨body, row, htokens⟩ := exists_tokens_cons d cs
      have hd : isSign d = true := by simpa using hsign
      rw [tokens_cons htokens, htokens]
      exact if_pos hd

theorem tokens_append_signed {ds : List Char} (hsign : ds.head?.any isSign = true)
    (cs : List Char) :
    tokens (cs ++ ds) = tokens cs ++ tokens ds := by
  induction cs with
  | nil => rfl
  | cons c cs ih =>
      cases cs with
      | nil => exact tokens_cons_signed hsign c
      | cons d cs =>
          obtain ⟨body, row, htokens⟩ := exists_tokens_cons d cs
          rw [htokens] at ih
          rw [List.cons_append, tokens_cons ih, tokens_cons htokens]
          split <;> rfl

theorem tokens_of_unbroken {c : Char} {body : List Char} (hbody : ∀ d ∈ body, isSign d = false) :
    tokens (c :: body) = [c :: body] := by
  induction body generalizing c with
  | nil => rfl
  | cons d body ih =>
      rw [List.forall_mem_cons] at hbody
      rw [tokens_cons (ih hbody.2)]
      exact if_neg (by simp [hbody.1])

theorem tokens_flatten {row : List (List Char)} (hne : ∀ token ∈ row, token ≠ [])
    (hbody : ∀ token ∈ row, ∀ c ∈ token.tail, isSign c = false)
    (hsign : ∀ token ∈ row.tail, token.head?.any isSign = true) : tokens row.flatten = row := by
  induction row with
  | nil => rfl
  | cons token row ih =>
      rw [List.forall_mem_cons] at hne hbody
      obtain ⟨c, body, rfl⟩ := List.exists_cons_of_ne_nil hne.1
      have hrow := ih hne.2 hbody.2 fun t ht => hsign t (List.mem_of_mem_tail ht)
      have hfirst : tokens (c :: body) = [c :: body] := tokens_of_unbroken hbody.1
      rw [List.flatten_cons]
      cases row with
      | nil => rw [List.flatten_nil, List.append_nil, hfirst]
      | cons next row =>
          obtain ⟨d, rest, rfl⟩ := List.exists_cons_of_ne_nil (hne.2 next List.mem_cons_self)
          have hnext : ((d :: rest) :: row).flatten.head?.any isSign = true :=
            hsign (d :: rest) List.mem_cons_self
          rw [tokens_append_signed hnext, hfirst, hrow, List.singleton_append]

end Tokens

section Signs

theorem splitSign_append {sign : Sign} {mark cs : List Char} (h : sign.Written mark)
    (hcs : cs.head?.any isSign = false) : splitSign (mark ++ cs) = (sign, cs) := by
  cases h with
  | plus => rfl
  | minus => rfl
  | omitted =>
      cases cs with
      | nil => rfl
      | cons c cs =>
          have hc : ¬(c = '+' ∨ c = '-') := by simpa [← isSign_iff] using hcs
          rw [not_or] at hc
          simp [splitSign, hc]

theorem exists_mark (cs : List Char) :
    ∃ mark, (splitSign cs).1.Written mark ∧ cs = mark ++ (splitSign cs).2 := by
  unfold splitSign
  split
  · exact ⟨_, .plus, rfl⟩
  · exact ⟨_, .minus, rfl⟩
  · exact ⟨_, .omitted, rfl⟩

theorem integer?_eq (cs : List Char) :
    Literal.integer? cs =
      (Literal.natural? (splitSign cs).2).map fun n : Nat =>
      (splitSign cs).1.toInt * (n : Int) := by
  unfold Literal.integer?
  split
  · rename_i cs
    change _ = (Literal.natural? cs).map fun n : Nat => (1 : Int) * n
    cases Literal.natural? cs <;> simp
  · rename_i cs
    change _ = (Literal.natural? cs).map fun n : Nat => (-1 : Int) * n
    cases Literal.natural? cs <;> simp
  · rename_i hplus hminus
    have hsplit : splitSign cs = (.plus, cs) := by
      rw [splitSign]
      · exact hplus
      · exact hminus
    rw [hsplit]
    change _ = (Literal.natural? cs).map fun n : Nat => (1 : Int) * n
    cases Literal.natural? cs <;> simp

theorem Sign.Written.any_isDiceLetter {sign : Sign} {mark : List Char} (h : sign.Written mark) :
    mark.any isDiceLetter = false := by
  cases h <;> decide

theorem Sign.Written.isSign_of_mem_tail {sign : Sign} {mark cs : List Char}
    (h : sign.Written mark) (hcs : ∀ c ∈ cs, isSign c = false) :
    ∀ c ∈ (mark ++ cs).tail, isSign c = false := by
  cases h with
  | omitted => exact fun c hc => hcs c (List.mem_of_mem_tail hc)
  | plus => exact hcs
  | minus => exact hcs

end Signs

namespace Literal.Numeral

variable {n : Nat} {digits : List Char}

theorem head?_any_isSign (h : Numeral n digits) : digits.head?.any isSign = false := by
  obtain ⟨d, ds, rfl⟩ := List.exists_cons_of_ne_nil h.nonempty
  exact isSign_of_isDigit (h.digits d (by simp))

theorem any_isDiceLetter (h : Numeral n digits) : digits.any isDiceLetter = false := by
  rw [List.any_eq_false]
  intro c hc
  simp [isDiceLetter_of_isDigit (h.digits c hc)]

end Literal.Numeral

section Reading

variable {token : List Char} {t : Term}

theorem integer?_of_written {sign : Sign} {mark digits : List Char} {n : Nat}
    (hmark : sign.Written mark) (hnumeral : Numeral n digits) :
    Literal.integer? (mark ++ digits) = some (sign.toInt * n) := by
  rw [integer?_eq, splitSign_append hmark (Literal.Numeral.head?_any_isSign hnumeral),
    Literal.natural?_eq_some_iff.mpr hnumeral]
  rfl

theorem word?_eq_some_iff {m : Int} : Literal.word? token = some m ↔
    ∃ (sign : Sign) (mark digits : List Char) (n : Nat), sign.Written mark ∧ Numeral n digits ∧
      Word.Fits m ∧ m = sign.toInt * n ∧ token = mark ++ digits := by
  rw [Literal.word?_eq_some_iff]
  constructor
  · rintro ⟨hm, hfits⟩
    rw [integer?_eq] at hm
    obtain ⟨n, hn, rfl⟩ := Option.map_eq_some_iff.mp hm
    obtain ⟨mark, hmark, htoken⟩ := exists_mark token
    exact ⟨_, mark, _, n, hmark, Literal.natural?_eq_some_iff.mp hn, hfits, rfl, htoken⟩
  · rintro ⟨sign, mark, digits, n, hmark, hnumeral, hfits, rfl, rfl⟩
    exact ⟨integer?_of_written hmark hnumeral, hfits⟩

theorem diceShape?_eq_some_iff {sign : Sign} {count sides : List Char} :
    diceShape? token = some (sign, count, sides) ↔
      ∃ (mark : List Char) (letter : Char), sign.Written mark ∧ isDiceLetter letter = true ∧
        (∀ c ∈ count, c.isDigit = true) ∧ sides ≠ [] ∧ (∀ c ∈ sides, c.isDigit = true) ∧
        token = mark ++ count ++ letter :: sides := by
  constructor
  · intro h
    obtain ⟨mark, hmark, htoken⟩ := exists_mark token
    simp only [diceShape?] at h
    split at h
    · rename_i letter rest hrest
      simp only [Option.ite_none_right_eq_some, Option.some.injEq, Prod.mk.injEq,
        List.all_eq_true] at h
      obtain ⟨⟨hletter, hne, hsides⟩, rfl, rfl, rfl⟩ := h
      refine ⟨mark, letter, hmark, hletter, fun c => List.mem_takeWhile_imp, hne, hsides, ?_⟩
      rw [List.append_assoc, ← hrest, List.takeWhile_append_dropWhile, ← htoken]
    · simp at h
  · rintro ⟨mark, letter, hmark, hletter, hcount, hne, hsides, rfl⟩
    have hbody : (count ++ letter :: sides).head?.any isSign = false := by
      cases count with
      | nil => exact isSign_of_isDiceLetter hletter
      | cons c count => exact isSign_of_isDigit (hcount c (by simp))
    have hstop : letter.isDigit = false := by
      rcases isDiceLetter_iff.mp hletter with rfl | rfl <;> decide
    have hall : sides.all Char.isDigit = true := List.all_eq_true.mpr hsides
    rw [List.append_assoc, diceShape?, splitSign_append hmark hbody]
    simp [List.dropWhile_append_of_pos hcount, List.takeWhile_append_of_pos hcount, hstop,
      hletter, hne, hall]

variable {sign : Sign} {count sides : Nat}

theorem diceShaped_iff : DiceShaped sign count sides token ↔
    ∃ countDigits sidesDigits, diceShape? token = some (sign, countDigits, sidesDigits) ∧
      count = (if countDigits = [] then 1 else Nat.ofDigitChars 10 countDigits 0) ∧
      sides = Nat.ofDigitChars 10 sidesDigits 0 := by
  constructor
  · rintro @⟨mark, countDigits, sidesDigits, letter, hmark, hcounted, hlettered, hsided⟩
    refine ⟨countDigits, sidesDigits, diceShape?_eq_some_iff.mpr ⟨mark, letter, hmark,
      isDiceLetter_iff.mpr hlettered, ?_, hsided.nonempty, hsided.digits, rfl⟩, ?_, hsided.value⟩
    · rcases hcounted with ⟨rfl, -⟩ | hcounted
      · simp
      · exact hcounted.digits
    · rcases hcounted with ⟨rfl, rfl⟩ | hcounted
      · rfl
      · rw [if_neg hcounted.nonempty, hcounted.value]
  · rintro ⟨countDigits, sidesDigits, hshape, hcount, hsides⟩
    obtain ⟨mark, letter, hmark, hletter, hcountDigits, hne, hsidesDigits, rfl⟩ :=
      diceShape?_eq_some_iff.mp hshape
    refine .parts hmark ?_ (isDiceLetter_iff.mp hletter) ⟨hne, hsidesDigits, hsides⟩
    by_cases hmissing : countDigits = []
    · exact .inl ⟨hmissing, by rw [hcount, if_pos hmissing]⟩
    · exact .inr ⟨hmissing, hcountDigits, by rw [hcount, if_neg hmissing]⟩

theorem DiceShaped.any_isDiceLetter (h : DiceShaped sign count sides token) :
    token.any isDiceLetter = true := by
  obtain ⟨-, -, hlettered, -⟩ := h
  simp [isDiceLetter_iff.mpr hlettered]

theorem readDice_of_misshapen (h : ∀ sign count sides, ¬DiceShaped sign count sides token) :
    readDice token = .error (.unsupportedDice (String.ofList token)) := by
  cases hshape : diceShape? token with
  | none => simp only [readDice, hshape]
  | some parts => exact absurd (diceShaped_iff.mpr ⟨_, _, hshape, rfl, rfl⟩) (h parts.1 _ _)

theorem readDice_of_shaped (h : DiceShaped sign count sides token) :
    readDice token =
      if maxRead < count then .error (.countTooLarge (String.ofList token))
      else if maxRead < sides then .error (.sidesTooLarge (String.ofList token))
      else if count = 0 ∨ sides = 0 then .error (.notPositive (String.ofList token))
      else if maxCount < count ∨ maxSides < sides then
        .error (.beyondLimits (String.ofList token))
      else .ok (.dice sign count sides) := by
  obtain ⟨countDigits, sidesDigits, hshape, rfl, rfl⟩ := diceShaped_iff.mp h
  simp only [readDice, hshape]

theorem written_dice_iff : (Term.dice sign count sides).Written token ↔
    DiceShaped sign count sides token ∧ (1 ≤ count ∧ count ≤ 1000) ∧ 1 ≤ sides ∧
    sides ≤ 1000000 := by
  constructor
  · rintro ⟨marked, counted, lettered, sided, countBounds, sidesBounds⟩
    exact ⟨.parts marked counted lettered sided, countBounds, sidesBounds⟩
  · rintro ⟨⟨marked, counted, lettered, sided⟩, countBounds, sidesBounds⟩
    exact .dice marked counted lettered sided countBounds sidesBounds

theorem written_of_readDice (h : readDice token = .ok t) : t.Written token := by
  by_cases hshape : ∃ sign count sides, DiceShaped sign count sides token
  · obtain ⟨sign, count, sides, hshape⟩ := hshape
    rw [readDice_of_shaped hshape] at h
    repeat (split at h; · simp at h)
    obtain rfl := Except.ok.inj h
    simp only [maxCount, maxSides] at *
    exact written_dice_iff.mpr ⟨hshape, by omega, by omega⟩
  · simp only [not_exists] at hshape
    simp [readDice_of_misshapen hshape] at h

theorem readDice_of_written (h : (Term.dice sign count sides).Written token) :
    readDice token = .ok (.dice sign count sides) := by
  obtain ⟨hshape, hcount, hsides⟩ := written_dice_iff.mp h
  rw [readDice_of_shaped hshape, if_neg (by unfold maxRead; omega),
    if_neg (by unfold maxRead; omega), if_neg (by omega),
    if_neg (by unfold maxCount maxSides; omega)]

/-- A term ends in a digit, and so is no lone sign. -/
theorem Term.Written.getLast?_isDigit (h : t.Written token) :
    ∃ d, token.getLast? = some d ∧ d.isDigit = true := by
  have hlast : ∀ (front : List Char) {n : Nat} {digits : List Char}, Numeral n digits →
      ∃ d, (front ++ digits).getLast? = some d ∧ d.isDigit = true := by
    intro front n digits hnumeral
    refine ⟨digits.getLast hnumeral.nonempty, ?_, hnumeral.digits _ (List.getLast_mem _)⟩
    simp [List.getLast?_append, List.getLast?_eq_getLast_of_ne_nil hnumeral.nonempty]
  cases h with
  | @dice sign count sides mark countDigits sidesDigits letter _ _ _ hsided _ _ =>
      have hdigit := hlast (mark ++ countDigits ++ [letter]) hsided
      rwa [List.append_assoc, List.singleton_append] at hdigit
  | modifier _ hnumeral _ => exact hlast _ hnumeral

theorem Term.Written.ne_sign (h : t.Written token) : ¬(token = ['+'] ∨ token = ['-']) := by
  obtain ⟨d, hlast, hdigit⟩ := h.getLast?_isDigit
  rintro (rfl | rfl) <;> obtain rfl := Option.some.inj hlast <;> exact absurd hdigit (by decide)

/-- A sign inside a term would begin another one. -/
theorem Term.Written.isSign_of_mem_tail (h : t.Written token) :
    ∀ c ∈ token.tail, isSign c = false := by
  cases h with
  | dice hmark hcounted hlettered hsided _ _ =>
      rw [List.append_assoc]
      refine hmark.isSign_of_mem_tail fun c hc => ?_
      rw [List.mem_append, List.mem_cons] at hc
      rcases hc with hc | rfl | hc
      · rcases hcounted with ⟨rfl, -⟩ | hcounted
        · simp at hc
        · exact isSign_of_isDigit (hcounted.digits c hc)
      · exact isSign_of_isDiceLetter (isDiceLetter_iff.mpr hlettered)
      · exact isSign_of_isDigit (hsided.digits c hc)
  | modifier hmark hnumeral _ =>
      exact hmark.isSign_of_mem_tail fun c hc => isSign_of_isDigit (hnumeral.digits c hc)

theorem readTerm_of_written (raw : String) (h : t.Written token) :
    readTerm raw token = .ok t := by
  rw [readTerm, if_neg h.ne_sign]
  cases t with
  | dice sign count sides =>
      rw [if_pos (written_dice_iff.mp h).1.any_isDiceLetter, readDice_of_written h]
  | modifier value =>
      cases h with
      | @modifier sign n mark digits hmark hnumeral hfits =>
          have hnone : (mark ++ digits).any isDiceLetter = false := by
            rw [List.any_append, hmark.any_isDiceLetter,
              Literal.Numeral.any_isDiceLetter hnumeral]
            rfl
          have hvalue : Literal.word? (mark ++ digits) = some (sign.toInt * n) :=
            word?_eq_some_iff.mpr ⟨sign, mark, digits, n, hmark, hnumeral, hfits, rfl, rfl⟩
          rw [if_neg (by simp [hnone]), hvalue]

theorem readTerm_eq_ok_iff {raw : String} : readTerm raw token = .ok t ↔ t.Written token := by
  refine ⟨fun h => ?_, readTerm_of_written raw⟩
  unfold readTerm at h
  split at h
  · simp at h
  · split at h
    · exact written_of_readDice h
    · split at h
      · rename_i hvalue
        obtain ⟨sign, mark, digits, n, hmark, hnumeral, hfits, rfl, rfl⟩ :=
          word?_eq_some_iff.mp hvalue
        obtain rfl := Except.ok.inj h
        exact .modifier hmark hnumeral hfits
      · simp at h

theorem readTerms_eq_ok_iff {raw : String} {row : List (List Char)} {terms : List Term} :
    readTerms raw row = .ok terms ↔ List.Forall₂ Term.Written terms row := by
  induction row generalizing terms with
  | nil => simp [readTerms, eq_comm]
  | cons token row ih =>
      rw [List.forall₂_cons_right_iff]
      constructor
      · intro h
        cases hterm : readTerm raw token with
        | error e => simp [readTerms, hterm, bind, Except.bind] at h
        | ok t =>
            cases hterms : readTerms raw row with
            | error e => simp [readTerms, hterm, hterms, bind, Except.bind] at h
            | ok ts =>
                simp only [readTerms, hterm, hterms, bind, Except.bind, pure, Except.pure,
                  Except.ok.injEq] at h
                exact ⟨t, ts, readTerm_eq_ok_iff.mp hterm, ih.mp hterms, h.symm⟩
      · rintro ⟨t, ts, hterm, hterms, rfl⟩
        rw [readTerms, readTerm_eq_ok_iff.mpr hterm, ih.mpr hterms]
        rfl

end Reading

section Formulas

variable {terms : List Term} {cs : List Char}

theorem exists_term_of_mem {R : Term → α → Prop} {row : List α} (h : List.Forall₂ R terms row)
    {x : α} (hx : x ∈ row) : ∃ t ∈ terms, R t x := by
  induction h with
  | nil => simp at hx
  | cons hterm _ ih =>
      rcases List.mem_cons.mp hx with rfl | hx
      · exact ⟨_, List.mem_cons_self, hterm⟩
      · obtain ⟨t, ht, hrelated⟩ := ih hx
        exact ⟨t, List.mem_cons_of_mem _ ht, hrelated⟩

/-- There is only one way to cut a row of terms into tokens. -/
theorem written_iff :
    Written terms cs ↔ cs ≠ [] ∧ List.Forall₂ Term.Written terms (tokens cs) := by
  constructor
  · rintro ⟨hne, row, rfl, hsign, hrow⟩
    have hterm : ∀ token ∈ row, ∃ t ∈ terms, t.Written token := fun _ => exists_term_of_mem hrow
    have hnonempty : ∀ token ∈ row, token ≠ [] := by
      rintro token htoken rfl
      obtain ⟨t, -, hwritten⟩ := hterm [] htoken
      obtain ⟨d, hlast, -⟩ := hwritten.getLast?_isDigit
      simp at hlast
    have hbody : ∀ token ∈ row, ∀ c ∈ token.tail, isSign c = false := by
      intro token htoken
      obtain ⟨t, -, hwritten⟩ := hterm token htoken
      exact hwritten.isSign_of_mem_tail
    rw [tokens_flatten hnonempty hbody hsign]
    refine ⟨fun hnil => ?_, hrow⟩
    cases row with
    | nil => exact hne (List.forall₂_nil_right_iff.mp hrow)
    | cons token row =>
        rw [List.flatten_cons, List.append_eq_nil_iff] at hnil
        exact hnonempty token (by simp) hnil.1
  · rintro ⟨hne, hrow⟩
    refine ⟨?_, tokens cs, flatten_tokens cs, fun _ => sign_of_mem_tail_tokens, hrow⟩
    rintro rfl
    rw [List.forall₂_nil_left_iff] at hrow
    exact hne (by rw [← flatten_tokens cs, hrow]; rfl)

theorem exists_written_of_forall₂ {terms : List Term} {row : List (List Char)}
    (h : List.Forall₂ Term.Written terms row) : ∀ t ∈ terms, ∃ token, t.Written token := by
  induction h with
  | nil => simp
  | cons hterm _ ih => exact List.forall_mem_cons.mpr ⟨⟨_, hterm⟩, ih⟩

namespace Formula

open Text

variable {s : String} {f : Formula}

theorem parse_of_blank (h : withoutBlanks s.toList = []) : parse s = .error .empty := by
  rw [parse, if_pos ((trim_eq_empty_iff s).mpr h)]

theorem parse_of_not_blank (h : withoutBlanks s.toList ≠ []) :
    parse s = (readTerms (trim s) (tokens (withoutBlanks s.toList))).map
      fun terms => ⟨trim s, diceFirst terms⟩ := by
  simp only [parse, toList_trim, withoutBlanks_trimChars]
  rw [if_neg ((trim_eq_empty_iff s).not.mpr h), if_neg (tokens_ne_nil h)]
  cases readTerms (trim s) (tokens (withoutBlanks s.toList)) <;> rfl

theorem parse_of_written {terms : List Term} (h : Written terms (withoutBlanks s.toList)) :
    parse s = .ok ⟨trim s, diceFirst terms⟩ := by
  obtain ⟨hne, hrow⟩ := written_iff.mp h
  rw [parse_of_not_blank hne, readTerms_eq_ok_iff.mpr hrow]
  rfl

theorem exists_terms_of_parse (h : parse s = .ok f) :
    ∃ terms, withoutBlanks s.toList ≠ [] ∧
      readTerms (trim s) (tokens (withoutBlanks s.toList)) = .ok terms ∧
      f = ⟨trim s, diceFirst terms⟩ := by
  by_cases hblank : withoutBlanks s.toList = []
  · simp [parse_of_blank hblank] at h
  · rw [parse_of_not_blank hblank] at h
    cases hterms : readTerms (trim s) (tokens (withoutBlanks s.toList)) with
    | error e => simp [hterms, Except.map] at h
    | ok terms =>
        rw [hterms] at h
        exact ⟨terms, hblank, rfl, (Except.ok.inj h).symm⟩

/-- A text is a formula if what is left of it without its blanks is a row of terms, one after the
other. The formula keeps the text, and its terms with the dice before the modifiers. -/
theorem parse_eq_ok_iff :
    parse s = .ok f ↔ ∃ terms, Written terms (withoutBlanks s.toList) ∧ f.raw = trim s ∧
      f.terms = terms.filter Term.isDice ++ terms.filter fun t => !t.isDice := by
  constructor
  · intro h
    obtain ⟨terms, hne, hterms, rfl⟩ := exists_terms_of_parse h
    exact ⟨terms, written_iff.mpr ⟨hne, readTerms_eq_ok_iff.mp hterms⟩, rfl, rfl⟩
  · rintro ⟨terms, hwritten, hraw, hterms⟩
    obtain ⟨hne, hrow⟩ := written_iff.mp hwritten
    rw [parse_of_not_blank hne, readTerms_eq_ok_iff.mpr hrow]
    change Except.ok (Formula.mk (trim s) (diceFirst terms)) = .ok f
    rw [← hraw]
    exact congrArg (fun ts => Except.ok (Formula.mk f.raw ts)) hterms.symm

example : parse " 2 D10 - 03 + d4 " =
    .ok ⟨"2 D10 - 03 + d4", [.dice .plus 2 10, .dice .plus 1 4, .modifier (-3)]⟩ := by cbv

theorem exists_written_of_parse (h : parse s = .ok f) :
    f.terms ≠ [] ∧ ∀ t ∈ f.terms, ∃ token, t.Written token := by
  obtain ⟨terms, hne, hread, rfl⟩ := exists_terms_of_parse h
  have hperm : (diceFirst terms).Perm terms := List.filter_append_perm Term.isDice terms
  have hrow := readTerms_eq_ok_iff.mp hread
  have hwritten : Written terms _ := written_iff.mpr ⟨hne, hrow⟩
  refine ⟨fun hnil => hwritten.1 ?_,
    fun t ht => exists_written_of_forall₂ hrow t (hperm.subset ht)⟩
  have hnone : diceFirst terms = [] := hnil
  exact (hnone ▸ hperm).nil_eq.symm

end Formula

end Formulas

end Dice

end Gamemaster
