import Gamemaster.Proofs.Dice.Grammar
import Gamemaster.Refusal
import Mathlib

namespace Gamemaster.Dice

/-- The token stands in the message of the fault, in quotes. -/
def Fault.Cites (f : Fault) (token : List Char) : Prop :=
  ∃ before after, f.message = before ++ quote (String.ofList token) ++ after

/-- A text cut just before its signs, and nowhere else. -/
structure Cut (cs : List Char) (row : List (List Char)) : Prop where
  whole : row.flatten = cs
  nonempty : ∀ token ∈ row, token ≠ []
  marked : ∀ token ∈ row.tail, token.head?.any isSign = true
  unbroken : ∀ token ∈ row, ∀ c ∈ token.tail, isSign c = false

/-- Why a token is no term, with the fault that says so. A number is first read, then checked to
be positive, and then compared with the limits. -/
inductive Spoils (formula : String) (token : List Char) : Fault → Prop
  | loneSign (lone : token = ['+'] ∨ token = ['-']) :
      Spoils formula token (.danglingSign (String.ofList token) formula)
  | shape (lettered : token.any isDiceLetter = true)
      (misshapen : ∀ sign count sides, ¬DiceShaped sign count sides token) :
      Spoils formula token (.unsupportedDice (String.ofList token))
  | count {sign : Sign} {count sides : Nat} (shaped : DiceShaped sign count sides token)
      (large : 2 ^ 32 ≤ count) :
      Spoils formula token (.countTooLarge (String.ofList token))
  | sides {sign : Sign} {count sides : Nat} (shaped : DiceShaped sign count sides token)
      (read : count < 2 ^ 32) (large : 2 ^ 32 ≤ sides) :
      Spoils formula token (.sidesTooLarge (String.ofList token))
  | zero {sign : Sign} {count sides : Nat} (shaped : DiceShaped sign count sides token)
      (read : count < 2 ^ 32 ∧ sides < 2 ^ 32) (zero : count = 0 ∨ sides = 0) :
      Spoils formula token (.notPositive (String.ofList token))
  | limits {sign : Sign} {count sides : Nat} (shaped : DiceShaped sign count sides token)
      (read : count < 2 ^ 32 ∧ sides < 2 ^ 32) (positive : 1 ≤ count ∧ 1 ≤ sides)
      (beyond : 1000 < count ∨ 1000000 < sides) :
      Spoils formula token (.beyondLimits (String.ofList token))
  | modifier (long : ¬(token = ['+'] ∨ token = ['-'])) (plain : token.any isDiceLetter = false)
      (illegible : ∀ value, ¬(Term.modifier value).Written token) :
      Spoils formula token (.unsupportedModifier (String.ofList token))

section Cuts

theorem ne_nil_of_mem_tokens {cs token : List Char} (h : token ∈ tokens cs) : token ≠ [] := by
  induction cs with
  | nil => simp [tokens] at h
  | cons c cs ih =>
      simp only [tokens] at h
      split at h
      · simp_all
      · rename_i first row htokens
        rw [htokens] at ih
        split at h
        · rcases List.mem_cons.mp h with rfl | h
          · simp
          · exact ih h
        · rcases List.mem_cons.mp h with rfl | h
          · simp
          · exact ih (List.mem_cons_of_mem _ h)

theorem isSign_of_mem_tokens {cs token : List Char} (h : token ∈ tokens cs) :
    ∀ c ∈ token.tail, isSign c = false := by
  induction cs generalizing token with
  | nil => simp [tokens] at h
  | cons c cs ih =>
      simp only [tokens] at h
      split at h
      · simp_all
      · rename_i first row htokens
        rw [htokens] at ih
        split at h
        · rcases List.mem_cons.mp h with rfl | h
          · simp
          · exact ih h
        · rename_i hsign
          rcases List.mem_cons.mp h with rfl | h
          · -- The character joins a token that begins without a sign.
            intro d hd
            cases first with
            | nil => simp at hd
            | cons e first =>
                rcases List.mem_cons.mp hd with rfl | hd
                · simpa using hsign
                · exact ih List.mem_cons_self d hd
          · exact ih (List.mem_cons_of_mem _ h)

theorem cut_tokens (cs : List Char) : Cut cs (tokens cs) where
  whole := flatten_tokens cs
  nonempty := fun _ => ne_nil_of_mem_tokens
  marked := fun _ => sign_of_mem_tail_tokens
  unbroken := fun _ => isSign_of_mem_tokens

end Cuts

section Tokens

variable {formula : String} {token : List Char} {fault : Fault}

theorem spoils_of_readDice (lettered : token.any isDiceLetter = true)
    (h : readDice token = .error fault) :
    Spoils formula token fault := by
  by_cases hshape : ∃ sign count sides, DiceShaped sign count sides token
  · obtain ⟨sign, count, sides, hshape⟩ := hshape
    rw [readDice_of_shaped hshape] at h
    unfold maxRead maxCount maxSides at h
    split at h
    · obtain rfl := Except.error.inj h
      exact .count hshape (by omega)
    split at h
    · obtain rfl := Except.error.inj h
      exact .sides hshape (by omega) (by omega)
    split at h
    · obtain rfl := Except.error.inj h
      exact .zero hshape (by omega) ‹_›
    split at h
    · obtain rfl := Except.error.inj h
      exact .limits hshape (by omega) (by omega) ‹_›
    · simp at h
  · simp only [not_exists] at hshape
    rw [readDice_of_misshapen hshape] at h
    obtain rfl := Except.error.inj h
    exact .shape lettered hshape

theorem DiceShaped.ne_sign {sign : Sign} {count sides : Nat}
    (h : DiceShaped sign count sides token) :
    ¬(token = ['+'] ∨ token = ['-']) := by
  have hletter := h.any_isDiceLetter
  rintro (rfl | rfl) <;> simp [isDiceLetter] at hletter

theorem readTerm_of_shaped {sign : Sign} {count sides : Nat}
    (h : DiceShaped sign count sides token) :
    readTerm formula token = readDice token := by
  rw [readTerm, if_neg h.ne_sign, if_pos h.any_isDiceLetter]

theorem maxRead_lt_iff {n : Nat} : maxRead < n ↔ 2 ^ 32 ≤ n := by
  unfold maxRead
  omega

theorem readTerm_of_spoils (h : Spoils formula token fault) :
    readTerm formula token = .error fault := by
  have hsmall : ∀ {n : Nat}, n < 2 ^ 32 → ¬maxRead < n := fun hn => by rw [maxRead_lt_iff]; omega
  cases h with
  | loneSign lone => rw [readTerm, if_pos lone]
  | shape lettered misshapen =>
      have hlong : ¬(token = ['+'] ∨ token = ['-']) := by
        rintro (rfl | rfl) <;> simp [isDiceLetter] at lettered
      rw [readTerm, if_neg hlong, if_pos lettered, readDice_of_misshapen misshapen]
  | count shaped large =>
      rw [readTerm_of_shaped shaped, readDice_of_shaped shaped, if_pos (maxRead_lt_iff.mpr large)]
  | sides shaped read large =>
      rw [readTerm_of_shaped shaped, readDice_of_shaped shaped, if_neg (hsmall read),
        if_pos (maxRead_lt_iff.mpr large)]
  | zero shaped read zero =>
      rw [readTerm_of_shaped shaped, readDice_of_shaped shaped, if_neg (hsmall read.1),
        if_neg (hsmall read.2), if_pos zero]
  | limits shaped read positive beyond =>
      rw [readTerm_of_shaped shaped, readDice_of_shaped shaped, if_neg (hsmall read.1),
        if_neg (hsmall read.2), if_neg (by omega)]
      exact if_pos beyond
  | modifier long plain illegible =>
      rw [readTerm, if_neg long, if_neg (by simp [plain])]
      cases hvalue : Literal.word? token with
      | none => rfl
      | some value =>
          have hread : readTerm formula token = .ok (.modifier value) := by
            rw [readTerm, if_neg long, if_neg (by simp [plain]), hvalue]
          exact absurd (readTerm_eq_ok_iff.mp hread) (illegible value)

theorem Spoils.not_written (h : Spoils formula token fault) (t : Term) : ¬t.Written token := by
  intro ht
  have hread := readTerm_of_spoils h
  rw [readTerm_of_written formula ht] at hread
  simp at hread

theorem spoils_of_readTerm (h : readTerm formula token = .error fault) :
    Spoils formula token fault := by
  have hbad : ∀ t : Term, ¬t.Written token := by
    intro t ht
    rw [readTerm_of_written formula ht] at h
    simp at h
  unfold readTerm at h
  split at h
  · obtain rfl := Except.error.inj h
    exact .loneSign ‹_›
  · split at h
    · exact spoils_of_readDice ‹_› h
    · split at h
      · simp at h
      · obtain rfl := Except.error.inj h
        exact .modifier ‹_› (Bool.eq_false_iff.mpr ‹_›) fun value => hbad (.modifier value)

theorem Fault.cites_last {f : Fault} {before : String}
    (h : f.message = before ++ quote (String.ofList token)) : f.Cites token :=
  ⟨before, "", by rw [h, String.append_empty]⟩

theorem Spoils.not_modifier (h : Spoils formula token fault)
    (hdice : token = ['+'] ∨ token = ['-'] ∨ token.any isDiceLetter = true) :
    fault.kind = .malformedFormula ∧ fault.Cites token := by
  cases h with
  | loneSign _ => exact ⟨rfl, _, _, String.append_assoc⟩
  | shape _ _ => exact ⟨rfl, Fault.cites_last rfl⟩
  | count _ _ => exact ⟨rfl, Fault.cites_last rfl⟩
  | sides _ _ _ => exact ⟨rfl, Fault.cites_last rfl⟩
  | zero _ _ _ => exact ⟨rfl, _, _, rfl⟩
  | limits _ _ _ _ =>
      refine ⟨rfl, "malformed dice notation: dice token ", " exceeds " ++ toString maxCount ++
        " dice of at most " ++ toString maxSides ++ " sides", ?_⟩
      simp only [← String.append_assoc]
      rfl
  | modifier long plain _ => simp_all

theorem Spoils.cites (h : Spoils formula token fault) :
    if token = ['+'] ∨ token = ['-'] ∨ token.any isDiceLetter = true then
      fault.kind = .malformedFormula ∧ fault.Cites token
    else fault = .unsupportedModifier (String.ofList token) := by
  split
  · exact h.not_modifier ‹_›
  · rename_i hplain
    rw [not_or, not_or] at hplain
    cases h with
    | loneSign lone => exact (lone.elim hplain.1 hplain.2.1).elim
    | shape lettered _ => exact absurd lettered hplain.2.2
    | count shaped _ => exact absurd shaped.any_isDiceLetter hplain.2.2
    | sides shaped _ _ => exact absurd shaped.any_isDiceLetter hplain.2.2
    | zero shaped _ _ => exact absurd shaped.any_isDiceLetter hplain.2.2
    | limits shaped _ _ _ => exact absurd shaped.any_isDiceLetter hplain.2.2
    | modifier _ _ _ => rfl

theorem readTerms_eq_error_iff {row : List (List Char)} :
    readTerms formula row = .error fault ↔ ∃ front token rest, row = front ++ token :: rest ∧
      (∀ t ∈ front, ∃ term : Term, term.Written t) ∧ Spoils formula token fault := by
  induction row with
  | nil => simp [readTerms]
  | cons first row ih =>
      cases hfirst : readTerm formula first with
      | error e =>
          have hread : readTerms formula (first :: row) = .error e := by
            simp [readTerms, hfirst, bind, Except.bind]
          have hspoils := spoils_of_readTerm hfirst
          rw [hread, Except.error.injEq]
          constructor
          · rintro rfl
            exact ⟨[], first, row, rfl, by simp, hspoils⟩
          -- All that stands before the token is a term, so it is the first that is none.
          · rintro ⟨_ | ⟨t, front⟩, token, rest, hrow, hfront, htoken⟩
            · obtain ⟨rfl, -⟩ := List.cons.inj hrow
              exact Except.error.inj (hfirst.symm.trans (readTerm_of_spoils htoken))
            · obtain ⟨rfl, -⟩ := List.cons.inj hrow
              obtain ⟨term, hterm⟩ := hfront first List.mem_cons_self
              exact absurd hterm (hspoils.not_written term)
      | ok t =>
          have hwritten := readTerm_eq_ok_iff.mp hfirst
          have hread :
              readTerms formula (first :: row) = (readTerms formula row).map (t :: ·) := by
            simp only [readTerms, hfirst, bind, Except.bind]
            cases readTerms formula row <;> rfl
          have herror : readTerms formula (first :: row) = .error fault ↔
              readTerms formula row = .error fault := by
            rw [hread]
            cases readTerms formula row <;> simp [Except.map]
          rw [herror, ih]
          constructor
          · rintro ⟨front, token, rest, rfl, hfront, htoken⟩
            exact ⟨first :: front, token, rest, rfl,
              List.forall_mem_cons.mpr ⟨⟨t, hwritten⟩, hfront⟩, htoken⟩
          · rintro ⟨_ | ⟨u, front⟩, token, rest, hrow, hfront, htoken⟩
            · obtain ⟨rfl, -⟩ := List.cons.inj hrow
              exact absurd hwritten (htoken.not_written t)
            · obtain ⟨-, rfl⟩ := List.cons.inj hrow
              exact ⟨front, token, rest, rfl, (List.forall_mem_cons.mp hfront).2, htoken⟩

end Tokens

namespace Formula

open Text

variable {s : String}

theorem withoutBlanks_ne_nil (h : isBlankText s = false) : withoutBlanks s.toList ≠ [] := by
  intro hnil
  have hall : s.toList.all isBlank = true := by
    simpa [withoutBlanks] using hnil
  rw [isBlankText, hall] at h
  cases h

theorem parse_eq_error_iff (h : withoutBlanks s.toList ≠ []) {fault : Fault} :
    parse s = .error fault ↔ ∃ front token rest,
      tokens (withoutBlanks s.toList) = front ++ token :: rest ∧
      (∀ t ∈ front, ∃ term : Term, term.Written t) ∧ Spoils (trim s) token fault := by
  rw [parse_of_not_blank h, ← readTerms_eq_error_iff]
  cases readTerms (trim s) (tokens (withoutBlanks s.toList)) <;> simp [Except.map]

/-- Every text that is not blank has a token, so that it cannot fail for the lack of one. -/
theorem parse_ne_unreadable (s formula : String) : parse s ≠ .error (.unreadable formula) := by
  by_cases h : withoutBlanks s.toList = []
  · simp [parse_of_blank h]
  · rw [ne_eq, parse_eq_error_iff h]
    rintro ⟨front, token, rest, -, -, hspoils⟩
    cases hspoils

/-- A text that is not blank is cut into tokens at its signs. If it is no formula, the leftmost
token that is no term is cited. -/
theorem cites_leftmost_spoiled (h : isBlankText s = false) :
    let row := tokens (withoutBlanks s.toList)
    (row ≠ [] ∧ Cut (withoutBlanks s.toList) row) ∧
    (∀ fault, parse s = .error fault ↔ ∃ front token rest, row = front ++ token :: rest ∧
      (∀ t ∈ front, ∃ term : Term, term.Written t) ∧ Spoils (trim s) token fault) ∧
    (∀ token fault, Spoils (trim s) token fault →
      (∀ term : Term, ¬term.Written token) ∧
      if token = ['+'] ∨ token = ['-'] ∨ token.any isDiceLetter = true then
        fault.kind = .malformedFormula ∧ fault.Cites token
      else fault = .unsupportedModifier (String.ofList token)) ∧
    ∀ formula, parse s ≠ .error (.unreadable formula) := by
  intro row
  have hne := withoutBlanks_ne_nil h
  refine ⟨⟨tokens_ne_nil hne, cut_tokens _⟩, fun fault => parse_eq_error_iff hne, ?_,
    parse_ne_unreadable s⟩
  exact fun token fault hspoils => ⟨hspoils.not_written, hspoils.cites⟩

/-- The third token would be wrong as well, but is not reached. -/
theorem cites_leftmost_spoiled_modifier :
    isBlankText " 2d6 + 3x - d0" = false ∧
    parse " 2d6 + 3x - d0" = .error (.unsupportedModifier "+3x") ∧
    ∃ front token rest, tokens (withoutBlanks " 2d6 + 3x - d0".toList) = front ++ token :: rest ∧
      (∀ t ∈ front, ∃ term : Term, term.Written t) ∧
      Spoils (trim " 2d6 + 3x - d0") token (.unsupportedModifier "+3x") := by
  have hblank : isBlankText " 2d6 + 3x - d0" = false := by decide
  have hparse : parse " 2d6 + 3x - d0" = .error (.unsupportedModifier "+3x") := by cbv
  obtain ⟨-, hfault, -⟩ := cites_leftmost_spoiled hblank
  exact ⟨hblank, hparse, (hfault _).mp hparse⟩

end Formula

end Gamemaster.Dice
