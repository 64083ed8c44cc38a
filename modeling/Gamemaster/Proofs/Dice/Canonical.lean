import Gamemaster.Proofs.Dice.Grammar
import Mathlib

namespace Gamemaster

namespace Text

theorem trimChars_of_not_blank {cs : List Char} (h : ∀ c ∈ cs, isBlank c = false) :
    trimChars cs = cs := by
  have hkeep : ∀ ds : List Char, (∀ c ∈ ds, isBlank c = false) → ds.dropWhile isBlank = ds := by
    intro ds hds
    cases ds with
    | nil => rfl
    | cons d ds => rw [List.dropWhile_cons_of_neg (by simp [hds d])]
  rw [trimChars, hkeep cs h, hkeep cs.reverse fun c hc => h c (List.mem_reverse.mp hc),
    List.reverse_reverse]

theorem withoutBlanks_of_not_blank {cs : List Char} (h : ∀ c ∈ cs, isBlank c = false) :
    withoutBlanks cs = cs :=
  List.filter_eq_self.mpr fun c hc => by simp [h c hc]

end Text

namespace Dice

open Gamemaster.Literal (Numeral)
open Text

theorem numeral_toDigits (n : Nat) : Numeral n (Nat.toDigits 10 n) where
  nonempty := Nat.toDigits_ne_nil
  digits := fun _ hc => Nat.isDigit_of_mem_toDigits (by decide) (by decide) hc
  value := Nat.ofDigitChars_ten_toDigits.symm

namespace Sign

theorem written_text (sign : Sign) : sign.Written sign.text.toList := by
  cases sign with
  | plus => exact .plus
  | minus => exact .minus

theorem head?_text_append (sign : Sign) (cs : List Char) :
    (sign.text.toList ++ cs).head?.any isSign = true := by
  cases sign <;> rfl

theorem Written.isTermChar_of_mem {sign : Sign} {mark : List Char} (h : sign.Written mark) :
    ∀ c ∈ mark, isTermChar c = true := by
  cases h with
  | omitted => exact List.forall_mem_nil _
  | plus => exact List.forall_mem_singleton.mpr (by decide)
  | minus => exact List.forall_mem_singleton.mpr (by decide)

end Sign

theorem isTermChar_of_mem_numeral {n : Nat} {digits : List Char} (h : Numeral n digits) :
    ∀ c ∈ digits, isTermChar c = true :=
  fun c hc => isTermChar_iff.mpr (.inr (h.digits c hc))

theorem toList_toString (n : Int) :
    (toString n).toList = (if n < 0 then ['-'] else []) ++ Nat.toDigits 10 n.natAbs := by
  rw [Int.toString_eq_repr, Int.repr_eq_if]
  by_cases hneg : n < 0
  · have habs : (-n).toNat = n.natAbs := by omega
    rw [if_neg (by omega), if_pos hneg, habs, String.toList_append, Nat.toList_repr]
    rfl
  · have habs : n.toNat = n.natAbs := by omega
    rw [if_pos (by omega), if_neg hneg, habs, Nat.toList_repr, List.nil_append]

theorem exists_sign_signed (n : Int) : ∃ sign : Sign, n = sign.toInt * n.natAbs ∧
    (signed n).toList = sign.text.toList ++ Nat.toDigits 10 n.natAbs := by
  unfold signed
  by_cases hneg : n < 0
  · refine ⟨.minus, by simp only [Sign.toInt]; omega, ?_⟩
    rw [if_pos hneg, toList_toString, if_pos hneg]
    rfl
  · refine ⟨.plus, by simp only [Sign.toInt]; omega, ?_⟩
    rw [if_neg hneg, String.toList_append, toList_toString, if_neg hneg]
    rfl

namespace Term

theorem toList_render_dice (sign : Sign) (count sides : Nat) :
    (dice sign count sides).render.toList =
      sign.text.toList ++ Nat.toDigits 10 count ++ 'd' :: Nat.toDigits 10 sides := by
  simp [render, String.toList_append]

theorem head?_render (t : Term) : t.render.toList.head?.any isSign = true := by
  cases t with
  | dice sign count sides =>
      rw [toList_render_dice, List.append_assoc]
      exact sign.head?_text_append _
  | modifier value =>
      obtain ⟨sign, -, hsigned⟩ := exists_sign_signed value
      rw [render, hsigned]
      exact sign.head?_text_append _

namespace Written

variable {t : Term} {token : List Char}

theorem isTermChar_of_mem (h : t.Written token) : ∀ c ∈ token, isTermChar c = true := by
  cases h with
  | dice marked counted lettered sided _ _ =>
      simp only [List.forall_mem_append, List.forall_mem_cons]
      refine ⟨⟨marked.isTermChar_of_mem, ?_⟩, ?_, isTermChar_of_mem_numeral sided⟩
      · rcases counted with ⟨rfl, -⟩ | counted
        · simp
        · exact isTermChar_of_mem_numeral counted
      · rcases lettered with rfl | rfl <;> rfl
  | modifier marked numeral _ =>
      exact List.forall_mem_append.mpr
        ⟨marked.isTermChar_of_mem, isTermChar_of_mem_numeral numeral⟩

theorem rendered (h : t.Written token) : t.Written t.render.toList := by
  cases h with
  | @dice sign count sides _ _ _ _ _ _ _ _ countBounds sidesBounds =>
      rw [toList_render_dice]
      exact .dice sign.written_text (.inr (numeral_toDigits count)) (.inl rfl)
        (numeral_toDigits sides) countBounds sidesBounds
  | @modifier sign n _ _ _ _ fits =>
      generalize sign.toInt * n = value at fits
      obtain ⟨sign, hvalue, hsigned⟩ := exists_sign_signed value
      rw [render, hsigned]
      have hwritten :=
        Written.modifier sign.written_text (numeral_toDigits value.natAbs) (hvalue ▸ fits)
      rwa [← hvalue] at hwritten

end Written

end Term

theorem filter_isDice_diceFirst (terms : List Term) :
    (diceFirst terms).filter Term.isDice = terms.filter Term.isDice := by
  simp [diceFirst, List.filter_append, List.filter_filter]

theorem filter_modifiers_diceFirst (terms : List Term) :
    ((diceFirst terms).filter fun t => !t.isDice) = terms.filter fun t => !t.isDice := by
  simp [diceFirst, List.filter_append, List.filter_filter]

theorem diceFirst_diceFirst (terms : List Term) :
    diceFirst (diceFirst terms) = diceFirst terms := by
  rw [diceFirst, filter_isDice_diceFirst, filter_modifiers_diceFirst, ← diceFirst]

namespace Formula

variable {terms : List Term} {text : String} {f : Formula}

def canonical (f : Formula) : String := String.join (f.terms.map Term.render)

/-- Terms that can be written make a notation as they are rendered: it is cut again before the
sign of each. -/
theorem parse_rendered (hne : terms ≠ []) (h : ∀ t ∈ terms, ∃ token, t.Written token) :
    let text := String.join (terms.map Term.render)
    parse text = .ok ⟨text, diceFirst terms⟩ := by
  intro text
  let row := terms.map fun t => t.render.toList
  have hchars : text.toList = row.flatten := by
    rw [String.toList_join, List.flatMap_map]
    rfl
  have hterm : ∀ t ∈ terms, t.Written t.render.toList := fun t ht => (h t ht).elim fun _ =>
    Term.Written.rendered
  have hblank : ∀ c ∈ text.toList, isBlank c = false := by
    intro c hc
    rw [hchars] at hc
    obtain ⟨token, htoken, hc⟩ := List.mem_flatten.mp hc
    obtain ⟨t, ht, rfl⟩ := List.mem_map.mp htoken
    exact isBlank_of_isTermChar ((hterm t ht).isTermChar_of_mem c hc)
  have hwritten : Written terms text.toList := by
    refine ⟨hne, row, hchars.symm, fun token htoken => ?_, List.forall₂_map_right_iff.mpr ?_⟩
    · obtain ⟨t, -, rfl⟩ := List.mem_map.mp (List.mem_of_mem_tail htoken)
      exact t.head?_render
    · exact List.forall₂_same.mpr hterm
  have htrim :
      trim text = text := by rw [trim, trimChars_of_not_blank hblank, String.ofList_toList]
  rw [← withoutBlanks_of_not_blank hblank] at hwritten
  rw [parse_of_written hwritten, htrim]

theorem parse_canonical_terms (h : parse text = .ok f) :
    parse f.canonical = .ok ⟨f.canonical, f.terms⟩ := by
  obtain ⟨hne, hwritten⟩ := exists_written_of_parse h
  obtain ⟨terms, -, -, rfl⟩ := exists_terms_of_parse h
  have hrendered := parse_rendered hne hwritten
  rwa [diceFirst_diceFirst] at hrendered

/-- The canonical notation is read as the same terms and is its own canonical notation, and
formulas with the same terms are those with the same canonical notation. -/
theorem parse_canonical (h : parse text = .ok f) :
    (∃ f', parse f.canonical = .ok f' ∧ f'.raw = f.canonical ∧ f'.terms = f.terms ∧
      f'.canonical = f.canonical) ∧
    ∀ text' f', parse text' = .ok f' → (f'.canonical = f.canonical ↔ f'.terms = f.terms) := by
  have hagain := parse_canonical_terms h
  refine ⟨⟨_, hagain, rfl, rfl, rfl⟩, fun text' f' h' => ?_⟩
  constructor
  · intro hsame
    have hagain' := parse_canonical_terms h'
    rw [hsame, hagain] at hagain'
    exact (congrArg Formula.terms (Except.ok.inj hagain')).symm
  · intro hterms
    rw [canonical, hterms, canonical]

/-- Signs, counts and letters that may be left out or vary, zero, leading zeros and the least
modifier. -/
theorem parse_canonical_least :
    let f : Formula := ⟨"- D20 + 007 - 9223372036854775808 - 0",
      [.dice .minus 1 20, .modifier 7, .modifier Word.low, .modifier 0]⟩
    parse " - D20 + 007 - 9223372036854775808 - 0 " = .ok f ∧
    f.canonical = "-1d20+7-9223372036854775808+0" ∧
    ∃ f', parse f.canonical = .ok f' ∧ f'.terms = f.terms := by
  intro f
  have hparse : parse " - D20 + 007 - 9223372036854775808 - 0 " = .ok f := by cbv
  obtain ⟨f', hf', -, hterms, -⟩ := (parse_canonical hparse).1
  exact ⟨hparse, by cbv, f', hf', hterms⟩

end Formula

end Dice

end Gamemaster
