import Gamemaster.Proofs.Dice.Range

namespace Gamemaster.Dice.Formula

open Gamemaster.Random (Source)
open Text

variable {text text' : String} {f g : Formula}

theorem flatMap_singles_diceFirst (terms : List Term) :
    (diceFirst terms).flatMap Term.singles = terms.flatMap Term.singles := by
  rw [flatMap_singles, filter_isDice_diceFirst, ← flatMap_singles]

theorem filterMap_modifier?_diceFirst (terms : List Term) :
    (diceFirst terms).filterMap Term.modifier? = terms.filterMap Term.modifier? := by
  have hinjective : Function.Injective (List.map Term.modifier) :=
    List.map_injective_iff.mpr fun m n h => Term.modifier.inj h
  apply hinjective
  rw [← filter_modifiers, filter_modifiers_diceFirst, filter_modifiers]

theorem exists_parse_append (hf : parse text = .ok f) (hg : parse text' = .ok g)
    (hsign : (withoutBlanks text'.toList).head?.any isSign = true) :
    ∃ ts us, f.terms = diceFirst ts ∧ g.terms = diceFirst us ∧
      parse (text ++ text') = .ok ⟨trim (text ++ text'), diceFirst (ts ++ us)⟩ := by
  obtain ⟨ts, hne, hts, rfl⟩ := exists_terms_of_parse hf
  obtain ⟨us, -, hus, rfl⟩ := exists_terms_of_parse hg
  have hcompact : withoutBlanks (text ++ text').toList =
      withoutBlanks text.toList ++ withoutBlanks text'.toList := by
    rw [String.toList_append, withoutBlanks_append]
  have hrow :
      List.Forall₂ Term.Written (ts ++ us) (tokens (withoutBlanks (text ++ text').toList)) := by
    rw [hcompact, tokens_append_signed hsign]
    exact List.rel_append (readTerms_eq_ok_iff.mp hts) (readTerms_eq_ok_iff.mp hus)
  have hnonempty : withoutBlanks (text ++ text').toList ≠ [] := by
    rw [hcompact]
    exact List.append_ne_nil_of_left_ne_nil hne _
  exact ⟨ts, us, rfl, rfl, parse_of_written (written_iff.mpr ⟨hnonempty, hrow⟩)⟩

/-- A formula that is followed by a signed one is a formula, with the dice of both before the
modifiers of both. Where the two are rolled one after the other, and both together from where the
first began, the dice come out the same, the totals add up, and the source ends in the same
place. -/
theorem append_signed (hf : parse text = .ok f) (hg : parse text' = .ok g)
    (hsign : (withoutBlanks text'.toList).head?.any isSign = true) :
    ∃ h, parse (text ++ text') = .ok h ∧
      h.terms = f.terms.filter Term.isDice ++ g.terms.filter Term.isDice ++
        (f.terms.filter (fun t => !t.isDice) ++ g.terms.filter fun t => !t.isDice) ∧
      ∀ exploding s r₁ s₁ r₂ s₂ r s', f.roll ⟨.none, exploding⟩ s = (.ok r₁, s₁) →
        g.roll ⟨.none, exploding⟩ s₁ = (.ok r₂, s₂) → h.roll ⟨.none, exploding⟩ s = (.ok r, s') →
        ∃ ns ns', ns.length = f.dice.length ∧ ns'.length = g.dice.length ∧
          r₁.values = ns ++ f.modifiers ∧ r₂.values = ns' ++ g.modifiers ∧
          r.values = ns ++ ns' ++ (f.modifiers ++ g.modifiers) ∧ r.total = r₁.total + r₂.total ∧
          s' = s₂ := by
  obtain ⟨ts, us, hts, hus, hparse⟩ := exists_parse_append hf hg hsign
  refine ⟨_, hparse, ?_, ?_⟩
  · rw [hts, hus, filter_isDice_diceFirst, filter_isDice_diceFirst, filter_modifiers_diceFirst,
      filter_modifiers_diceFirst, diceFirst, List.filter_append, List.filter_append]
  intro exploding s r₁ s₁ r₂ s₂ r s' hr₁ hr₂ hr
  obtain ⟨htotal₁, hvalues₁, rfl⟩ := eq_of_roll_ok hf hr₁
  obtain ⟨htotal₂, hvalues₂, rfl⟩ := eq_of_roll_ok hg hr₂
  obtain ⟨htotal, hvalues, rfl⟩ := eq_of_roll_ok hparse hr
  have hdice :
      (Formula.mk (trim (text ++ text')) (diceFirst (ts ++ us))).dice = f.dice ++ g.dice := by
    simp only [dice, hts, hus, flatMap_singles_diceFirst, List.flatMap_append]
  have hmodifiers : (Formula.mk (trim (text ++ text')) (diceFirst (ts ++ us))).modifiers =
      f.modifiers ++ g.modifiers := by
    simp only [modifiers, hts, hus, filterMap_modifier?_diceFirst, List.filterMap_append]
  rw [hdice, Die.valuesAll_append, hmodifiers] at hvalues htotal
  rw [hdice, Die.drawsAll_append, Source.skip_add]
  refine ⟨_, _, Die.length_valuesAll _ _, Die.length_valuesAll _ _, hvalues₁, hvalues₂,
    hvalues, ?_, rfl⟩
  rw [(Word.addAll?_zero_eq_some_iff.mp htotal).2, (Word.addAll?_zero_eq_some_iff.mp htotal₁).2,
    (Word.addAll?_zero_eq_some_iff.mp htotal₂).2]
  simp only [List.sum_append]
  omega

/-- Two dice that explode, and then the next die of the same source. -/
theorem append_signed_dragon :
    let f : Formula := ⟨"2D2 + 3", [.dice .plus 2 2, .modifier 3]⟩
    let g : Formula := ⟨"- 5 - 1d4", [.dice .minus 1 4, .modifier (-5)]⟩
    let s := Source.ofSeed "dragon"
    parse "2D2 + 3" = .ok f ∧ parse " - 5 - 1d4" = .ok g ∧
    (withoutBlanks " - 5 - 1d4".toList).head?.any isSign = true ∧
    ∃ h r₁ r₂ r, parse ("2D2 + 3" ++ " - 5 - 1d4") = .ok h ∧
      f.roll ⟨.none, true⟩ s = (.ok r₁, s.skip 4) ∧
      g.roll ⟨.none, true⟩ (s.skip 4) = (.ok r₂, s.skip 5) ∧
      h.roll ⟨.none, true⟩ s = (.ok r, s.skip 5) ∧ r₁.values = [3, 3, 3] ∧ r₂.values = [-1, -5] ∧
      r.values = [3, 3, -1, 3, -5] ∧ r.total = r₁.total + r₂.total := by
  intro f g s
  have hf : parse "2D2 + 3" = .ok f := by cbv
  have hg : parse " - 5 - 1d4" = .ok g := by cbv
  have hsign : (withoutBlanks " - 5 - 1d4".toList).head?.any isSign = true := by decide
  have hfDice : Die.valuesAll true f.dice s = [3, 3] := by decide +kernel
  have hgDice : Die.valuesAll true g.dice (s.skip 4) = [-1] := by decide +kernel
  have hfDraws : Die.drawsAll true f.dice s = 4 := by decide +kernel
  have hgDraws : Die.drawsAll true g.dice (s.skip 4) = 1 := by decide +kernel
  obtain ⟨h, hparse, hterms, hrolls⟩ := append_signed hf hg hsign
  have hall : h.dice = f.dice ++ g.dice ∧ h.modifiers = [3, -5] := by
    rw [dice, modifiers, hterms]
    exact ⟨rfl, rfl⟩
  have hDice : Die.valuesAll true h.dice s = [3, 3, -1] := by
    rw [hall.1, Die.valuesAll_append, hfDraws, hfDice, hgDice]
    rfl
  have hfTotal : Word.addAll? 0 (Die.valuesAll true f.dice s ++ f.modifiers) = some 9 := by
    rw [hfDice]
    decide
  have hgTotal : Word.addAll? 0 (Die.valuesAll true g.dice (s.skip 4) ++ g.modifiers) =
      some (-6) := by
    rw [hgDice]
    decide
  have hTotal : Word.addAll? 0 (Die.valuesAll true h.dice s ++ h.modifiers) = some 3 := by
    rw [hDice, hall.2]
    decide
  obtain ⟨r₁, hr₁, hvalues₁, -⟩ := roll_ok_of_tallies (tallies_of_parse hf true s) hfTotal
  obtain ⟨r₂, hr₂, hvalues₂, -⟩ :=
    roll_ok_of_tallies (tallies_of_parse hg true (s.skip 4)) hgTotal
  obtain ⟨r, hr, hvalues, -⟩ := roll_ok_of_tallies (tallies_of_parse hparse true s) hTotal
  rw [hfDraws] at hr₁
  rw [hgDraws, ← Source.skip_add] at hr₂
  obtain ⟨_, _, -, -, -, -, -, htotal, hskip⟩ := hrolls true s r₁ _ r₂ _ r _ hr₁ hr₂ hr
  rw [hskip] at hr
  refine ⟨hf, hg, hsign, h, r₁, r₂, r, hparse, hr₁, hr₂, hr, ?_, ?_, ?_, htotal⟩
  · rw [hvalues₁, hfDice]
    rfl
  · rw [hvalues₂, hgDice]
    rfl
  · rw [hvalues, hDice, hall.2]
    rfl

end Gamemaster.Dice.Formula
