import Gamemaster.Proofs.Store.Growth

namespace Gamemaster

theorem Entrant.pairwise_lineUp (roster : List Member) :
    (lineUp roster).Pairwise fun a b => b.initiative < a.initiative ∨
      (b.initiative = a.initiative ∧ a.position ≤ b.position) := by
  let le : Entrant → Entrant → Bool := fun a b => decide (b.initiative ≤ a.initiative)
  have htrans : ∀ a b c, le a b → le b c → le a c := by
    intro a b c hab hbc
    simp only [le, decide_eq_true_eq] at *
    omega
  have htotal : ∀ a b, le a b || le b a := by
    intro a b
    simp only [le, Bool.or_eq_true, decide_eq_true_eq]
    omega
  -- The sort is stable: it sorts the members with their places, and those settle the ties.
  have hsorted :=
    List.pairwise_mergeSort (List.zipIdxLE_trans htrans) (List.zipIdxLE_total htotal)
    (ofRoster roster).zipIdx
  have hplace : ∀ p ∈ (ofRoster roster).zipIdx, p.1.position = p.2 := by
    intro p hp
    obtain ⟨i, hi, rfl⟩ := List.getElem_of_mem hp
    simp [ofRoster]
  change ((ofRoster roster).mergeSort le).Pairwise _
  rw [← List.mergeSort_zipIdx, List.pairwise_map]
  refine hsorted.imp_of_mem fun {p q} hp hq hle => ?_
  rw [hplace p (List.mem_mergeSort.mp hp), hplace q (List.mem_mergeSort.mp hq)]
  simp only [List.zipIdxLE, le, decide_eq_true_eq] at hle
  split at hle
  · split at hle
    · exact .inr ⟨by omega, by simpa using hle⟩
    · exact .inl (by omega)
  · simp at hle

namespace Store

variable {s s₁ s' : Store} {campaignId : String} {encounterId : Option String}
  {roster : List Member} {combat : Combat} {combatants : List Combatant} {e : Event}

theorem inOrder_inserted
    (inserted : s.insertCombat campaignId encounterId roster = ((combat, combatants), s₁)) :
    Combatant.inOrder (combatants.map fun c => c.kept.record) =
      combatants.map fun c => c.kept.record := by
  obtain ⟨-, hcombatants, -⟩ := eq_of_insertCombat inserted
  refine List.mergeSort_of_pairwise (List.pairwise_map.mpr ?_)
  rw [hcombatants, List.pairwise_iff_getElem]
  intro i j hi hj hij
  obtain ⟨stats, hrecord⟩ := Combatant.record_kept (((Entrant.lineUp roster).mapIdx fun i e =>
    e.toCombatant combat.id (idOf "combatant" (s.issued.combatants + i + 1)))[i])
  obtain ⟨stats', hrecord'⟩ := Combatant.record_kept (((Entrant.lineUp roster).mapIdx fun i e =>
    e.toCombatant combat.id (idOf "combatant" (s.issued.combatants + i + 1)))[j])
  rw [hrecord, hrecord']
  rw [List.length_mapIdx] at hi hj
  have hpair := List.pairwise_iff_getElem.mp (Entrant.pairwise_lineUp roster) i j hi hj hij
  simpa [Entrant.toCombatant] using hpair

theorem roster_inserted (h : s.Tidy)
    (inserted : s.insertCombat campaignId encounterId roster = ((combat, combatants), s₁)) :
    s₁.roster combat.id = combatants.map fun c => c.kept.record := by
  have horder := inOrder_inserted inserted
  have hold : (s.combatants.filter fun k => k.record.combatId = combat.id) = [] := by
    rw [List.filter_eq_nil_iff]
    intro k hk
    obtain ⟨r, hr, hid⟩ := h.owned k hk
    rw [← hid, decide_eq_true_eq]
    exact combatId_ne h inserted hr
  have hnew : ((combatants.map Combatant.kept).filter fun k => k.record.combatId = combat.id) =
      combatants.map Combatant.kept := by
    rw [List.filter_eq_self]
    exact fun k hk => decide_eq_true (combatId_inserted inserted hk)
  obtain ⟨-, -, rfl⟩ := eq_of_insertCombat inserted
  rw [Store.roster, List.filter_append, hold, hnew, List.nil_append, List.map_map]
  exact horder

theorem roster_of_start (h : s.Tidy)
    (inserted : s.insertCombat campaignId encounterId roster = ((combat, combatants), s₁))
    (logged : s₁.append e = .ok s') :
    s'.roster combat.id = combatants.map fun c => c.kept.record := by
  have hroster := roster_inserted h inserted
  obtain ⟨events, -, rfl⟩ := eq_of_append logged
  exact hroster

end Store

end Gamemaster
