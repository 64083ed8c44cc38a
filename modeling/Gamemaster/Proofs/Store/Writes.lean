import Gamemaster.Proofs.Combatant.Order
import Mathlib.Logic.Relation

namespace Gamemaster.Store

/-- A single write. The turn that is written to a combat, and the fields that are written to a
combatant, may be any. -/
inductive Write : Store → Store → Prop
  | start {campaignId : String} {encounterId : Option String} {roster : List Member}
      {combat : Combat} {combatants : List Combatant} {s s' : Store} (nonempty : roster ≠ [])
      (inserted : s.insertCombat campaignId encounterId roster = ((combat, combatants), s')) :
        Write s s'
  | act {c : Combatant} {s s' : Store} (written : s.commitCombatant? c = some s') : Write s s'
  | turn {id : String} {t : Turn} {s s' : Store}
      (written : s.commitTurn? id t = some s') : Write s s'
  | build {campaignId name difficulty id : String} {notes : Option String} {roster : List Member}
      {s s' : Store}
      (inserted : s.insertEncounter campaignId name difficulty notes roster = (id, s')) :
      Write s s'
  | create {name dice id : String} {campaignId scope : Option String} {entries : List TableEntry}
      {s s' : Store}
      (inserted : s.insertTable campaignId name dice scope entries = (id, s')) : Write s s'
  | note {e : Event} {s s' : Store} (logged : s.append e = .ok s') : Write s s'

/-- Whether a store may become another by writes. -/
def Reaches : Store → Store → Prop := Relation.ReflTransGen Write

/-- A combat with the combatants that were inserted with it, whatever has been written to their
rows. -/
structure Musters (combatId : String) (rows : List (Kept Combatant)) (s : Store) : Prop where
  found : ∃ row ∈ s.combats, row.combat.id = combatId
  roster : (s.roster combatId).map Combatant.identity = rows.map fun k => k.record.identity
  /-- Rows that could be read at first can be read as long as they have not outgrown their
  revisions. -/
  readable : (∀ k ∈ rows, k.damaged = false) → ∀ k ∈ s.combatants, k.record.combatId = combatId →
    Word.Fits k.record.revision → k.damaged = false

variable {s s₁ s' : Store} {combatId : String} {rows : List (Kept Combatant)}

theorem musters_inserted {campaignId : String} {encounterId : Option String}
    {roster : List Member} {combat : Combat} {combatants : List Combatant} (h : s.Tidy)
    (inserted : s.insertCombat campaignId encounterId roster = ((combat, combatants), s')) :
    s'.Musters combat.id (combatants.map Combatant.kept) := by
  have hroster := roster_inserted h inserted
  have hnew := fun r => combatId_ne (r := r) h inserted
  obtain ⟨-, -, rfl⟩ := eq_of_insertCombat inserted
  refine ⟨⟨_, List.mem_append_right _ (List.mem_singleton.mpr rfl), rfl⟩, ?_,
    fun hrows k hk hid _ => ?_⟩
  · rw [hroster, List.map_map, List.map_map]
    rfl
  · rcases List.mem_append.mp hk with hk | hk
    · obtain ⟨r, hr, hown⟩ := h.owned k hk
      exact absurd (hown.trans hid) (hnew r hr)
    · exact hrows k hk

namespace Write

theorem tidy (h : Write s s') (hs : s.Tidy) : s'.Tidy := by
  cases h with
  | start nonempty inserted => exact tidy_inserted hs inserted nonempty
  | act written =>
      obtain ⟨-, rfl⟩ := eq_of_commitCombatant? written
      refine hs.map_combatants (fun row _ => by split <;> rfl) fun row _ => ?_
      split
      · exact Int.le_of_lt (Int.lt_succ _)
      · exact Int.le_refl _
  | turn written =>
      obtain ⟨-, rfl⟩ := eq_of_commitTurn? written
      exact hs.map_combats fun row _ => by split <;> exact ⟨rfl, rfl⟩
  | build inserted =>
      obtain ⟨-, rfl⟩ := Prod.mk.inj inserted
      exact tidy_of_rows hs rfl hs.log rfl rfl ⟨rfl, rfl⟩
  | create inserted =>
      obtain ⟨-, rfl⟩ := Prod.mk.inj inserted
      exact tidy_of_rows hs rfl hs.log rfl rfl ⟨rfl, rfl⟩
  | note logged => exact hs.of_append logged

theorem mem_combat (h : Write s s') {row : CombatRow} (hrow : row ∈ s.combats) :
    ∃ row' ∈ s'.combats, row'.combat.id = row.combat.id := by
  cases h with
  | start nonempty inserted =>
      obtain ⟨-, -, rfl⟩ := eq_of_insertCombat inserted
      exact ⟨row, List.mem_append_left _ hrow, rfl⟩
  | act written =>
      obtain ⟨-, rfl⟩ := eq_of_commitCombatant? written
      exact ⟨row, hrow, rfl⟩
  | turn written =>
      obtain ⟨-, rfl⟩ := eq_of_commitTurn? written
      exact ⟨_, List.mem_map_of_mem hrow, by split <;> rfl⟩
  | build inserted =>
      obtain ⟨-, rfl⟩ := Prod.mk.inj inserted
      exact ⟨row, hrow, rfl⟩
  | create inserted =>
      obtain ⟨-, rfl⟩ := Prod.mk.inj inserted
      exact ⟨row, hrow, rfl⟩
  | note logged =>
      obtain ⟨events, -, rfl⟩ := eq_of_append logged
      exact ⟨row, hrow, rfl⟩

theorem musters (h : Write s s') (hs : s.Tidy) (hm : s.Musters combatId rows) :
    s'.Musters combatId rows := by
  obtain ⟨row, hrow, hid⟩ := hm.found
  have hfound : ∃ row' ∈ s'.combats, row'.combat.id = combatId := hid ▸ h.mem_combat hrow
  cases h with
  | start nonempty inserted =>
      have hne := combatId_ne hs inserted hrow
      have hnone := filter_inserted hs inserted hrow
      have hnew := fun k => combatId_inserted (k := k) inserted
      obtain ⟨-, -, rfl⟩ := eq_of_insertCombat inserted
      refine ⟨hfound, ?_, fun hrows k hk hown => ?_⟩
      · rw [← hm.roster, ← hid, map_identity_roster, map_identity_roster, List.filter_append,
          hnone, List.append_nil]
      · rcases List.mem_append.mp hk with hk | hk
        · exact hm.readable hrows k hk hown
        · exact absurd (hid.trans (hown.symm.trans (hnew k hk))) hne
  | @act c _ _ written =>
      obtain ⟨-, rfl⟩ := eq_of_commitCombatant? written
      refine ⟨hfound, ?_, fun hrows k' hk' hown hfits => ?_⟩
      · rw [← hm.roster]
        exact roster_map (fun row _ => by split <;> rfl) rfl combatId
      · obtain ⟨k, hk, rfl⟩ := List.mem_map.mp hk'
        by_cases hcurrent : k.record.id = c.id ∧ k.record.revision = c.revision
        · rw [if_pos hcurrent] at hown hfits ⊢
          have hnext : Word.Fits (k.record.revision + 1) := hfits
          have hbefore : Word.Fits k.record.revision := by
            have hrevision := hs.revisions k hk
            simp only [Word.Fits, Word.low, Word.high] at hnext ⊢
            omega
          simp [overwriteRow, hm.readable hrows k hk hown hbefore, hnext]
        · rw [if_neg hcurrent] at hown hfits ⊢
          exact hm.readable hrows k hk hown hfits
  | turn written =>
      obtain ⟨-, rfl⟩ := eq_of_commitTurn? written
      exact ⟨hfound, hm.roster, hm.readable⟩
  | build inserted =>
      obtain ⟨-, rfl⟩ := Prod.mk.inj inserted
      exact ⟨hfound, hm.roster, hm.readable⟩
  | create inserted =>
      obtain ⟨-, rfl⟩ := Prod.mk.inj inserted
      exact ⟨hfound, hm.roster, hm.readable⟩
  | note logged =>
      obtain ⟨events, -, rfl⟩ := eq_of_append logged
      exact ⟨hfound, hm.roster, hm.readable⟩

end Write

namespace Reaches

theorem refl (s : Store) : s.Reaches s := Relation.ReflTransGen.refl

theorem trans {s s' s'' : Store} (h : s.Reaches s') (h' : s'.Reaches s'') : s.Reaches s'' :=
  Relation.ReflTransGen.trans h h'

theorem of_write (h : Write s s') : s.Reaches s' := Relation.ReflTransGen.single h

theorem of_logged {e : Event} (h : Write s s₁) (logged : s₁.append e = .ok s') : s.Reaches s' :=
  (of_write h).trans (of_write (.note logged))

theorem tidy (h : s.Reaches s') (hs : s.Tidy) : s'.Tidy := by
  induction h with
  | refl => exact hs
  | tail _ hwrite ih => exact hwrite.tidy ih

theorem mem_combat (h : s.Reaches s') {row : CombatRow} (hrow : row ∈ s.combats) :
    ∃ row' ∈ s'.combats, row'.combat.id = row.combat.id := by
  induction h with
  | refl => exact ⟨row, hrow, rfl⟩
  | tail _ hwrite ih =>
      obtain ⟨row', hrow', hid⟩ := ih
      obtain ⟨row'', hrow'', hid'⟩ := hwrite.mem_combat hrow'
      exact ⟨row'', hrow'', hid'.trans hid⟩

theorem musters (h : s.Reaches s') (hs : s.Tidy) (hm : s.Musters combatId rows) :
    s'.Musters combatId rows := by
  induction h with
  | refl => exact hm
  | tail hreaches hwrite ih => exact hwrite.musters (tidy hreaches hs) ih

end Reaches

end Gamemaster.Store
