import Gamemaster.Store.Commit
import Mathlib.Data.List.Nodup
import Std.Data.String.ToNat

namespace Gamemaster

/-- A combatant without the fields that actions change. -/
def Combatant.identity (c : Combatant) : Combatant :=
  { c with currentHp := 0, tempHp := 0, conditions := [], notes := none, revision := 0 }

/-- A combat without the fields that turns change. -/
def Combat.identity (c : Combat) : Combat := { c with round := 0, turnIndex := 0, version := 0 }

namespace Combatant

theorem id_of_identity {c d : Combatant} (h : c.identity = d.identity) : c.id = d.id := by
  change c.identity.id = d.identity.id
  rw [h]

theorem combatId_of_identity {c d : Combatant} (h : c.identity = d.identity) :
    c.combatId = d.combatId := by
  change c.identity.combatId = d.identity.combatId
  rw [h]

@[simp] theorem identity_apply (a : Action) (c : Combatant) :
    (a.apply c).identity = c.identity := by
  cases a with
  | addCondition name =>
      simp only [Action.apply]
      split <;> rfl
  | _ => rfl

@[simp] theorem id_apply (a : Action) (c : Combatant) : (a.apply c).id = c.id :=
  id_of_identity (identity_apply a c)

@[simp] theorem combatId_apply (a : Action) (c : Combatant) : (a.apply c).combatId = c.combatId :=
  combatId_of_identity (identity_apply a c)

@[simp] theorem revision_apply (a : Action) (c : Combatant) :
    (a.apply c).revision = c.revision := by
  cases a with
  | addCondition name =>
      simp only [Action.apply]
      split <;> rfl
  | _ => rfl

/-- Writing a combatant over the row that it was computed from leaves nothing of the row behind
but its revision, which is one on. -/
theorem overwrite_apply (a : Action) (c : Combatant) :
    Store.overwrite (a.apply c) c = { a.apply c with revision := c.revision + 1 } := by
  cases a with
  | addCondition name =>
      simp only [Action.apply]
      split <;> rfl
  | _ => rfl

def kept (c : Combatant) : Kept Combatant :=
  .ofReread c (c.stats.reread?.map fun stats => { c with stats })

/-- Storing a combatant leaves all of it as it is but the stat block, which is read again. -/
theorem record_kept (c : Combatant) : ∃ stats, c.kept.record = { c with stats } := by
  unfold kept
  cases c.stats.reread? with
  | none => exact ⟨c.stats, rfl⟩
  | some stats => exact ⟨stats, rfl⟩

@[simp] theorem id_kept (c : Combatant) : c.kept.record.id = c.id := by
  obtain ⟨stats, h⟩ := c.record_kept
  rw [h]

@[simp] theorem combatId_kept (c : Combatant) : c.kept.record.combatId = c.combatId := by
  obtain ⟨stats, h⟩ := c.record_kept
  rw [h]

end Combatant

def Kept.acted (action : Action) (k : Kept Combatant) : Kept Combatant :=
  ⟨{ action.apply k.record with revision := k.record.revision + 1 },
    k.damaged || !decide (Word.Fits (k.record.revision + 1))⟩

theorem Entrant.lineUp_ne_nil {roster : List Member} (h : roster ≠ []) : lineUp roster ≠ [] := by
  intro hnil
  have hlength := congrArg List.length hnil
  simp [lineUp, ofRoster, h] at hlength

namespace Combat

theorem id_of_identity {c d : Combat} (h : c.identity = d.identity) : c.id = d.id := by
  change c.identity.id = d.identity.id
  rw [h]

theorem campaignId_of_identity {c d : Combat} (h : c.identity = d.identity) :
    c.campaignId = d.campaignId := by
  change c.identity.campaignId = d.identity.campaignId
  rw [h]

end Combat

def idsOf (kind : String) (n : Nat) : List String := (List.range n).map fun i => idOf kind (i + 1)

theorem idOf_injective (kind : String) {m n : Nat} (h : idOf kind m = idOf kind n) : m = n := by
  unfold idOf at h
  exact Nat.repr_injective (String.append_right_inj _ |>.mp h)

theorem nodup_idsOf (kind : String) (n : Nat) : (idsOf kind n).Nodup := by
  refine List.Nodup.map (fun i j h => ?_) List.nodup_range
  have := idOf_injective kind h
  omega

theorem idsOf_add (kind : String) (m n : Nat) :
    idsOf kind (m + n) = idsOf kind m ++ (List.range n).map fun i => idOf kind (m + i + 1) := by
  simp [idsOf, List.range_add, Function.comp_def]

theorem notMem_idsOf (kind : String) {m n : Nat} (h : n < m) : idOf kind m ∉ idsOf kind n := by
  simp only [idsOf, List.mem_map, List.mem_range, not_exists, not_and]
  intro i hi heq
  have := idOf_injective kind heq
  omega

def Event.isTurnOf (combatId : String) (e : Event) : Bool :=
  match e.happening with
  | .turnTaken id .. => id = combatId
  | _ => false

namespace Store

/-- The combatants of a combat in the order of their turns, whether they can be read or not. -/
def roster (combatId : String) (s : Store) : List Combatant :=
  Combatant.inOrder ((s.combatants.filter fun k => k.record.combatId = combatId).map Kept.record)

def turns (combatId : String) (s : Store) : Nat :=
  (s.log.getD []).countP (Event.isTurnOf combatId)

theorem eq_of_append {e : Event} {s s' : Store} (h : s.append e = .ok s') :
    ∃ events, s.log = some events ∧ s' = { s with log := some (events ++ [e]) } := by
  unfold append at h
  split at h
  · simp at h
  · rename_i events hlog
    exact ⟨events, hlog, by simpa using h.symm⟩

theorem log_ne_of_append {e : Event} {s s₁ s' : Store} (h : s₁.append e = .ok s')
    (hlog : s₁.log = s.log) : s'.log ≠ s.log := by
  obtain ⟨events, hevents, rfl⟩ := eq_of_append h
  simp [← hlog, hevents]

theorem eq_of_insertCombat {campaignId : String} {encounterId : Option String}
    {roster : List Member} {combat : Combat} {combatants : List Combatant} {s s' : Store}
    (h : s.insertCombat campaignId encounterId roster = ((combat, combatants), s')) :
    combat = Combat.start (idOf "combat" (s.issued.combats + 1)) campaignId encounterId ∧
      combatants = ((Entrant.lineUp roster).mapIdx fun i e =>
        e.toCombatant combat.id (idOf "combatant" (s.issued.combatants + i + 1))) ∧
      s' = { s with
        issued := { s.issued with
          combats := s.issued.combats + 1
          combatants := s.issued.combatants + combatants.length }
        combats := s.combats ++ [⟨combat, activeStatus⟩]
        combatants := s.combatants ++ combatants.map Combatant.kept } := by
  simp only [insertCombat, Prod.mk.injEq] at h
  obtain ⟨⟨rfl, rfl⟩, rfl⟩ := h
  exact ⟨rfl, rfl, rfl⟩

theorem mem_inserted {campaignId : String} {encounterId : Option String} {roster : List Member}
    {combat : Combat} {combatants : List Combatant} {s s' : Store}
    (h : s.insertCombat campaignId encounterId roster = ((combat, combatants), s'))
    {c : Combatant} (hc : c ∈ combatants) :
    ∃ (e : Entrant) (id : String), c = e.toCombatant combat.id id := by
  obtain ⟨-, hcombatants, -⟩ := eq_of_insertCombat h
  rw [hcombatants] at hc
  obtain ⟨i, hi, rfl⟩ := List.mem_mapIdx.mp hc
  exact ⟨_, _, rfl⟩

theorem combatId_inserted {campaignId : String} {encounterId : Option String}
    {roster : List Member} {combat : Combat} {combatants : List Combatant} {s s' : Store}
    (h : s.insertCombat campaignId encounterId roster = ((combat, combatants), s'))
    {k : Kept Combatant} (hk : k ∈ combatants.map Combatant.kept) :
    k.record.combatId = combat.id := by
  obtain ⟨c, hc, rfl⟩ := List.mem_map.mp hk
  obtain ⟨e, id, rfl⟩ := mem_inserted h hc
  rw [Combatant.combatId_kept]
  rfl

theorem mem_of_combat? {id : String} {c : Combat} {s : Store} (h : s.combat? id = .ok (some c)) :
    ∃ row ∈ s.combats, row.combat = c ∧ c.id = id := by
  unfold combat? at h
  cases hfind : s.combats.find? fun r => r.combat.id = id with
  | none => simp [hfind] at h
  | some row =>
      have hid : row.combat.id = id := by simpa using List.find?_some hfind
      by_cases hactive : row.status = activeStatus
      · simp only [hfind, CombatRow.read, if_pos hactive, Except.map, Except.ok.injEq,
          Option.some.injEq] at h
        exact ⟨row, List.mem_of_find?_eq_some hfind, h, h ▸ hid⟩
      · simp [hfind, CombatRow.read, if_neg hactive, Except.map] at h

theorem mem_of_version? {id : String} {version : Int} {s : Store}
    (h : s.version? id = some version) :
    ∃ row ∈ s.combats, row.combat.id = id ∧ row.combat.version = version := by
  obtain ⟨row, hfind, hversion⟩ := Option.map_eq_some_iff.mp h
  exact ⟨row, List.mem_of_find?_eq_some hfind, by simpa using List.find?_some hfind, hversion⟩

theorem mem_of_combatant? {id : String} {c : Combatant} {s : Store}
    (h : s.combatant? id = .ok (some c)) :
    ∃ k ∈ s.combatants, k.damaged = false ∧ k.record = c ∧ c.id = id := by
  unfold combatant? at h
  cases hfind : s.combatants.find? fun k => k.record.id = id with
  | none => simp [hfind] at h
  | some k =>
      have hid : k.record.id = id := by simpa using List.find?_some hfind
      cases hdamaged : k.damaged with
      | true => simp [hfind, Kept.read, hdamaged, Except.map] at h
      | false =>
          simp only [hfind, Kept.read, hdamaged, Bool.false_eq_true, if_false, Except.map,
            Except.ok.injEq, Option.some.injEq] at h
          exact ⟨k, List.mem_of_find?_eq_some hfind, hdamaged, h, h ▸ hid⟩

theorem turns_append {e : Event} {s s' : Store} (h : s.append e = .ok s') (combatId : String) :
    s'.turns combatId = s.turns combatId + if e.isTurnOf combatId then 1 else 0 := by
  obtain ⟨events, hlog, rfl⟩ := eq_of_append h
  simp [turns, hlog, List.countP_append, List.countP_cons]

theorem eq_of_commitTurn? {id : String} {t : Turn} {s s' : Store}
    (h : s.commitTurn? id t = some s') :
    (∃ r ∈ s.combats, r.combat.id = id ∧ r.combat.version = t.fromVersion) ∧
      s' = { s with
        combats := s.combats.map fun r =>
          if r.combat.id = id ∧ r.combat.version = t.fromVersion then
            { r with combat := r.combat.take t }
          else r } := by
  simp only [commitTurn?, List.any_eq_true, decide_eq_true_eq, Option.ite_none_right_eq_some,
    Option.some.injEq] at h
  exact ⟨h.1, h.2.symm⟩

theorem log_of_commitTurn? {id : String} {t : Turn} {s s' : Store}
    (h : s.commitTurn? id t = some s') :
    s'.log = s.log := by
  obtain ⟨-, rfl⟩ := eq_of_commitTurn? h
  rfl

theorem version_ne_of_commitTurn? {id : String} {t : Turn} {s : Store}
    (h : s.commitTurn? id t = none)
    {r : CombatRow} (hr : r ∈ s.combats) (hid : r.combat.id = id) :
    r.combat.version ≠ t.fromVersion := by
  simp only [commitTurn?, List.any_eq_true, decide_eq_true_eq, ite_eq_right_iff, reduceCtorEq,
    imp_false, not_exists, not_and] at h
  exact h r hr hid

theorem eq_of_commitCombatant? {c : Combatant} {s s' : Store}
    (h : s.commitCombatant? c = some s') :
    (∃ k ∈ s.combatants, k.record.id = c.id ∧ k.record.revision = c.revision) ∧
      s' = { s with
        combatants := s.combatants.map fun k =>
          if k.record.id = c.id ∧ k.record.revision = c.revision then overwriteRow c k
          else k } := by
  simp only [commitCombatant?, List.any_eq_true, decide_eq_true_eq, Option.ite_none_right_eq_some,
    Option.some.injEq] at h
  exact ⟨h.1, h.2.symm⟩

theorem log_of_commitCombatant? {c : Combatant} {s s' : Store}
    (h : s.commitCombatant? c = some s') :
    s'.log = s.log := by
  obtain ⟨-, rfl⟩ := eq_of_commitCombatant? h
  rfl

theorem revision_ne_of_commitCombatant? {c : Combatant} {s : Store}
    (h : s.commitCombatant? c = none) {k : Kept Combatant} (hk : k ∈ s.combatants)
    (hid : k.record.id = c.id) :
    k.record.revision ≠ c.revision := by
  simp only [commitCombatant?, List.any_eq_true, decide_eq_true_eq, ite_eq_right_iff,
    reduceCtorEq, imp_false, not_exists, not_and] at h
  exact h k hk hid

end Store

end Gamemaster
