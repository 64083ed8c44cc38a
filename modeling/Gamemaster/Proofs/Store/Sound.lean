import Gamemaster.Proofs.Store.Rows

namespace Gamemaster

theorem Kept.mapM_read (rows : List (Kept α)) :
    rows.mapM Kept.read =
      if rows.all fun k => !k.damaged then .ok (rows.map Kept.record) else .error .storage := by
  induction rows with
  | nil => rfl
  | cons k rows ih =>
      rw [List.mapM_cons, ih]
      cases hk : k.damaged with
      | true => simp [Kept.read, hk, bind, Except.bind]
      | false =>
          simp only [Kept.read, hk, Bool.false_eq_true, if_false, List.all_cons, Bool.not_false,
            Bool.true_and]
          split <;> rfl

theorem find?_of_nodup {α : Type} (key : α → String) {rows : List α}
    (hnodup : (rows.map key).Nodup) {r : α} (hr : r ∈ rows) :
    (rows.find? fun x => key x = key r) = some r := by
  cases hfind : rows.find? fun x => key x = key r with
  | none => simpa using List.find?_eq_none.mp hfind r hr
  | some x =>
      have hkey : key x = key r := by simpa using List.find?_some hfind
      rw [List.inj_on_of_nodup_map hnodup (List.mem_of_find?_eq_some hfind) hr hkey]

namespace Combatant

theorem map_identity_inOrder (combatants : List Combatant) :
    (inOrder combatants).map identity = inOrder (combatants.map identity) := by
  unfold inOrder
  exact List.map_mergeSort fun _ _ _ _ => rfl

theorem inOrder_perm (combatants : List Combatant) : (inOrder combatants).Perm combatants :=
  List.mergeSort_perm _ _

end Combatant

namespace Store

def Readable (combatId : String) (s : Store) : Prop :=
  ∀ k ∈ s.combatants, k.record.combatId = combatId → k.damaged = false

instance (combatId : String) (s : Store) : Decidable (s.Readable combatId) :=
  inferInstanceAs (Decidable (∀ k ∈ s.combatants, _))

theorem combatantsOf_eq (combatId : String) (s : Store) :
    s.combatantsOf combatId =
      if s.Readable combatId then .ok (s.roster combatId) else .error .storage := by
  have hall : ((s.combatants.filter fun k => k.record.combatId = combatId).all
      fun k => !k.damaged) = true ↔ s.Readable combatId := by
    simp [Readable, imp_iff_not_or]
  simp only [combatantsOf, Kept.mapM_read, hall]
  split <;> rfl

theorem map_identity_roster (combatId : String) (s : Store) :
    (s.roster combatId).map Combatant.identity = Combatant.inOrder
      ((s.combatants.filter fun k => k.record.combatId = combatId).map
        fun k => k.record.identity) := by
  rw [roster, Combatant.map_identity_inOrder, List.map_map]
  rfl

theorem mem_roster {combatId : String} {s : Store} {c : Combatant} :
    c ∈ s.roster combatId ↔ ∃ k ∈ s.combatants, k.record = c ∧ c.combatId = combatId := by
  rw [roster, (Combatant.inOrder_perm _).mem_iff]
  simp only [List.mem_map, List.mem_filter, decide_eq_true_eq]
  constructor
  · rintro ⟨k, ⟨hk, hid⟩, rfl⟩
    exact ⟨k, hk, rfl, hid⟩
  · rintro ⟨k, hk, rfl, hid⟩
    exact ⟨k, ⟨hk, hid⟩, rfl⟩

/-- What holds of every store whose rows have the ids that were given out, whatever turns have
been written to its combats: it answers and keeps its log, every combatant belongs to a combat,
and every combat has combatants. -/
structure Tidy (s : Store) : Prop where
  isOpen : s.isOpen = true
  log : ∃ events, s.log = some events
  combatIds : s.combats.map (fun r => r.combat.id) = idsOf "combat" s.issued.combats
  combatantIds : s.combatants.map (fun k => k.record.id) = idsOf "combatant" s.issued.combatants
  active : ∀ r ∈ s.combats, r.status = activeStatus
  owned : ∀ k ∈ s.combatants, ∃ r ∈ s.combats, r.combat.id = k.record.combatId
  manned : ∀ r ∈ s.combats, ∃ k ∈ s.combatants, k.record.combatId = r.combat.id
  revisions : ∀ k ∈ s.combatants, 0 ≤ k.record.revision

/-- What holds of every store that only requests have written: besides, the version of a combat
counts its turns. -/
structure Sound (s : Store) : Prop extends s.Tidy where
  encounterIds : s.encounters.map EncounterRow.id = idsOf "encounter" s.issued.encounters
  tableIds : s.tables.map TableRow.id = idsOf "table" s.issued.tables
  versions : ∀ r ∈ s.combats, r.combat.version = Word.wrap (1 + s.turns r.combat.id)
  started : ∀ combatId, s.turns combatId ≠ 0 → ∃ r ∈ s.combats, r.combat.id = combatId

/-- What a store keeps from a moment on, whatever requests do to it. -/
structure Later (s s' : Store) : Prop where
  log : s.log.getD [] <+: s'.log.getD []
  combats : ∀ r ∈ s.combats, ∃ r' ∈ s'.combats, r'.combat.identity = r.combat.identity ∧
    (r' = r ∨ s.turns r.combat.id < s'.turns r.combat.id)
  combatants : ∀ k ∈ s.combatants, ∃ k' ∈ s'.combatants,
    k'.record.identity = k.record.identity ∧ (k' = k ∨ k.record.revision < k'.record.revision)
  /-- What cannot be read of a combatant is not mended. -/
  damaged : ∀ k ∈ s.combatants, k.damaged = true → ∃ k' ∈ s'.combatants,
    k'.record.identity = k.record.identity ∧ k'.damaged = true
  rosters : ∀ r ∈ s.combats, (s'.roster r.combat.id).map Combatant.identity =
    (s.roster r.combat.id).map Combatant.identity
  encounters : s.encounters <+: s'.encounters
  tables : s.tables <+: s'.tables

theorem sound_empty (onFile : Bool) : (empty onFile).Sound where
  isOpen := rfl
  log := ⟨[], rfl⟩
  combatIds := rfl
  combatantIds := rfl
  encounterIds := rfl
  tableIds := rfl
  active := by simp [empty]
  owned := by simp [empty]
  manned := by simp [empty]
  revisions := by simp [empty]
  versions := by simp [empty]
  started := by simp [empty, turns]

namespace Tidy

variable {s : Store}

theorem eq_of_combatId (h : s.Tidy) {r r' : CombatRow} (hr : r ∈ s.combats) (hr' : r' ∈ s.combats)
    (hid : r.combat.id = r'.combat.id) : r = r' :=
  List.inj_on_of_nodup_map (h.combatIds ▸ nodup_idsOf _ _) hr hr' hid

theorem eq_of_combatantId (h : s.Tidy) {k k' : Kept Combatant} (hk : k ∈ s.combatants)
    (hk' : k' ∈ s.combatants) (hid : k.record.id = k'.record.id) : k = k' :=
  List.inj_on_of_nodup_map (h.combatantIds ▸ nodup_idsOf _ _) hk hk' hid

theorem ask (h : s.Tidy) (question : Store → Except Refusal α) : s.ask question = question s := by
  simp [Store.ask, h.isOpen]

theorem find?_combats (h : s.Tidy) {r : CombatRow} (hr : r ∈ s.combats) :
    (s.combats.find? fun r' => r'.combat.id = r.combat.id) = some r :=
  find?_of_nodup (fun r : CombatRow => r.combat.id) (h.combatIds ▸ nodup_idsOf _ _) hr

theorem roster_ne_nil (h : s.Tidy) {r : CombatRow} (hr : r ∈ s.combats) :
    s.roster r.combat.id ≠ [] := by
  obtain ⟨k, hk, hid⟩ := h.manned r hr
  exact List.ne_nil_of_mem (mem_roster.mpr ⟨k, hk, rfl, hid⟩)

theorem nodup_roster (h : s.Tidy) (combatId : String) :
    ((s.roster combatId).map Combatant.id).Nodup := by
  have hids : (s.combatants.map fun k => k.record.id).Nodup := h.combatantIds ▸ nodup_idsOf _ _
  have hperm := (Combatant.inOrder_perm
    ((s.combatants.filter fun k => k.record.combatId = combatId).map Kept.record)).map
      Combatant.id
  rw [List.map_map] at hperm
  exact hperm.nodup_iff.mpr (hids.sublist (List.filter_sublist.map _))

theorem combat? (h : s.Tidy) {r : CombatRow} (hr : r ∈ s.combats) :
    s.combat? r.combat.id = .ok (some r.combat) := by
  simp [Store.combat?, h.find?_combats hr, CombatRow.read, h.active r hr, Except.map]

theorem combatant? (h : s.Tidy) {k : Kept Combatant} (hk : k ∈ s.combatants) :
    s.combatant? k.record.id = k.read.map some := by
  have hfind : (s.combatants.find? fun k' => k'.record.id = k.record.id) = some k :=
    find?_of_nodup (fun k : Kept Combatant => k.record.id) (h.combatantIds ▸ nodup_idsOf _ _) hk
  simp [Store.combatant?, hfind]

theorem version? (h : s.Tidy) {r : CombatRow} (hr : r ∈ s.combats) :
    s.version? r.combat.id = some r.combat.version := by
  simp [Store.version?, h.find?_combats hr]

end Tidy

theorem Sound.version_eq {s : Store} (h : s.Sound) {r : CombatRow} (hr : r ∈ s.combats)
    (hturns : s.turns r.combat.id < 2 ^ 63 - 1) : r.combat.version = 1 + s.turns r.combat.id := by
  rw [h.versions r hr, Word.wrap_of_fits]
  simp only [Word.Fits, Word.low, Word.high]
  omega

namespace Later

variable {s s' s'' : Store}

theorem refl (s : Store) : s.Later s where
  log := List.prefix_rfl
  combats := fun r hr => ⟨r, hr, rfl, .inl rfl⟩
  combatants := fun k hk => ⟨k, hk, rfl, .inl rfl⟩
  damaged := fun k hk hdamaged => ⟨k, hk, rfl, hdamaged⟩
  rosters := fun _ _ => rfl
  encounters := List.prefix_rfl
  tables := List.prefix_rfl

theorem turns_le (h : s.Later s') (combatId : String) : s.turns combatId ≤ s'.turns combatId :=
  h.log.sublist.countP_le

theorem mem_combat (h : s.Later s') {r : CombatRow} (hr : r ∈ s.combats) :
    ∃ r' ∈ s'.combats, r'.combat.id = r.combat.id := by
  obtain ⟨r', hr', hidentity, -⟩ := h.combats r hr
  exact ⟨r', hr', Combat.id_of_identity hidentity⟩

theorem trans (h : s.Later s') (h' : s'.Later s'') : s.Later s'' where
  log := h.log.trans h'.log
  combats := by
    intro r hr
    obtain ⟨r', hr', hid, hturn⟩ := h.combats r hr
    obtain ⟨r'', hr'', hid', hturn'⟩ := h'.combats r' hr'
    refine ⟨r'', hr'', hid'.trans hid, ?_⟩
    rw [Combat.id_of_identity hid] at hturn'
    have hle := h.turns_le r.combat.id
    have hle' := h'.turns_le r.combat.id
    rcases hturn with rfl | hturn
    · exact hturn'.imp_right fun hlt => by omega
    · exact .inr (by omega)
  combatants := by
    intro k hk
    obtain ⟨k', hk', hid, hrev⟩ := h.combatants k hk
    obtain ⟨k'', hk'', hid', hrev'⟩ := h'.combatants k' hk'
    refine ⟨k'', hk'', hid'.trans hid, ?_⟩
    rcases hrev with rfl | hrev
    · exact hrev'
    · rcases hrev' with rfl | hrev'
      · exact .inr hrev
      · exact .inr (by omega)
  damaged := by
    intro k hk hdamaged
    obtain ⟨k', hk', hid, hdamaged'⟩ := h.damaged k hk hdamaged
    obtain ⟨k'', hk'', hid', hdamaged''⟩ := h'.damaged k' hk' hdamaged'
    exact ⟨k'', hk'', hid'.trans hid, hdamaged''⟩
  rosters := by
    intro r hr
    obtain ⟨r', hr', hid, -⟩ := h.combats r hr
    have hroster := h'.rosters r' hr'
    rw [Combat.id_of_identity hid] at hroster
    rw [hroster, h.rosters r hr]
  encounters := h.encounters.trans h'.encounters
  tables := h.tables.trans h'.tables

theorem exists_combatant (h : s.Later s') {k : Kept Combatant} (hk : k ∈ s.combatants) :
    ∃ k' ∈ s'.combatants, k'.record.identity = k.record.identity ∧
      k.record.revision ≤ k'.record.revision := by
  obtain ⟨k', hk', hidentity, rfl | hlt⟩ := h.combatants k hk
  · exact ⟨k', hk', hidentity, Int.le_refl _⟩
  · exact ⟨k', hk', hidentity, Int.le_of_lt hlt⟩

theorem readable (h : s.Later s') {combatId : String} (hread : s'.Readable combatId) :
    s.Readable combatId := by
  intro k hk hcombat
  cases hdamaged : k.damaged with
  | false => rfl
  | true =>
      obtain ⟨k', hk', hidentity, hdamaged'⟩ := h.damaged k hk hdamaged
      rw [← hdamaged', hread k' hk' ((Combatant.combatId_of_identity hidentity).trans hcombat)]

theorem version_lt (h : s.Later s') (h' : s'.Later s'') (hs : s.Sound) (hs'' : s''.Sound)
    {r r'' : CombatRow} (hr : r ∈ s.combats)
    (hleft : ∀ r' ∈ s'.combats, r'.combat.id = r.combat.id → r'.combat.version ≠ r.combat.version)
    (hr'' : r'' ∈ s''.combats) (hid : r''.combat.id = r.combat.id)
    (hturns : s''.turns r.combat.id < 2 ^ 63 - 1) : r.combat.version < r''.combat.version := by
  obtain ⟨r', hr', hidentity, hstill⟩ := h.combats r hr
  have hgrown : s.turns r.combat.id < s'.turns r.combat.id := by
    refine hstill.resolve_left fun heq => ?_
    exact hleft r' hr' (Combat.id_of_identity hidentity) (by rw [heq])
  have hle := h'.turns_le r.combat.id
  rw [hs.version_eq hr (by omega), hs''.version_eq hr'' (hid ▸ hturns), hid]
  omega

/-- A combat that is still at a version has not taken a turn since it was at it, unless it has run
through all versions. -/
theorem combat_still (h : s.Later s') (hs : s.Sound) (hs' : s'.Sound) {r r' : CombatRow}
    (hr : r ∈ s.combats) (hr' : r' ∈ s'.combats) (hid : r'.combat.id = r.combat.id)
    (hversion : r'.combat.version = r.combat.version) (hturns : s'.turns r.combat.id < 2 ^ 63) :
    r' = r := by
  obtain ⟨r'', hr'', hidentity, hstill⟩ := h.combats r hr
  obtain rfl := hs'.eq_of_combatId hr' hr'' (hid.trans (Combat.id_of_identity hidentity).symm)
  refine hstill.resolve_right fun hgrown => ?_
  rw [hs'.versions r' hr', hs.versions r hr, hid] at hversion
  have hmod := Word.emod_eq_of_wrap_eq hversion
  omega

end Later

end Store

end Gamemaster
