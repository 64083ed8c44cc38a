import Gamemaster.Proofs.Store.Sound

namespace Gamemaster.Store

variable {s s₁ s' : Store}

theorem turns_append_other {e : Event} (h : s.append e = .ok s')
    (hturn : ∀ combatId, e.isTurnOf combatId = false) (combatId : String) :
    s'.turns combatId = s.turns combatId := by
  simp [turns_append h, hturn]

theorem prefix_of_append {e : Event} (h : s.append e = .ok s') :
    s.log.getD [] <+: s'.log.getD [] := by
  obtain ⟨events, hlog, rfl⟩ := eq_of_append h
  rw [hlog]
  exact List.prefix_append events [e]

theorem Tidy.of_append {e : Event} (h : s.Tidy) (logged : s.append e = .ok s') : s'.Tidy := by
  obtain ⟨events, -, rfl⟩ := eq_of_append logged
  exact { h with log := ⟨_, rfl⟩ }

section Start

variable {campaignId : String} {encounterId : Option String} {roster : List Member}
  {combat : Combat} {combatants : List Combatant} {e : Event}

theorem combatId_ne (h : s.Tidy)
    (inserted : s.insertCombat campaignId encounterId roster = ((combat, combatants), s₁))
    {r : CombatRow} (hr : r ∈ s.combats) : r.combat.id ≠ combat.id := by
  obtain ⟨hcombat, -, -⟩ := eq_of_insertCombat inserted
  rw [hcombat]
  intro heq
  apply notMem_idsOf "combat" (Nat.lt_succ_self s.issued.combats)
  rw [← h.combatIds]
  exact List.mem_map.mpr ⟨r, hr, heq⟩

theorem revision_inserted
    (inserted : s.insertCombat campaignId encounterId roster = ((combat, combatants), s₁))
    {k : Kept Combatant} (hk : k ∈ combatants.map Combatant.kept) : k.record.revision = 0 := by
  obtain ⟨c, hc, rfl⟩ := List.mem_map.mp hk
  obtain ⟨e, id, rfl⟩ := mem_inserted inserted hc
  obtain ⟨stats, hrecord⟩ := (e.toCombatant combat.id id).record_kept
  rw [hrecord]
  rfl

theorem turns_inserted (h : s.Sound)
    (inserted : s.insertCombat campaignId encounterId roster = ((combat, combatants), s₁)) :
    s.turns combat.id = 0 := by
  by_contra hne
  obtain ⟨r, hr, hid⟩ := h.started combat.id hne
  exact combatId_ne h.toTidy inserted hr hid

theorem filter_inserted (h : s.Tidy)
    (inserted : s.insertCombat campaignId encounterId roster = ((combat, combatants), s₁))
    {r : CombatRow} (hr : r ∈ s.combats) :
    ((combatants.map Combatant.kept).filter fun k => k.record.combatId = r.combat.id) = [] := by
  rw [List.filter_eq_nil_iff]
  intro k hk
  rw [combatId_inserted inserted hk, decide_eq_true_eq]
  exact (combatId_ne h inserted hr).symm

theorem later_start (h : s.Sound)
    (inserted : s.insertCombat campaignId encounterId roster = ((combat, combatants), s₁))
    (logged : s₁.append e = .ok s') : s.Later s' := by
  obtain ⟨-, -, rfl⟩ := eq_of_insertCombat inserted
  have hlog := prefix_of_append logged
  obtain ⟨events, -, rfl⟩ := eq_of_append logged
  refine ⟨hlog, ?_, ?_, ?_, ?_, List.prefix_rfl, List.prefix_rfl⟩
  · exact fun r hr => ⟨r, List.mem_append_left _ hr, rfl, .inl rfl⟩
  · exact fun k hk => ⟨k, List.mem_append_left _ hk, rfl, .inl rfl⟩
  · exact fun k hk hdamaged => ⟨k, List.mem_append_left _ hk, rfl, hdamaged⟩
  · intro r hr
    rw [map_identity_roster, map_identity_roster, List.filter_append,
      filter_inserted h.toTidy inserted hr, List.append_nil]

theorem exists_inserted
    (inserted : s.insertCombat campaignId encounterId roster = ((combat, combatants), s₁))
    (hroster : roster ≠ []) :
    ∃ k ∈ combatants.map Combatant.kept, k.record.combatId = combat.id := by
  obtain ⟨-, hcombatants, -⟩ := eq_of_insertCombat inserted
  have hne : combatants.map Combatant.kept ≠ [] := by
    rw [hcombatants]
    exact List.map_eq_nil_iff.not.mpr
      (List.mapIdx_eq_nil_iff.not.mpr (Entrant.lineUp_ne_nil hroster))
  obtain ⟨k, hk⟩ := List.exists_mem_of_ne_nil _ hne
  exact ⟨k, hk, combatId_inserted inserted hk⟩

theorem combatantIds_inserted (h : s.Tidy)
    (inserted : s.insertCombat campaignId encounterId roster = ((combat, combatants), s₁)) :
    s₁.combatants.map (fun k => k.record.id) = idsOf "combatant" s₁.issued.combatants := by
  obtain ⟨-, hcombatants, rfl⟩ := eq_of_insertCombat inserted
  change (s.combatants ++ combatants.map Combatant.kept).map _ =
    idsOf "combatant" (s.issued.combatants + combatants.length)
  rw [idsOf_add, List.map_append, h.combatantIds, hcombatants]
  congr 1
  apply List.ext_getElem
  · simp
  · intro i h₁ h₂
    simp [Entrant.toCombatant]

theorem tidy_inserted (h : s.Tidy)
    (inserted : s.insertCombat campaignId encounterId roster = ((combat, combatants), s₁))
    (hroster : roster ≠ []) :
    s₁.Tidy := by
  have hids := combatantIds_inserted h inserted
  obtain ⟨hcombat, -, rfl⟩ := eq_of_insertCombat inserted
  have hnew := fun k => revision_inserted (k := k) inserted
  refine ⟨h.isOpen, h.log, ?_, hids, ?_, ?_, ?_, ?_⟩
  · rw [idsOf_add, List.map_append, h.combatIds, hcombat]
    rfl
  · intro r hr
    rcases List.mem_append.mp hr with hr | hr
    · exact h.active r hr
    · rw [List.mem_singleton.mp hr]
  · intro k hk
    rcases List.mem_append.mp hk with hk | hk
    · obtain ⟨r, hr, hid⟩ := h.owned k hk
      exact ⟨r, List.mem_append_left _ hr, hid⟩
    · refine ⟨_, List.mem_append_right _ (List.mem_singleton.mpr rfl), ?_⟩
      exact (combatId_inserted inserted hk).symm
  · intro r hr
    rcases List.mem_append.mp hr with hr | hr
    · obtain ⟨k, hk, hid⟩ := h.manned r hr
      exact ⟨k, List.mem_append_left _ hk, hid⟩
    · obtain ⟨k, hk, hid⟩ := exists_inserted inserted hroster
      rw [List.mem_singleton.mp hr]
      exact ⟨k, List.mem_append_right _ hk, hid⟩
  · intro k hk
    rcases List.mem_append.mp hk with hk | hk
    · exact h.revisions k hk
    · exact Int.le_of_eq (hnew k hk).symm

theorem sound_start (h : s.Sound)
    (inserted : s.insertCombat campaignId encounterId roster = ((combat, combatants), s₁))
    (logged : s₁.append e = .ok s') (hroster : roster ≠ [])
    (hturn : ∀ combatId, e.isTurnOf combatId = false) : s'.Sound := by
  have htidy := (tidy_inserted h.toTidy inserted hroster).of_append logged
  obtain ⟨hcombat, -, rfl⟩ := eq_of_insertCombat inserted
  have hturns : ∀ combatId, s'.turns combatId = s.turns combatId :=
    fun combatId => (turns_append_other logged hturn combatId).trans rfl
  obtain ⟨events, -, rfl⟩ := eq_of_append logged
  refine ⟨htidy, h.encounterIds, h.tableIds, ?_, ?_⟩
  · intro r hr
    rw [hturns]
    rcases List.mem_append.mp hr with hr | hr
    · exact h.versions r hr
    · rw [List.mem_singleton.mp hr, turns_inserted h inserted, hcombat]
      change 1 = Word.wrap (1 + (0 : Nat))
      decide
  · intro combatId hne
    rw [hturns] at hne
    obtain ⟨r, hr, hid⟩ := h.started combatId hne
    exact ⟨r, List.mem_append_left _ hr, hid⟩

end Start

section Act

variable {k : Kept Combatant} {action : Action} {e : Event}

theorem eq_of_act (h : s.Sound) (found : k ∈ s.combatants)
    (written : s.commitCombatant? (action.apply k.record) = some s₁) :
    s₁ = { s with combatants := s.combatants.map fun row =>
      if row.record.id = k.record.id then k.acted action else row } := by
  obtain ⟨-, rfl⟩ := eq_of_commitCombatant? written
  congr 1
  apply List.map_congr_left
  intro row hrow
  by_cases hid : row.record.id = k.record.id
  · obtain rfl := h.eq_of_combatantId hrow found hid
    simp [Kept.acted, overwriteRow, Combatant.overwrite_apply]
  · simp [hid]

theorem identity_acted : (k.acted action).record.identity = k.record.identity :=
  Combatant.identity_apply action k.record

theorem damaged_acted (h : k.damaged = true) : (k.acted action).damaged = true := by
  simp [Kept.acted, h]

/-- Whatever a write makes of the rows of combatants, the combats keep their combatants in order
if it leaves each row its identity. -/
theorem roster_map {f : Kept Combatant → Kept Combatant}
    (hf : ∀ row ∈ s.combatants, (f row).record.identity = row.record.identity)
    (hs : s'.combatants = s.combatants.map f) (combatId : String) :
    (s'.roster combatId).map Combatant.identity = (s.roster combatId).map Combatant.identity := by
  rw [map_identity_roster, map_identity_roster, hs, List.filter_map, List.map_map]
  have hfilter : s.combatants.filter ((fun k => decide (k.record.combatId = combatId)) ∘ f) =
      s.combatants.filter fun k => k.record.combatId = combatId := by
    apply List.filter_congr
    intro row hrow
    simp [Combatant.combatId_of_identity (hf row hrow)]
  rw [hfilter]
  congr 1
  apply List.map_congr_left
  intro row hrow
  exact hf row (List.mem_of_mem_filter hrow)

theorem identity_row_acted (h : s.Sound) (found : k ∈ s.combatants) {row : Kept Combatant}
    (hrow : row ∈ s.combatants) :
    (if row.record.id = k.record.id then k.acted action else row).record.identity =
      row.record.identity := by
  split
  · rename_i hid
    rw [identity_acted, h.eq_of_combatantId hrow found hid]
  · rfl

theorem revision_row_acted (h : s.Sound) (found : k ∈ s.combatants) {row : Kept Combatant}
    (hrow : row ∈ s.combatants) :
    row.record.revision ≤
      (if row.record.id = k.record.id then k.acted action else row).record.revision := by
  split
  · rename_i hid
    rw [h.eq_of_combatantId hrow found hid]
    exact Int.le_of_lt (Int.lt_succ _)
  · exact Int.le_refl _

theorem later_act (h : s.Sound) (found : k ∈ s.combatants)
    (written : s.commitCombatant? (action.apply k.record) = some s₁)
    (logged : s₁.append e = .ok s') : s.Later s' := by
  obtain rfl := eq_of_act h found written
  have hlog := prefix_of_append logged
  obtain ⟨events, -, rfl⟩ := eq_of_append logged
  refine ⟨hlog, fun r hr => ⟨r, hr, rfl, .inl rfl⟩, ?_, ?_, ?_, List.prefix_rfl, List.prefix_rfl⟩
  · intro row hrow
    refine ⟨_, List.mem_map_of_mem hrow, identity_row_acted h found hrow, ?_⟩
    split
    · rename_i hid
      rw [h.eq_of_combatantId hrow found hid]
      exact .inr (Int.lt_succ _)
    · exact .inl rfl
  · intro row hrow hdamaged
    refine ⟨_, List.mem_map_of_mem hrow, identity_row_acted h found hrow, ?_⟩
    split
    · rename_i hid
      obtain rfl := h.eq_of_combatantId hrow found hid
      exact damaged_acted hdamaged
    · exact hdamaged
  · exact fun r _ => roster_map (fun row hrow => identity_row_acted h found hrow) rfl r.combat.id

theorem Tidy.map_combatants (h : s.Tidy) {f : Kept Combatant → Kept Combatant}
    (hf : ∀ row ∈ s.combatants, (f row).record.identity = row.record.identity)
    (hrevision : ∀ row ∈ s.combatants, row.record.revision ≤ (f row).record.revision) :
    { s with combatants := s.combatants.map f }.Tidy := by
  refine ⟨h.isOpen, h.log, h.combatIds, ?_, h.active, ?_, ?_, ?_⟩
  · rw [← h.combatantIds, List.map_map]
    apply List.map_congr_left
    exact fun row hrow => Combatant.id_of_identity (hf row hrow)
  · intro row' hrow'
    obtain ⟨row, hrow, rfl⟩ := List.mem_map.mp hrow'
    obtain ⟨r, hr, hid⟩ := h.owned row hrow
    exact ⟨r, hr, hid.trans (Combatant.combatId_of_identity (hf row hrow)).symm⟩
  · intro r hr
    obtain ⟨row, hrow, hid⟩ := h.manned r hr
    exact ⟨_, List.mem_map_of_mem hrow, (Combatant.combatId_of_identity (hf row hrow)).trans hid⟩
  · intro row' hrow'
    obtain ⟨row, hrow, rfl⟩ := List.mem_map.mp hrow'
    exact Int.le_trans (h.revisions row hrow) (hrevision row hrow)

theorem sound_act (h : s.Sound) (found : k ∈ s.combatants)
    (written : s.commitCombatant? (action.apply k.record) = some s₁)
    (logged : s₁.append e = .ok s') (hturn : ∀ combatId, e.isTurnOf combatId = false) :
    s'.Sound := by
  obtain rfl := eq_of_act h found written
  have htidy := (h.toTidy.map_combatants (fun row hrow => identity_row_acted h found hrow)
    fun row hrow => revision_row_acted h found hrow).of_append logged
  have hturns : ∀ combatId, s'.turns combatId = s.turns combatId :=
    fun combatId => (turns_append_other logged hturn combatId).trans rfl
  obtain ⟨events, -, rfl⟩ := eq_of_append logged
  refine ⟨htidy, h.encounterIds, h.tableIds, ?_, ?_⟩
  · intro r hr
    rw [hturns]
    exact h.versions r hr
  · intro combatId hne
    rw [hturns] at hne
    exact h.started combatId hne

end Act

section Turn

variable {row : CombatRow} {t : Turn} {e : Event}

theorem eq_of_turn (h : s.Tidy)
    (written : s.commitTurn? row.combat.id t = some s₁) :
    s₁ = { s with combats := s.combats.map fun r =>
        if r.combat.id = row.combat.id then { r with combat := r.combat.take t } else r } := by
  obtain ⟨⟨r', hr', hid', hversion'⟩, rfl⟩ := eq_of_commitTurn? written
  congr 1
  apply List.map_congr_left
  intro r hr
  by_cases hid : r.combat.id = row.combat.id
  · obtain rfl := h.eq_of_combatId hr hr' (hid.trans hid'.symm)
    simp [hid, hversion']
  · simp [hid]

theorem turns_turn (written : s.commitTurn? row.combat.id t = some s₁)
    (logged : s₁.append e = .ok s')
    (hturn : ∀ combatId, e.isTurnOf combatId = decide (row.combat.id = combatId))
    (combatId : String) :
    s'.turns combatId = s.turns combatId + if row.combat.id = combatId then 1 else 0 := by
  obtain ⟨-, rfl⟩ := eq_of_commitTurn? written
  simp [turns_append logged, hturn]
  rfl

theorem later_turn (h : s.Sound) (written : s.commitTurn? row.combat.id t = some s₁)
    (logged : s₁.append e = .ok s')
    (hturn : ∀ combatId, e.isTurnOf combatId = decide (row.combat.id = combatId)) :
    s.Later s' := by
  have hturns := turns_turn written logged hturn
  obtain rfl := eq_of_turn h.toTidy written
  have hlog := prefix_of_append logged
  obtain ⟨events, -, rfl⟩ := eq_of_append logged
  refine ⟨hlog, ?_, fun k hk => ⟨k, hk, rfl, .inl rfl⟩, fun k hk hdamaged =>
    ⟨k, hk, rfl, hdamaged⟩, fun _ _ => rfl, List.prefix_rfl, List.prefix_rfl⟩
  · intro r hr
    refine ⟨_, List.mem_map_of_mem hr, ?_, ?_⟩
    · split <;> rfl
    · rw [hturns]
      split
      · rename_i hid
        simp [hid]
      · exact .inl rfl

theorem Tidy.map_combats (h : s.Tidy) {f : CombatRow → CombatRow}
    (hf : ∀ r ∈ s.combats, (f r).combat.id = r.combat.id ∧ (f r).status = r.status) :
    { s with combats := s.combats.map f }.Tidy := by
  refine ⟨h.isOpen, h.log, ?_, h.combatantIds, ?_, ?_, ?_, h.revisions⟩
  · rw [← h.combatIds, List.map_map]
    exact List.map_congr_left fun r hr => (hf r hr).1
  · intro r' hr'
    obtain ⟨r, hr, rfl⟩ := List.mem_map.mp hr'
    exact (hf r hr).2.trans (h.active r hr)
  · intro k hk
    obtain ⟨r, hr, hown⟩ := h.owned k hk
    exact ⟨_, List.mem_map_of_mem hr, (hf r hr).1.trans hown⟩
  · intro r' hr'
    obtain ⟨r, hr, rfl⟩ := List.mem_map.mp hr'
    obtain ⟨k, hk, hown⟩ := h.manned r hr
    exact ⟨k, hk, hown.trans (hf r hr).1.symm⟩

theorem sound_turn (h : s.Sound) (found : row ∈ s.combats)
    (written : s.commitTurn? row.combat.id t = some s₁) (logged : s₁.append e = .ok s')
    (hturn : ∀ combatId, e.isTurnOf combatId = decide (row.combat.id = combatId))
    (hversion : t.version = Word.wrap (row.combat.version + 1)) : s'.Sound := by
  have hturns := turns_turn written logged hturn
  obtain rfl := eq_of_turn h.toTidy written
  have hid : ∀ r : CombatRow, (if r.combat.id = row.combat.id then
      { r with combat := r.combat.take t } else r).combat.id = r.combat.id := by
    intro r
    split <;> rfl
  have htidy := (h.toTidy.map_combats fun r _ => ⟨hid r, by split <;> rfl⟩).of_append logged
  obtain ⟨events, -, rfl⟩ := eq_of_append logged
  refine ⟨htidy, h.encounterIds, h.tableIds, ?_, ?_⟩
  · intro r' hr'
    obtain ⟨r, hr, rfl⟩ := List.mem_map.mp hr'
    rw [hid, hturns]
    split
    -- The version and the number of the turns go up together, up to wrapping.
    · rename_i heq
      rw [if_pos heq.symm, heq]
      change t.version = _
      rw [hversion, h.versions row found, Word.wrap_wrap_add]
      push_cast
      rw [Int.add_assoc]
    · rename_i hne
      rw [if_neg (Ne.symm hne)]
      exact h.versions r hr
  · intro combatId hne
    rw [hturns] at hne
    by_cases heq : row.combat.id = combatId
    · exact ⟨_, List.mem_map_of_mem found, (hid row).trans heq⟩
    · rw [if_neg heq] at hne
      obtain ⟨r, hr, hown⟩ := h.started combatId hne
      exact ⟨_, List.mem_map_of_mem hr, (hid r).trans hown⟩

end Turn

section Definitions

variable {e : Event}

theorem later_of_rows (hlog : s.log.getD [] <+: s'.log.getD [])
    (hcombats : s'.combats = s.combats) (hcombatants : s'.combatants = s.combatants)
    (hencounters : s.encounters <+: s'.encounters) (htables : s.tables <+: s'.tables) :
    s.Later s' where
  log := hlog
  combats := fun r hr => ⟨r, hcombats ▸ hr, rfl, .inl rfl⟩
  combatants := fun k hk => ⟨k, hcombatants ▸ hk, rfl, .inl rfl⟩
  damaged := fun k hk hdamaged => ⟨k, hcombatants ▸ hk, rfl, hdamaged⟩
  rosters := fun _ _ => by rw [roster, roster, hcombatants]
  encounters := hencounters
  tables := htables

theorem tidy_of_rows (h : s.Tidy) (hopen : s'.isOpen = s.isOpen)
    (hlog : ∃ events, s'.log = some events) (hcombats : s'.combats = s.combats)
    (hcombatants : s'.combatants = s.combatants)
    (hissued : s'.issued.combats = s.issued.combats ∧
      s'.issued.combatants = s.issued.combatants) : s'.Tidy where
  isOpen := hopen.trans h.isOpen
  log := hlog
  combatIds := by rw [hcombats, hissued.1, h.combatIds]
  combatantIds := by rw [hcombatants, hissued.2, h.combatantIds]
  active := hcombats ▸ h.active
  owned := by
    rw [hcombats, hcombatants]
    exact h.owned
  manned := by
    rw [hcombats, hcombatants]
    exact h.manned
  revisions := hcombatants ▸ h.revisions

/-- A write that leaves combats, combatants and turns alone keeps a store sound if it keeps count
of the ids that it gives out. -/
theorem sound_of_rows (h : s.Sound) (hopen : s'.isOpen = s.isOpen)
    (hlog : ∃ events, s'.log = some events) (hcombats : s'.combats = s.combats)
    (hcombatants : s'.combatants = s.combatants)
    (hissued : s'.issued.combats = s.issued.combats ∧ s'.issued.combatants = s.issued.combatants)
    (hencounters : s'.encounters.map EncounterRow.id = idsOf "encounter" s'.issued.encounters)
    (htables : s'.tables.map TableRow.id = idsOf "table" s'.issued.tables)
    (hturns : ∀ combatId, s'.turns combatId = s.turns combatId) : s'.Sound where
  toTidy := tidy_of_rows h.toTidy hopen hlog hcombats hcombatants hissued
  encounterIds := hencounters
  tableIds := htables
  versions := by
    intro r hr
    rw [hturns]
    exact h.versions r (hcombats ▸ hr)
  started := by
    intro combatId hne
    rw [hturns] at hne
    rw [hcombats]
    exact h.started combatId hne

theorem later_build {campaignId name difficulty id : String} {notes : Option String}
    {roster : List Member}
    (inserted : s.insertEncounter campaignId name difficulty notes roster = (id, s₁))
    (logged : s₁.append e = .ok s') : s.Later s' := by
  obtain ⟨-, rfl⟩ := Prod.mk.inj inserted
  have hlog := prefix_of_append logged
  obtain ⟨events, -, rfl⟩ := eq_of_append logged
  exact later_of_rows hlog rfl rfl (List.prefix_append _ _) List.prefix_rfl

theorem sound_build {campaignId name difficulty id : String} {notes : Option String}
    {roster : List Member} (h : s.Sound)
    (inserted : s.insertEncounter campaignId name difficulty notes roster = (id, s₁))
    (logged : s₁.append e = .ok s') (hturn : ∀ combatId, e.isTurnOf combatId = false) :
    s'.Sound := by
  obtain ⟨-, rfl⟩ := Prod.mk.inj inserted
  have hturns := turns_append_other logged hturn
  obtain ⟨events, -, rfl⟩ := eq_of_append logged
  refine sound_of_rows h rfl ⟨_, rfl⟩ rfl rfl ⟨rfl, rfl⟩ ?_ h.tableIds hturns
  rw [idsOf_add, List.map_append, h.encounterIds]
  rfl

theorem later_create {name dice id : String} {campaignId scope : Option String}
    {entries : List TableEntry}
    (inserted : s.insertTable campaignId name dice scope entries = (id, s₁))
    (logged : s₁.append e = .ok s') : s.Later s' := by
  obtain ⟨-, rfl⟩ := Prod.mk.inj inserted
  have hlog := prefix_of_append logged
  obtain ⟨events, -, rfl⟩ := eq_of_append logged
  exact later_of_rows hlog rfl rfl List.prefix_rfl (List.prefix_append _ _)

theorem sound_create {name dice id : String} {campaignId scope : Option String}
    {entries : List TableEntry} (h : s.Sound)
    (inserted : s.insertTable campaignId name dice scope entries = (id, s₁))
    (logged : s₁.append e = .ok s') (hturn : ∀ combatId, e.isTurnOf combatId = false) :
    s'.Sound := by
  obtain ⟨-, rfl⟩ := Prod.mk.inj inserted
  have hturns := turns_append_other logged hturn
  obtain ⟨events, -, rfl⟩ := eq_of_append logged
  refine sound_of_rows h rfl ⟨_, rfl⟩ rfl rfl ⟨rfl, rfl⟩ h.encounterIds ?_ hturns
  rw [idsOf_add, List.map_append, h.tableIds]
  rfl

end Definitions

end Gamemaster.Store
