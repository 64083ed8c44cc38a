import Gamemaster.Proofs.World.Run

namespace Gamemaster

theorem Kept.mapM_read_intact (xs : List α) : (xs.map intact).mapM read = .ok xs := by
  rw [mapM_read, if_pos (by simp [intact]), List.map_map]
  exact congrArg Except.ok (List.map_id _)

/-- Whether a stat block reads as it is written. -/
def StatBlock.Lossless (stats : StatBlock) : Prop := stats.reread? = some stats

namespace Member

def Lossless (m : Member) : Prop := ∀ stats, m.stats = some stats → stats.Lossless

def kept (m : Member) : Kept Member :=
  match m.stats with
  | none => .intact m
  | some stats => .ofReread m (stats.reread?.map fun stats => { m with stats := some stats })

theorem kept_of_lossless {m : Member} (h : m.Lossless) : m.kept = .intact m := by
  obtain ⟨name, side, stats⟩ := m
  cases stats with
  | none => rfl
  | some stats =>
      have hstats : stats.reread? = some stats := h stats rfl
      simp only [kept, hstats]
      rfl

theorem map_kept_of_lossless {roster : List Member} (h : ∀ m ∈ roster, m.Lossless) :
    roster.map kept = roster.map Kept.intact :=
  List.map_congr_left fun m hm => kept_of_lossless (h m hm)

end Member

namespace TableEntry

/-- Whether the result of an entry reads as it is written. -/
def Lossless (e : TableEntry) : Prop := e.result.reread? = some e.result

def kept (e : TableEntry) : Kept TableEntry :=
  .ofReread e (e.result.reread?.map fun result => { e with result })

theorem map_kept_of_lossless {entries : List TableEntry} (h : ∀ e ∈ entries, e.Lossless) :
    entries.map kept = entries.map Kept.intact := by
  refine List.map_congr_left fun e he => ?_
  rw [kept, show e.result.reread? = some e.result from h e he]
  rfl

end TableEntry

def EncounterRequest.row (r : EncounterRequest) (id : String) : EncounterRow :=
  ⟨id, r.campaignId, r.name, r.difficulty, r.notes, r.roster.map Member.kept⟩

theorem EncounterRequest.read_row {r : EncounterRequest} (h : ∀ m ∈ r.roster, m.Lossless)
    (id : String) :
    (r.row id).read = .ok ⟨id, r.campaignId, r.name, r.difficulty, r.notes, r.roster⟩ := by
  have hread : (r.row id).members.mapM Kept.read = .ok r.roster := by
    change (r.roster.map Member.kept).mapM Kept.read = _
    rw [Member.map_kept_of_lossless h, Kept.mapM_read_intact]
  simp only [EncounterRow.read, hread]
  rfl

def TableRequest.row (r : TableRequest) (id : String) : TableRow :=
  ⟨id, r.campaignId, r.name, r.dice, r.scope, r.entries.map TableEntry.kept⟩

theorem TableRequest.read_row {r : TableRequest} (h : ∀ e ∈ r.entries, e.Lossless) (id : String) :
    (r.row id).read = .ok ⟨id, r.campaignId, r.name, r.dice, r.scope, r.entries⟩ := by
  have hread : (r.row id).entries.mapM Kept.read = .ok r.entries := by
    change (r.entries.map TableEntry.kept).mapM Kept.read = _
    rw [TableEntry.map_kept_of_lossless h, Kept.mapM_read_intact]
  simp only [TableRow.read, hread]
  rfl

theorem Store.Sound.encounter? {s : Store} (hs : s.Sound) {row : EncounterRow}
    (hrow : row ∈ s.encounters) :
    s.encounter? row.id = row.read.map some := by
  have hfind : (s.encounters.find? fun r => r.id = row.id) = some row :=
    find?_of_nodup EncounterRow.id (hs.encounterIds ▸ nodup_idsOf _ _) hrow
  simp [Store.encounter?, hfind]

theorem Store.Sound.table? {s : Store} (hs : s.Sound) {row : TableRow} (hrow : row ∈ s.tables) :
    s.table? row.id = row.read.map some := by
  have hfind : (s.tables.find? fun r => r.id = row.id) = some row :=
    find?_of_nodup TableRow.id (hs.tableIds ▸ nodup_idsOf _ _) hrow
  simp [Store.table?, hfind]

namespace World

/-- Whether every request that has been granted a change took effect at some moment. -/
def Grants (w : World) : Prop :=
  ∀ i r a, w.request? i = some r → r.writes = true → w.Promises i (.ok a) →
    ∃ s s', s.Sound ∧ Effect r a s s' ∧ s'.Later w.store

theorem Grants.make {w : World} (h : w.Grants) (hw : w.Sound) (m : Move) : (w.make m).Grants := by
  intro i r a hrequest hwrites hpromise
  rcases hw.promises_of_make hrequest hwrites hpromise with ⟨hrequest, hpromise⟩ | heffect
  · obtain ⟨s, s', hs, heffect, hlater⟩ := h i r a hrequest hwrites hpromise
    exact ⟨s, s', hs, heffect, hlater.trans (hw.later_make m)⟩
  · exact ⟨_, _, hw.store, heffect, .refl _⟩

theorem grants_after (onFile : Bool) (moves : List Move) :
    ((opened onFile).after moves).Grants := by
  refine ((sound_opened onFile).after_induction (P := Grants) ?_
    (fun _ m hsound h => h.make hsound m) moves).2
  intro i r a hrequest
  simp [request?, opened] at hrequest

def SavesEncounters (w : World) : Prop :=
  ∀ i r a, w.request? i = some (.buildEncounter r) → w.Promises i (.ok (.built a)) →
    r.roster ≠ [] ∧ Roster.fault? r.roster = none ∧ r.row a.encounterId ∈ w.store.encounters

def SavesTables (w : World) : Prop :=
  ∀ i r a, w.request? i = some (.createTable r) → w.Promises i (.ok (.created a)) →
    r.row a.tableId ∈ w.store.tables

theorem Grants.savesEncounters {w : World} (h : w.Grants) : w.SavesEncounters := by
  intro i r a hrequest hpromise
  obtain ⟨s, s', -, heffect, hlater⟩ := h i _ _ hrequest rfl hpromise
  cases heffect with
  | build _ _ nonempty valid inserted logged =>
      obtain ⟨rfl, rfl⟩ := Prod.mk.inj inserted
      obtain ⟨events, -, rfl⟩ := Store.eq_of_append logged
      exact ⟨nonempty, valid,
        hlater.encounters.subset (List.mem_append_right _ List.mem_cons_self)⟩

theorem Grants.savesTables {w : World} (h : w.Grants) : w.SavesTables := by
  intro i r a hrequest hpromise
  obtain ⟨s, s', -, heffect, hlater⟩ := h i _ _ hrequest rfl hpromise
  cases heffect with
  | create _ _ _ _ inserted logged =>
      obtain ⟨rfl, rfl⟩ := Prod.mk.inj inserted
      obtain ⟨events, -, rfl⟩ := Store.eq_of_append logged
      exact hlater.tables.subset (List.mem_append_right _ List.mem_cons_self)

theorem savesEncounters_after (onFile : Bool) (moves : List Move) :
    ((opened onFile).after moves).SavesEncounters :=
  (grants_after onFile moves).savesEncounters

end World

end Gamemaster
