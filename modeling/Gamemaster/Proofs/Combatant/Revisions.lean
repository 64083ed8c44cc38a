import Gamemaster.Proofs.World.Shared

namespace Gamemaster

section Effect

variable {r : Request} {a : Answer} {s s' : Store}

theorem Effect.exists_target (h : Effect r a s s') {id : String} (hacts : r.actsOn id = true) :
    ∃ k ∈ s.combatants, k.record.id = id := by
  cases h with
  | act found _ target =>
      obtain rfl : _ = id := of_decide_eq_true hacts
      exact ⟨_, found, target⟩
  | _ => exact absurd hacts Bool.false_ne_true

theorem Effect.revision_eq_zero (h : Effect r a s s') (hs : s.Sound) {k : Kept Combatant}
    (hk : k ∈ s'.combatants) (hnew : ∀ k' ∈ s.combatants, k'.record.id ≠ k.record.id) :
    k.record.revision = 0 := by
  rcases h.row_origin hs hk with hold | ⟨q, action, old, hold, -, rfl⟩ | ⟨e, combatId, id, rfl⟩
  · exact absurd rfl (hnew k hold)
  · exact absurd (Combatant.id_apply action old.record).symm (hnew old hold)
  · obtain ⟨stats, hrecord⟩ := (e.toCombatant combatId id).record_kept
    rw [hrecord]
    rfl

end Effect

/-- Whether a store shows a combatant to those who ask for it, or for the combatants of its
combat. -/
def Store.Shows (c : Combatant) (s : Store) : Prop :=
  s.combatant? c.id = .ok (some c) ∨ ∃ cs, s.combatantsOf c.combatId = .ok cs ∧ c ∈ cs

theorem Store.mem_of_shows {s : Store} {c : Combatant} (h : s.Shows c) :
    ∃ k ∈ s.combatants, k.record = c := by
  rcases h with hfound | ⟨cs, hlisted, hc⟩
  · obtain ⟨k, hk, -, hrecord, -⟩ := mem_of_combatant? hfound
    exact ⟨k, hk, hrecord⟩
  · rw [combatantsOf_eq] at hlisted
    split at hlisted
    · obtain rfl := Except.ok.inj hlisted
      obtain ⟨k, hk, hrecord, -⟩ := mem_roster.mp hc
      exact ⟨k, hk, hrecord⟩
    · cases hlisted

namespace Shared

variable {h h₀ : Shared}

/-- Whether the revision of each row counts what was committed to it, and nothing was committed to
other rows. -/
structure Counts (h : Shared) : Prop where
  revisions : ∀ k ∈ h.world.store.combatants, k.record.revision = h.commits k.record.id
  absent : ∀ id, (∀ k ∈ h.world.store.combatants, k.record.id ≠ id) → h.commits id = 0

namespace Counts

variable {h' : Shared}

/-- What is counted at one more moment: the rows that were there have grown with their counts, and
those that are new have not been written. -/
theorem of_grown (hc : h.Counts) (hs' : h'.world.store.Sound) (grown : String → Nat)
    (hcount : ∀ id, h'.commits id = h.commits id + grown id)
    (hrows : ∀ k ∈ h.world.store.combatants, ∃ k' ∈ h'.world.store.combatants,
      k'.record.id = k.record.id ∧ k'.record.revision = k.record.revision + grown k.record.id)
    (hnew : ∀ k' ∈ h'.world.store.combatants,
      (∀ k ∈ h.world.store.combatants, k.record.id ≠ k'.record.id) →
      k'.record.revision = 0)
    (hgrown : ∀ id, (∀ k ∈ h.world.store.combatants, k.record.id ≠ id) → grown id = 0) :
    h'.Counts := by
  refine ⟨fun k' hk' => ?_, fun id hid => ?_⟩
  · by_cases hold : ∃ k ∈ h.world.store.combatants, k.record.id = k'.record.id
    · obtain ⟨k, hk, hid⟩ := hold
      obtain ⟨k'', hk'', hid'', hrevision⟩ := hrows k hk
      obtain rfl := hs'.eq_of_combatantId hk' hk'' (hid.symm.trans hid''.symm)
      rw [hcount, hrevision, hid'', hc.revisions k hk, Int.natCast_add]
    · have hnone : ∀ k ∈ h.world.store.combatants, k.record.id ≠ k'.record.id := fun k hk hid =>
        hold ⟨k, hk, hid⟩
      rw [hcount, hnew k' hk' hnone, hc.absent _ hnone, hgrown _ hnone]
      rfl
  · have hnone : ∀ k ∈ h.world.store.combatants, k.record.id ≠ id := by
      intro k hk hsame
      obtain ⟨k', hk', hid', -⟩ := hrows k hk
      exact hid k' hk' (hid'.trans hsame)
    rw [hcount, hc.absent id hnone, hgrown id hnone]

theorem of_same (hc : h.Counts) (hstore : h'.world.store = h.world.store)
    (hcount : ∀ id, h'.commits id = h.commits id) : h'.Counts := by
  refine ⟨fun k hk => ?_, fun id hid => ?_⟩
  · rw [hcount]
    exact hc.revisions k (hstore ▸ hk)
  · rw [hcount]
    exact hc.absent id (hstore ▸ hid)

theorem move (hc : h.Counts) (hw : h.world.Sound) (m : Move) : (h.meet (.move m)).Counts := by
  rcases hw.make_cases m with ⟨hstore, hsame⟩ | ⟨i, r, a, -, hrequest, -, heffect, -, hcommits⟩
  · refine hc.of_same hstore fun id => ?_
    rw [commits_move, hw.committed_same hsame]
    rfl
  · refine hc.of_grown (hw.make m).store (fun id => if r.actsOn id then 1 else 0) (fun id => ?_)
      (fun k hk => ?_)
      (fun k hk hnone => heffect.revision_eq_zero hw.store hk hnone) fun id hnone => ?_
    · rw [commits_move, hw.committed_concat hrequest hcommits, List.length_append, commits]
      split
      · exact Nat.add_right_comm _ _ _
      · rfl
    · rcases heffect.row_cases hw.store hk with ⟨action, hacts, -, -, hmem, -⟩ | ⟨hacts, hmem⟩
      · refine ⟨_, hmem, Combatant.id_apply action k.record, ?_⟩
        rw [if_pos hacts]
        rfl
      · refine ⟨k, hmem, rfl, ?_⟩
        rw [hacts, if_neg Bool.false_ne_true]
        exact (Int.add_zero _).symm
    · refine if_neg fun hacts => ?_
      obtain ⟨k, hk, hid⟩ := heffect.exists_target hacts
      exact hnone k hk hid

theorem transaction (hc : h.Counts) (hw : h.world.Sound) (t : Transaction) :
    (h.meet (.transaction t)).Counts := by
  have hs := hw.store.toTidy
  rcases t.run_cases hs with ⟨hsame, hwrites⟩ | ⟨k, hk, -, hrun, hwrites⟩
  · refine hc.of_same hsame fun id => ?_
    rw [commits_transaction, hwrites, if_neg Bool.false_ne_true, Nat.add_zero]
  · have hrows : (h.meet (.transaction t)).world.store.combatants =
        h.world.store.combatants.map (t.written k) :=
      congrArg Store.combatants hrun
    have hid : ∀ row ∈ h.world.store.combatants, (t.written k row).record.id = row.record.id :=
      fun row hrow =>
      Combatant.id_of_identity (Transaction.identity_written hs hk hrow)
    refine hc.of_grown (t.run_sound hw.store) _ (h.commits_transaction t) (fun row hrow => ?_)
      (fun row' hrow' hnone => ?_) fun id hnone => ?_
    · refine ⟨_, hrows ▸ List.mem_map_of_mem hrow, hid row hrow, ?_⟩
      rw [Transaction.revision_written hs hk hrow, hwrites]
      simp [eq_comm]
    · rw [hrows] at hrow'
      obtain ⟨row, hrow, rfl⟩ := List.mem_map.mp hrow'
      exact absurd (hid row hrow).symm (hnone row hrow)
    · rw [hwrites, if_neg (by simpa using hnone k hk)]

theorem meet (hc : h.Counts) (hw : h.world.Sound) (x : Incident) : (h.meet x).Counts := by
  cases x with
  | move m => exact hc.move hw m
  | transaction t => exact hc.transaction hw t

end Counts

theorem counts_through (onFile : Bool) (incidents : List Incident) :
    ((opened onFile).through incidents).Counts := by
  refine (through_induction (P := Counts) (World.sound_opened onFile)
    ⟨fun k hk => ?_, fun id _ => rfl⟩ (fun _ x hw hc => hc.meet hw x) incidents).2
  simp [opened, World.opened, Store.empty] at hk

theorem outcome_eq_committed_iff (hw : h.world.Sound) {t : Transaction} {k : Kept Combatant}
    (hk : k ∈ h.world.store.combatants) (hid : t.combatant.id = k.record.id) :
    t.outcome h.world.store = .committed ↔ k.record.revision = t.combatant.revision := by
  rw [Transaction.outcome_eq_committed_iff]
  constructor
  · rintro ⟨k', hk', hid', hrevision⟩
    obtain rfl := hw.store.eq_of_combatantId hk' hk (hid'.trans hid)
    exact hrevision
  · exact fun hrevision => ⟨k, hk, hid.symm, hrevision⟩

end Shared

/-- What revisions tell in a world that is shared, from a moment `h₀` to a later one `h`. -/
structure RevisionsTell (h₀ h : Shared) : Prop where
  /-- Every combatant of a start that has been answered has a row, as it was answered. -/
  started : ∀ i r a, h.world.request? i = some (.start r) →
    h.world.answer? i = some (.ok (.started a)) →
    ∀ slot ∈ a.order, ∃ k ∈ h.world.store.combatants, .ofCombatant k.record = slot ∧
      k.record.combatId = a.combatId
  counts : ∀ k ∈ h.world.store.combatants, k.record.revision = h.commits k.record.id
  /-- A row stays what it is but for what is written to it, and it stays all that it is as long as
  nothing is. -/
  stands : ∀ k ∈ h₀.world.store.combatants, ∃ k' ∈ h.world.store.combatants,
    k'.record.identity = k.record.identity ∧
    (h.commits k.record.id = h₀.commits k.record.id → k' = k)
  /-- What cannot be read of a row is not mended by what is written to it. -/
  unread : ∀ k ∈ h₀.world.store.combatants, k.damaged = true → ∃ k' ∈ h.world.store.combatants,
    k'.record.identity = k.record.identity ∧ k'.damaged = true
  /-- Whatever else it writes, a write over the revision that was read before is committed exactly
  if nothing has been committed to the row since. -/
  guarded : ∀ (c : Combatant) (t : Transaction), h₀.world.store.Shows c → t.combatant.id = c.id →
    t.combatant.revision = c.revision →
      (t.outcome h.world.store = .committed ↔ h.commits c.id = h₀.commits c.id)
  undone : ∀ t : Transaction, t.outcome h.world.store = .aborted ∨ t.kept = false →
    t.run h.world.store = h.world.store
  /-- A write that is committed goes to the row that is still at its revision, and to no other. -/
  done : ∀ t : Transaction, t.kept = true → t.outcome h.world.store = .committed →
    ∃ k ∈ h.world.store.combatants, k.record.id = t.combatant.id ∧
      k.record.revision = t.combatant.revision ∧
      t.run h.world.store =
        { h.world.store with combatants := h.world.store.combatants.map (t.written k) }

/-- Others may write combatants among the calls, with any revisions and any values, and keep what
they have written or roll it back. The revision of a row counts what has been committed to it, so
none comes twice: a write over the revision that was read is committed exactly if the row has not
been written since. -/
theorem Combatant.revisions_tell (onFile : Bool) (before during : List Incident) :
    let h₀ := (Shared.opened onFile).through before
    RevisionsTell h₀ (h₀.through during) := by
  intro h₀
  have hw₀ : h₀.world.Sound := Shared.sound_through (World.sound_opened onFile) before
  have hw : (h₀.through during).world.Sound := Shared.sound_through hw₀ during
  have hc₀ : h₀.Counts := Shared.counts_through onFile before
  have hthrough : h₀.through during = (Shared.opened onFile).through (before ++ during) :=
    List.foldl_append.symm
  have hc : (h₀.through during).Counts :=
    hthrough ▸ Shared.counts_through onFile (before ++ during)
  have hlines : (h₀.through during).world.LinesUp :=
    hthrough ▸ Shared.linesUp_through onFile (before ++ during)
  have hstands : ∀ k ∈ h₀.world.store.combatants,
      ∃ k' ∈ (h₀.through during).world.store.combatants,
        k'.record.identity = k.record.identity ∧
        ((h₀.through during).commits k.record.id = h₀.commits k.record.id → k' = k) := by
    intro k hk
    obtain ⟨k', hk', hidentity, hstill⟩ := (Shared.later_through hw₀ during).combatants k hk
    refine ⟨k', hk', hidentity, fun hsame => hstill.resolve_right ?_⟩
    rw [hc₀.revisions k hk, hc.revisions k' hk', Combatant.id_of_identity hidentity, hsame]
    exact lt_irrefl _
  refine ⟨fun i r a hrequest hanswer slot hslot => ?_, hc.revisions, hstands,
    (Shared.later_through hw₀ during).damaged, fun c t hshown hid hrevision => ?_, fun t =>
      Transaction.run_eq_self, fun t => t.run_eq_written hw.store.toTidy⟩
  · obtain ⟨roster, -, hlined⟩ := hlines i r a hrequest (World.promises_of_answer hanswer)
    rw [← hlined.slots] at hslot
    obtain ⟨c, hmem, rfl⟩ := List.mem_map.mp hslot
    obtain ⟨k, hk, rfl, hcombat⟩ := Store.mem_roster.mp hmem
    exact ⟨k, hk, rfl, hcombat⟩
  · obtain ⟨k, hk, rfl⟩ := Store.mem_of_shows hshown
    obtain ⟨k', hk', hidentity, -⟩ := hstands k hk
    have hid' : k'.record.id = k.record.id := Combatant.id_of_identity hidentity
    rw [Shared.outcome_eq_committed_iff hw hk' (hid.trans hid'.symm), hrevision,
      hc.revisions k' hk', hc₀.revisions k hk, hid', Int.natCast_inj]

/-- While a call that has read the row is under way, others write the row, write it over a
revision that is past, write it and roll that back, and write it over a revision that it has never
had. -/
def Shared.meddling : List Incident :=
  [.move (.call (.act ⟨"combat-1", "combatant-1", "damage", some (.number 3), none⟩)),
    .move (.step 1),
    .move (.step 1), .transaction ⟨{ World.soloCombatant with currentHp := 4 }, true⟩,
    .transaction ⟨{ World.soloCombatant with currentHp := 7 }, true⟩,
    .transaction ⟨{ World.soloCombatant with currentHp := 9, revision := 1 }, false⟩,
    .transaction ⟨{ World.soloCombatant with currentHp := 2, revision := 7 }, true⟩,
    .move (.step 1), .move (.step 1), .move (.step 1), .move (.step 1)]

theorem Combatant.revisions_tell_meddling :
    let h₀ := (Shared.opened false).through (World.soloStart.map .move)
    let h := h₀.through Shared.meddling
    h.ended.map Prod.snd = [.committed, .aborted, .committed, .aborted] ∧
      h.world.store.combatants.map (fun k => (k.record.currentHp, k.record.revision)) = [(1, 2)] ∧
      h₀.world.store.Shows World.soloCombatant ∧ RevisionsTell h₀ h ∧
      Transaction.outcome ⟨{ World.soloCombatant with currentHp := 5 }, true⟩ h.world.store =
        .aborted := by
  intro h₀ h
  have hstart : h₀ = ⟨World.soloWorld, []⟩ := by
    rw [← World.after_soloStart]
    exact Shared.through_moves _ _
  have hshown : h₀.world.store.Shows World.soloCombatant := by
    rw [hstart]
    exact .inl (by cbv)
  have hcounts :
      h₀.commits World.soloCombatant.id = 0 ∧ h.commits World.soloCombatant.id = 2 := by
    change h₀.commits _ = 0 ∧ (h₀.through Shared.meddling).commits _ = 2
    rw [hstart]
    constructor <;> cbv
  have htell : RevisionsTell h₀ h := Combatant.revisions_tell false _ Shared.meddling
  refine ⟨?_, ?_, hshown, htell, Transaction.outcome_eq_aborted fun hcommitted => ?_⟩
  · change (h₀.through Shared.meddling).ended.map _ = _
    rw [hstart]
    cbv
  · change (h₀.through Shared.meddling).world.store.combatants.map _ = _
    rw [hstart]
    cbv
  · have hsame := (htell.guarded World.soloCombatant _ hshown rfl rfl).mp hcommitted
    rw [hcounts.1, hcounts.2] at hsame
    exact absurd hsame (by decide)

end Gamemaster
