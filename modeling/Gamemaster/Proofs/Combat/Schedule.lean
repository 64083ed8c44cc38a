import Gamemaster.Proofs.Combat.Versions
import Gamemaster.Proofs.Combatant.Order
import Gamemaster.Proofs.Combatant.Updates

namespace Gamemaster

/-- The state of a combat of `k` combatants after `n` turns. -/
structure Combat.IsAfter (c : Combat) (k n : Nat) : Prop where
  round : c.round = 1 + (n / k : Nat)
  turnIndex : c.turnIndex = (n % k : Nat)
  version : c.version = 1 + n

namespace Combat.IsAfter

variable {c : Combat} {k n : Nat}

theorem start (id campaignId : String) (encounterId : Option String) (k : Nat) :
    (Combat.start id campaignId encounterId).IsAfter k 0 where
  round := by simp [Combat.start]
  turnIndex := by simp [Combat.start]
  version := rfl

/-- The next turn of a combat. The round moves on just where the index comes round to zero. -/
theorem take (h : c.IsAfter k n) (hk : k < 2 ^ 63) (hn : n + 1 < 2 ^ 63 - 1) {observed : Int}
    {t : Turn} (hadvanced : c.advance observed k = .ok t) : (c.take t).IsAfter k (n + 1) := by
  obtain ⟨-, hpos, -, htindex, htround, htversion⟩ := Combat.eq_of_advance hadvanced
  obtain ⟨hround, hindex, hversion⟩ := h
  have hlt : n % k < k := Nat.mod_lt n (Nat.pos_of_ne_zero hpos)
  have hle : n / k ≤ n := Nat.div_le_self n k
  have hwrap : ∀ m : Nat, m < 2 ^ 63 → Word.wrap m = m := fun m hm => by
    refine Word.wrap_of_fits ?_
    simp only [Word.Fits, Word.low, Word.high]
    omega
  have hindex' : t.turnIndex = ((n + 1) % k : Nat) := by
    rw [htindex, hindex, ← Int.natCast_succ, hwrap (n % k + 1) (by omega), hwrap k hk,
      ← Int.natCast_emod, Nat.mod_add_mod]
  have hnext : ∀ m : Nat, m ≤ n → Word.wrap (1 + (m : Int) + 1) = 1 + ((m + 1 : Nat) : Int) := by
    intro m hm
    have hsum : 1 + (m : Int) + 1 = ((m + 2 : Nat) : Int) := by omega
    rw [hsum, hwrap _ (by omega)]
    omega
  refine ⟨?_, hindex', ?_⟩
  · change t.round = _
    rw [htround, hindex', hround, Nat.succ_div]
    by_cases hdvd : k ∣ n + 1
    · rw [if_pos hdvd, if_pos (by rw [Nat.mod_eq_zero_of_dvd hdvd]; rfl), hnext _ hle]
    · rw [if_neg hdvd, if_neg (by rwa [Int.natCast_eq_zero, ← Nat.dvd_iff_mod_eq_zero]),
        Nat.add_zero]
  · change t.version = _
    rw [htversion, hversion, hnext n (Nat.le_refl n)]

end Combat.IsAfter

namespace Store

/-- Rows that were inserted once are still there. A row that could be read then cannot be read any
more only if it has outgrown its revisions. -/
def Traces (rows : List (Kept Combatant)) (s : Store) : Prop :=
  ∀ k₀ ∈ rows, ∃ k ∈ s.combatants, k.record.identity = k₀.record.identity ∧
    k.damaged = (k₀.damaged || !decide (Word.Fits k.record.revision))

variable {s s' : Store} {rows : List (Kept Combatant)}

theorem Traces.effect (h : s.Traces rows) (hs : s.Sound) {r : Request} {a : Answer}
    (heffect : Effect r a s s') : s'.Traces rows := by
  intro k₀ hk₀
  obtain ⟨k, hk, hidentity, hdamaged⟩ := h k₀ hk₀
  rcases heffect.row_cases hs hk with ⟨action, -, -, hread, hmem, -⟩ | ⟨-, hmem⟩
  · refine ⟨_, hmem, Store.identity_acted.trans hidentity, ?_⟩
    rw [hread, eq_comm, Bool.or_eq_false_iff] at hdamaged
    change (k.damaged || _) = _
    rw [hread, hdamaged.1]
    rfl
  · exact ⟨k, hmem, hidentity, hdamaged⟩

section Readable

variable {combatId : String}

theorem Traces.exists_row (h : s.Traces rows)
    (hroster : (s.roster combatId).map Combatant.identity = rows.map fun k => k.record.identity)
    {k₀ : Kept Combatant} (hk₀ : k₀ ∈ rows) :
    ∃ k ∈ s.combatants, k.record.combatId = combatId ∧
      k.damaged = (k₀.damaged || !decide (Word.Fits k.record.revision)) := by
  obtain ⟨k, hk, hidentity, hdamaged⟩ := h k₀ hk₀
  refine ⟨k, hk, ?_, hdamaged⟩
  have hmem : k₀.record.identity ∈ (s.roster combatId).map Combatant.identity :=
    hroster ▸ List.mem_map_of_mem hk₀
  obtain ⟨c, hc, hcid⟩ := List.mem_map.mp hmem
  obtain ⟨-, -, -, hcombat⟩ := mem_roster.mp hc
  rw [Combatant.combatId_of_identity (hidentity.trans hcid.symm)]
  exact hcombat

theorem Traces.exists_inserted (h : s.Traces rows) (hs : s.Sound)
    (hroster : (s.roster combatId).map Combatant.identity = rows.map fun k => k.record.identity)
    {k : Kept Combatant} (hk : k ∈ s.combatants) (hcombat : k.record.combatId = combatId) :
    ∃ k₀ ∈ rows, k.damaged = (k₀.damaged || !decide (Word.Fits k.record.revision)) := by
  have hmem : k.record.identity ∈ rows.map fun k => k.record.identity :=
    hroster ▸ List.mem_map_of_mem (mem_roster.mpr ⟨k, hk, rfl, hcombat⟩)
  obtain ⟨k₀, hk₀, hidentity₀⟩ := List.mem_map.mp hmem
  obtain ⟨k', hk', hidentity, hdamaged⟩ := h k₀ hk₀
  obtain rfl :=
    hs.eq_of_combatantId hk' hk (Combatant.id_of_identity (hidentity.trans hidentity₀))
  exact ⟨k₀, hk₀, hdamaged⟩

theorem readable_iff (hs : s.Sound) (h : s.Traces rows)
    (hroster : (s.roster combatId).map Combatant.identity = rows.map fun k => k.record.identity) :
    s.Readable combatId ↔ (∀ k₀ ∈ rows, k₀.damaged = false) ∧
      ∀ k ∈ s.combatants, k.record.combatId = combatId → Word.Fits k.record.revision := by
  constructor
  · intro hread
    constructor
    · intro k₀ hk₀
      obtain ⟨k, hk, hcombat, hdamaged⟩ := h.exists_row hroster hk₀
      rw [hread k hk hcombat, eq_comm, Bool.or_eq_false_iff] at hdamaged
      exact hdamaged.1
    · intro k hk hcombat
      obtain ⟨k₀, -, hdamaged⟩ := h.exists_inserted hs hroster hk hcombat
      rw [hread k hk hcombat, eq_comm, Bool.or_eq_false_iff] at hdamaged
      simpa using hdamaged.2
  · rintro ⟨hrows, hfits⟩ k hk hcombat
    obtain ⟨k₀, hk₀, hdamaged⟩ := h.exists_inserted hs hroster hk hcombat
    rw [hdamaged, hrows k₀ hk₀]
    simp [hfits k hk hcombat]

end Readable

end Store

/-- What is answered to the `n`-th turn of a combat whose combatants take their turns in an
order. -/
structure TurnAnswer.Follows (t : TurnAnswer) (order : List InitiativeSlot) (n : Nat) : Prop where
  active : ∃ c slot, t.active = some c ∧ order[n % order.length]? = some slot ∧
    c.id = slot.id ∧ c.name = slot.name ∧ c.side = slot.side
  round : t.round = 1 + (n / order.length : Nat)
  turnIndex : t.turnIndex = (n % order.length : Nat)
  version : t.version = 1 + n

theorem itemAt?_natCast (items : List α) (n : Nat) : itemAt? items n = items[n]? := by
  simp [itemAt?]

theorem InitiativeSlot.map_of_identity {cs ds : List Combatant}
    (h : cs.map Combatant.identity = ds.map Combatant.identity) :
    cs.map ofCombatant = ds.map ofCombatant := by
  have hslot : ofCombatant = ofCombatant ∘ Combatant.identity := rfl
  rw [hslot, ← List.map_map, h, List.map_map]

theorem InitiativeSlot.map_roster {s : Store} {combatId : String} {rows : List (Kept Combatant)}
    (h : (s.roster combatId).map Combatant.identity = rows.map fun k => k.record.identity) :
    (s.roster combatId).map ofCombatant = rows.map fun k => ofCombatant k.record := by
  have hrecords : (s.roster combatId).map Combatant.identity =
      (rows.map Kept.record).map Combatant.identity := by
    rw [h, List.map_map]
    rfl
  rw [map_of_identity hrecords, List.map_map]
  rfl

theorem Effect.follows {r : TurnRequest} {x : Answer} {s s' : Store}
    (h : Effect (.nextTurn r) x s s') (hs : s.Sound) {order : List InitiativeSlot}
    (horder : (s.roster r.combatId).map .ofCombatant = order) (hk : order.length < 2 ^ 63)
    (hturns : s.turns r.combatId + 1 < 2 ^ 63 - 1)
    (hstate : ∀ row ∈ s.combats, row.combat.id = r.combatId →
      row.combat.IsAfter order.length (s.turns r.combatId)) :
    ∃ t, x = .turned t ∧ t.Follows order (s.turns r.combatId + 1) ∧
      ∃ row ∈ s'.combats, row.combat.id = r.combatId ∧
        row.combat.IsAfter order.length (s.turns r.combatId + 1) := by
  cases h with
  | @turn r combat seen turn row s s₁ s' found target current _ still present advanced
      written logged =>
      -- Versions have not wrapped yet, so the combat is still as the call has read it.
      obtain rfl := still (by omega)
      have hslots : seen.map .ofCombatant = order := by
        rw [← horder, InitiativeSlot.map_of_identity present]
      have hlength : seen.length = order.length := by rw [← hslots, List.length_map]
      rw [hlength] at advanced
      have hafter := (hstate row found target).take hk hturns advanced
      refine ⟨_, rfl, ⟨?_, hafter.round, hafter.turnIndex, hafter.version⟩, ?_⟩
      · obtain ⟨-, hpos, -⟩ := Combat.eq_of_advance advanced
        have hlt : (s.turns r.combatId + 1) % order.length < seen.length := by
          rw [hlength]
          exact Nat.mod_lt _ (Nat.pos_of_ne_zero hpos)
        obtain ⟨c, hc⟩ : ∃ c, seen[(s.turns r.combatId + 1) % order.length]? = some c :=
          ⟨_, List.getElem?_eq_getElem hlt⟩
        have hactive : itemAt? seen (row.combat.take turn).turnIndex = some c := by
          rw [hafter.turnIndex, itemAt?_natCast, hc]
        have hslot : (seen.map .ofCombatant)[(s.turns r.combatId + 1) % order.length]? =
            some (InitiativeSlot.ofCombatant c) := by
          rw [List.getElem?_map, hc]
          rfl
        rw [hslots] at hslot
        exact ⟨_, _, congrArg (Option.map Service.ActiveCombatant.of) hactive, hslot,
          rfl, rfl, rfl⟩
      · rw [← target] at written
        obtain rfl := Store.eq_of_turn hs.toTidy written
        obtain ⟨events, -, rfl⟩ := Store.eq_of_append logged
        exact ⟨_, List.mem_map.mpr ⟨row, found, if_pos rfl⟩, target, hafter⟩

/-- How a start request lines a roster up: its answer, and the rows that it inserts. -/
structure StartRequest.Enters (r : StartRequest) (a : StartAnswer) (roster : List Member)
    (rows : List (Kept Combatant)) : Prop where
  own : r.roster ≠ [] → roster = r.roster
  lined : a.order.map (fun s => (s.name, s.side, s.initiative)) =
    (Entrant.lineUp roster).map fun e => (e.member.name, e.member.side, e.initiative)
  inserted : a.order = rows.map fun k => .ofCombatant k.record
  /-- A row can be read if the stat block can be read again. -/
  undamaged : (∀ k ∈ rows, k.damaged = false) ↔ ∀ m ∈ roster, (m.stats.getD []).reread? ≠ none

theorem Combatant.damaged_kept (c : Combatant) : c.kept.damaged = c.stats.reread?.isNone := by
  unfold kept
  cases c.stats.reread? <;> rfl

theorem Entrant.map_member_lineUp (roster : List Member) :
    ((lineUp roster).map Entrant.member).Perm roster := by
  have hroster : (ofRoster roster).map Entrant.member = roster := by
    apply List.ext_getElem
    · simp [ofRoster]
    · simp [ofRoster]
  exact ((List.mergeSort_perm _ _).map _).trans (by rw [hroster])

theorem Entrant.map_mapIdx_toCombatant {β : Type} {f : Combatant → β} {g : Entrant → β}
    {combatId : String} (ids : Nat → String) (hf : ∀ e id, f (e.toCombatant combatId id) = g e)
    (entrants : List Entrant) :
    (entrants.mapIdx fun i e => e.toCombatant combatId (ids i)).map f = entrants.map g := by
  apply List.ext_getElem
  · simp
  · intro i h₁ h₂
    simp [hf]

theorem Entrant.undamaged_iff {roster : List Member} {combatants : List Combatant}
    (hstats : combatants.map Combatant.stats =
      (lineUp roster).map fun e => e.member.stats.getD []) :
    (∀ k ∈ combatants.map Combatant.kept, k.damaged = false) ↔
      ∀ m ∈ roster, (m.stats.getD []).reread? ≠ none := by
  have hrows : (∀ k ∈ combatants.map Combatant.kept, k.damaged = false) ↔
      ∀ stats ∈ combatants.map Combatant.stats, stats.reread? ≠ none := by
    rw [List.forall_mem_map, List.forall_mem_map]
    refine forall₂_congr fun c _ => ?_
    rw [Combatant.damaged_kept, Option.isNone_eq_false_iff, Option.isSome_iff_ne_none]
  rw [hrows, hstats, List.forall_mem_map]
  have hmem := fun m => (map_member_lineUp roster).mem_iff (a := m)
  constructor
  · intro h m hm
    obtain ⟨e, he, rfl⟩ := List.mem_map.mp ((hmem m).mpr hm)
    exact h e he
  · exact fun h e he => h e.member ((hmem e.member).mp (List.mem_map_of_mem he))

theorem InitiativeSlot.map_kept (combatants : List Combatant) :
    (combatants.map Combatant.kept).map (fun k => ofCombatant k.record) =
      combatants.map ofCombatant := by
  rw [List.map_map]
  refine List.map_congr_left fun c _ => ?_
  obtain ⟨stats, hrecord⟩ := c.record_kept
  change ofCombatant c.kept.record = _
  rw [hrecord]
  rfl

section Start

variable {r : StartRequest} {roster : List Member} {combat : Combat} {combatants : List Combatant}
  {s s₁ s' : Store} {e : Event}

theorem Store.map_inserted {campaignId : String} {encounterId : Option String} {β : Type}
    {f : Combatant → β} {g : Entrant → β}
    (inserted : s.insertCombat campaignId encounterId roster = ((combat, combatants), s₁))
    (hf : ∀ e id, f (e.toCombatant combat.id id) = g e) :
    combatants.map f = (Entrant.lineUp roster).map g := by
  obtain ⟨-, hcombatants, -⟩ := eq_of_insertCombat inserted
  rw [hcombatants]
  exact Entrant.map_mapIdx_toCombatant
    (fun i => idOf "combatant" (s.issued.combatants + i + 1)) hf _

theorem StartRequest.enters_inserted (own : r.roster ≠ [] → roster = r.roster)
    (inserted : s.insertCombat r.campaignId r.encounterId roster = ((combat, combatants), s₁)) :
    r.Enters (Service.startReport combat combatants).1 roster
      (combatants.map Combatant.kept) := by
  refine ⟨own, ?_, ?_, ?_⟩
  · change (combatants.map InitiativeSlot.ofCombatant).map _ = _
    rw [List.map_map]
    exact Store.map_inserted inserted fun _ _ => rfl
  · exact (InitiativeSlot.map_kept combatants).symm
  · exact Entrant.undamaged_iff (Store.map_inserted inserted fun _ _ => rfl)

theorem StartRequest.Plays.enters (plays : r.Plays s roster)
    (inserted : s.insertCombat r.campaignId r.encounterId roster = ((combat, combatants), s₁)) :
    r.Enters (Service.startReport combat combatants).1 roster
      (combatants.map Combatant.kept) := by
  refine enters_inserted (fun hne => ?_) inserted
  rwa [StartRequest.Plays, if_neg hne] at plays

theorem Store.traces_start
    (inserted : s.insertCombat r.campaignId r.encounterId roster = ((combat, combatants), s₁))
    (logged : s₁.append e = .ok s') : s'.Traces (combatants.map Combatant.kept) := by
  intro k₀ hk₀
  obtain ⟨c, hc, rfl⟩ := List.mem_map.mp hk₀
  obtain ⟨entrant, id, rfl⟩ := mem_inserted inserted hc
  obtain ⟨-, -, rfl⟩ := eq_of_insertCombat inserted
  obtain ⟨events, -, rfl⟩ := eq_of_append logged
  refine ⟨_, List.mem_append_right _ hk₀, rfl, ?_⟩
  obtain ⟨stats, hrecord⟩ := (entrant.toCombatant combat.id id).record_kept
  rw [hrecord]
  exact (Bool.or_false _).symm

end Start

theorem Effect.enters {r : StartRequest} {x : Answer} {s s' : Store}
    (h : Effect (.start r) x s s') (hs : s.Sound) :
    ∃ a roster rows, x = .started a ∧ r.Plays s roster ∧ r.Enters a roster rows ∧
      s.turns a.combatId = 0 ∧ s'.Traces rows ∧
      (s'.roster a.combatId).map Combatant.identity = (rows.map fun k => k.record.identity) ∧
      ∃ row ∈ s'.combats, row.combat.id = a.combatId ∧ row.combat.IsAfter a.order.length 0 := by
  cases h with
  | @start r roster combat combatants s s₁ s' _ plays _ _ inserted logged =>
      have htraces := Store.traces_start inserted logged
      have hroster := Store.roster_of_start hs.toTidy inserted logged
      refine ⟨_, roster, _, rfl, plays, plays.enters inserted,
        Store.turns_inserted hs inserted, htraces, ?_, ?_⟩
      · change (s'.roster combat.id).map _ = _
        rw [hroster, List.map_map, List.map_map]
        rfl
      · obtain ⟨hcombat, -, rfl⟩ := Store.eq_of_insertCombat inserted
        obtain ⟨events, -, rfl⟩ := Store.eq_of_append logged
        refine ⟨_, List.mem_append_right _ (List.mem_singleton.mpr rfl), rfl, ?_⟩
        rw [hcombat]
        exact .start _ _ _ _

/-- Whether the combatants of a combat can be read: the stat blocks of the roster can be read
again as they were written, and no row has outgrown its revisions. -/
def StartAnswer.Legible (a : StartAnswer) (roster : List Member) (s : Store) : Prop :=
  (∀ m ∈ roster, (m.stats.getD []).reread? ≠ none) ∧
    ∀ k ∈ s.combatants, k.record.combatId = a.combatId → Word.Fits k.record.revision

/-- A combat with the rows of its combatants, as they were once inserted. -/
structure Entered (a : StartAnswer) (rows : List (Kept Combatant)) (w : World) : Prop where
  found : ∃ row ∈ w.store.combats, row.combat.id = a.combatId
  roster : (w.store.roster a.combatId).map Combatant.identity = rows.map fun k =>
    k.record.identity
  traced : w.store.Traces rows

namespace Entered

variable {a : StartAnswer} {rows : List (Kept Combatant)} {w : World}

theorem make (h : Entered a rows w) (hw : w.Sound) (m : Move) : Entered a rows (w.make m) := by
  obtain ⟨row, hrow, hid⟩ := h.found
  refine ⟨?_, ?_, ?_⟩
  · rw [← hid]
    exact (hw.later_make m).mem_combat hrow
  · rw [← h.roster, ← hid]
    exact (hw.later_make m).rosters row hrow
  · rcases hw.make_cases m with ⟨hstore, -⟩ | ⟨i, r, x, -, -, -, heffect, -, -⟩
    · exact hstore ▸ h.traced
    · exact h.traced.effect hw.store heffect

theorem slots (h : Entered a rows w)
    (horder : a.order = rows.map fun k => .ofCombatant k.record) :
    (w.store.roster a.combatId).map .ofCombatant = a.order :=
  horder ▸ InitiativeSlot.map_roster h.roster

theorem readable_iff_legible (h : Entered a rows w) (hw : w.Sound) {r : StartRequest}
    {roster : List Member} (henters : r.Enters a roster rows) :
    w.store.Readable a.combatId ↔ a.Legible roster w.store := by
  rw [Store.readable_iff hw.store h.traced h.roster, henters.undamaged]
  rfl

end Entered

/-- The schedule that a combat with the rows of its combatants keeps. -/
structure Scheduled (a : StartAnswer) (rows : List (Kept Combatant)) (w : World) : Prop
    extends Entered a rows w where
  state : w.store.turns a.combatId < 2 ^ 63 - 1 → ∀ row ∈ w.store.combats,
    row.combat.id = a.combatId → row.combat.IsAfter a.order.length (w.store.turns a.combatId)
  named : ∀ n j : Nat, n + 1 < 2 ^ 63 - 1 →
    (w.committed (Request.turns a.combatId))[n]? = some j →
    ∃ t : TurnAnswer, w.Promises j (.ok (.turned t)) ∧ t.Follows a.order (n + 1)

namespace Scheduled

variable {a : StartAnswer} {rows : List (Kept Combatant)} {w : World}

theorem named_make (h : Scheduled a rows w) (m : Move) {n j : Nat} (hn : n + 1 < 2 ^ 63 - 1)
    (hj : (w.committed (Request.turns a.combatId))[n]? = some j) :
    ∃ t : TurnAnswer, (w.make m).Promises j (.ok (.turned t)) ∧ t.Follows a.order (n + 1) := by
  obtain ⟨t, hpromise, ht⟩ := h.named n j hn hj
  exact ⟨t, hpromise.make m, ht⟩

theorem make_of_wait (h : Scheduled a rows w) (hw : w.Sound) {m : Move}
    (hsame : (w.make m).committed (Request.turns a.combatId) =
      w.committed (Request.turns a.combatId))
    (hturns : (w.make m).store.turns a.combatId = w.store.turns a.combatId) :
    Scheduled a rows (w.make m) := by
  refine ⟨h.toEntered.make hw m, ?_, ?_⟩
  · intro hbound row' hrow' hid'
    obtain ⟨row, hrow, hid⟩ := h.found
    obtain ⟨row'', hrow'', hidentity, hstill⟩ := (hw.later_make m).combats row hrow
    rw [hid, hturns] at hstill
    obtain rfl := hstill.resolve_right (Nat.lt_irrefl _)
    rw [(hw.make m).store.eq_of_combatId hrow' hrow'' (hid'.trans hid.symm), hturns]
    exact h.state (hturns ▸ hbound) row'' hrow hid
  · intro n j hn hj
    exact h.named_make m hn (hsame ▸ hj)

theorem make_of_turn (h : Scheduled a rows w)
    (horder : a.order = rows.map fun k => .ofCombatant k.record) (hk : a.order.length < 2 ^ 63)
    (hw : w.Sound) (htaken : w.TurnsTaken a.combatId) {m : Move} {i : Nat} {r : TurnRequest}
    {x : Answer} (hr : r.combatId = a.combatId)
    (heffect : Effect (.nextTurn r) x w.store (w.make m).store)
    (hpromise : (w.make m).Promises i (.ok x))
    (hgrown : (w.make m).committed (Request.turns a.combatId) =
      w.committed (Request.turns a.combatId) ++ [i])
    (hturns : (w.make m).store.turns a.combatId = w.store.turns a.combatId + 1) :
    Scheduled a rows (w.make m) := by
  have hfollows : w.store.turns a.combatId + 1 < 2 ^ 63 - 1 →
      ∃ t, x = .turned t ∧ t.Follows a.order (w.store.turns a.combatId + 1) ∧
        ∃ row ∈ (w.make m).store.combats, row.combat.id = a.combatId ∧
          row.combat.IsAfter a.order.length (w.store.turns a.combatId + 1) := by
    intro hbound
    have hslots : (w.store.roster r.combatId).map .ofCombatant = a.order := by
      rw [hr]
      exact h.slots horder
    have hturn := heffect.follows hw.store hslots hk
    rw [hr] at hturn
    exact hturn hbound (h.state (by omega))
  refine ⟨h.toEntered.make hw m, ?_, ?_⟩
  · intro hbound row' hrow' hid'
    rw [hturns] at hbound ⊢
    obtain ⟨-, -, -, row, hrow, hid, hafter⟩ := hfollows hbound
    rwa [(hw.make m).store.eq_of_combatId hrow' hrow (hid'.trans hid.symm)]
  · intro n j hn hj
    rw [hgrown] at hj
    rcases getElem?_concat hj with hj | ⟨rfl, rfl⟩
    · exact h.named_make m hn hj
    · rw [← htaken.count] at hn ⊢
      obtain ⟨t, rfl, ht, -⟩ := hfollows hn
      exact ⟨t, hpromise, ht⟩

theorem make (h : Scheduled a rows w) (horder : a.order = rows.map fun k => .ofCombatant k.record)
    (hk : a.order.length < 2 ^ 63) (hw : w.Sound) (htaken : w.TurnsTaken a.combatId) (m : Move) :
    Scheduled a rows (w.make m) := by
  rcases hw.turn_cases a.combatId m with
    ⟨hsame, hturns⟩ | ⟨i, r, x, -, hr, heffect, hpromise, hgrown, hturns⟩
  · exact h.make_of_wait hw hsame hturns
  · exact h.make_of_turn horder hk hw htaken hr heffect hpromise hgrown hturns

end Scheduled

namespace World

variable {w : World}

def Schedules (w : World) : Prop :=
  ∀ i r a, w.request? i = some (.start r) → w.Promises i (.ok (.started a)) →
    a.order.length < 2 ^ 63 → ∃ roster rows, r.Enters a roster rows ∧ Scheduled a rows w

theorem Schedules.make (h : w.Schedules) (hw : w.Sound) (htaken : ∀ id, w.TurnsTaken id)
    (m : Move) :
    (w.make m).Schedules := by
  intro i r a hrequest hpromise hk
  rcases hw.promises_of_make hrequest rfl hpromise with ⟨hrequest, hpromise⟩ | heffect
  · obtain ⟨roster, rows, henters, hscheduled⟩ := h i r a hrequest hpromise hk
    exact ⟨roster, rows, henters, hscheduled.make henters.inserted hk hw (htaken _) m⟩
  · obtain ⟨a', roster, rows, ha, -, henters, hturns, htraced, hroster, row, hrow, hid, hafter⟩ :=
      heffect.enters hw.store
    obtain rfl := Answer.started.inj ha
    have hnone : (w.make m).store.turns a.combatId = 0 := (heffect.turns_eq _).trans hturns
    refine ⟨roster, rows, henters, ⟨⟨row, hrow, hid⟩, hroster, htraced⟩,
      fun _ row' hrow' hid' => ?_, ?_⟩
    · rwa [hnone, (hw.make m).store.eq_of_combatId hrow' hrow (hid'.trans hid.symm)]
    · intro n j _ hj
      have hlength := ((htaken a.combatId).make hw m).count
      rw [hnone] at hlength
      rw [List.length_eq_zero_iff.mp hlength.symm] at hj
      simp at hj

end World

namespace Scheduled

variable {a : StartAnswer} {rows : List (Kept Combatant)} {w : World}

theorem rounds (h : Scheduled a rows w)
    (hn : (w.committed (Request.turns a.combatId)).length < 2 ^ 63 - 1) {m : Nat}
    {ts : List TurnAnswer} (hlength : ts.length = a.order.length)
    (hanswers : ∀ l (hl : l < ts.length), ∃ j,
      (w.committed (Request.turns a.combatId))[m + l]? = some j ∧
      w.answer? j = some (.ok (.turned ts[l]))) :
    (ts.map fun t => t.active.map ActiveCombatant.id).Perm (a.order.map fun s => some s.id) := by
  have hrotated : (ts.map fun t => t.active.map ActiveCombatant.id) =
      (a.order.rotate (m + 1)).map fun s => some s.id := by
    apply List.ext_getElem
    · simp [hlength]
    · intro l hl hl'
      rw [List.length_map] at hl
      obtain ⟨j, hj, hanswer⟩ := hanswers l hl
      have hlt := (List.getElem?_eq_some_iff.mp hj).1
      obtain ⟨t, hpromise, ht⟩ := h.named (m + l) j (by omega) hj
      obtain rfl : ts[l] = t :=
        Answer.turned.inj (Except.ok.inj (hpromise.answer_eq hanswer))
      obtain ⟨c, slot, hactive, hslot, hid, -⟩ := ht.active
      obtain ⟨hplace, hget⟩ := List.getElem?_eq_some_iff.mp hslot
      rw [List.getElem_map, List.getElem_map, List.getElem_rotate, hactive, Option.map_some, hid,
        ← hget]
      have hsum : m + l + 1 = l + (m + 1) := by omega
      simp only [hsum]
  rw [hrotated]
  exact (List.rotate_perm _ _).map _

theorem run_view (h : Scheduled a rows w) (hw : w.Sound)
    (horder : a.order = rows.map fun k => .ofCombatant k.record)
    (hturns : w.store.turns a.combatId < 2 ^ 63 - 1) :
    (w.store.Readable a.combatId →
      ∃ v, ((Service.view a.combatId).run.run w.store).answer = .ok v ∧
      v.combat.IsAfter a.order.length (w.store.turns a.combatId) ∧
      v.activeId = a.order[w.store.turns a.combatId % a.order.length]?.map InitiativeSlot.id ∧
      v.combatants.map .ofCombatant = a.order) ∧
    (¬w.store.Readable a.combatId →
      ((Service.view a.combatId).run.run w.store).answer = .error .storage) := by
  obtain ⟨row, hrow, hid⟩ := h.found
  have hafter := h.state hturns row hrow hid
  have hview := Service.run_view hw.store.toTidy hrow
  rw [hid] at hview
  have hslots := h.slots horder
  refine ⟨fun hread => ⟨_, hview.trans (if_pos hread), hafter, ?_, hslots⟩,
    fun hread => hview.trans (if_neg hread)⟩
  rw [hafter.turnIndex, itemAt?_natCast]
  generalize w.store.turns a.combatId % a.order.length = place
  rw [← hslots, List.getElem?_map, Option.map_map]
  rfl

end Scheduled

/-- A stat block that is stored, but not read again: in the text that is kept of it, the inner
object begins with the key of a text inside a text. -/
def StatBlock.unreadable : StatBlock :=
  [("x", .object [(Json.embeddedKey, .text "boom"), ("a", .int 1)])]

end Gamemaster
