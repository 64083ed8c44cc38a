import Gamemaster.Proofs.Combat.Versions
import Gamemaster.Proofs.Combatant.Updates

namespace Gamemaster

/-- The kinds of the events that tell of an action. -/
def actionKinds : List String :=
  ["combat.damage", "combat.heal", "combat.temp_hp", "combat.add_condition",
    "combat.remove_condition", "combat.custom_note"]

theorem Action.kind_mem (action : Action) : "combat." ++ action.tag ∈ actionKinds := by
  cases action <;> simp [tag, actionKinds]

namespace Event

def isActionOn (id : String) (e : Event) : Bool :=
  match e.happening with
  | .actionApplied tag _ target .. => "combat." ++ tag ∈ actionKinds ∧ target = id
  | _ => false

/-- Whether an event tells what an action has made of a combatant. -/
def TellsOf (e : Event) (c : Combatant) : Prop :=
  ∃ action : Action, e.happening =
    .actionApplied action.tag c.combatId c.id c.currentHp c.tempHp c.conditions

/-- Whether an event tells what a turn has made of a combat, and whose turn it is in an order. -/
def TellsTurnOf (e : Event) (c : Combat) (order : List Combatant) : Prop :=
  e.happening =
    .turnTaken c.id c.round c.turnIndex c.version ((itemAt? order c.turnIndex).map Combatant.id)

theorem TellsOf.isActionOn {e : Event} {c : Combatant} (h : e.TellsOf c) (id : String) :
    e.isActionOn id = decide (c.id = id) := by
  obtain ⟨action, h⟩ := h
  simp [Event.isActionOn, h, action.kind_mem]

theorem TellsTurnOf.isTurnOf {e : Event} {c : Combat} {order : List Combatant}
    (h : e.TellsTurnOf c order) (id : String) : e.isTurnOf id = decide (c.id = id) := by
  unfold Event.isTurnOf
  rw [show e.happening = _ from h]

theorem TellsTurnOf.of_identity {e : Event} {c : Combat} {order order' : List Combatant}
    (h : e.TellsTurnOf c order)
    (horder : order'.map Combatant.identity = order.map Combatant.identity) :
    e.TellsTurnOf c order' := by
  have hids : order'.map Combatant.id = order.map Combatant.id := by
    have hid : Combatant.id = Combatant.id ∘ Combatant.identity := rfl
    rw [hid, ← List.map_map, horder, List.map_map]
  rwa [TellsTurnOf, ← itemAt?_map, hids, itemAt?_map]

end Event

theorem isSome_itemAt? (items : List α) (index : Int) :
    (itemAt? items index).isSome ↔ 0 ≤ index ∧ index < items.length := by
  unfold itemAt?
  split <;> simp <;> omega

theorem Combat.isSome_advance {c : Combat} {observed : Int} {t : Turn} {order : List α}
    (h : c.advance observed order.length = .ok t) (hlength : order.length < 2 ^ 63) :
    (itemAt? order t.turnIndex).isSome := by
  obtain ⟨-, hpos, -, hindex, -⟩ := Combat.eq_of_advance h
  have hfits : Word.Fits order.length := by
    simp only [Word.Fits, Word.low, Word.high]
    omega
  rw [isSome_itemAt?, hindex, Word.wrap_of_fits hfits]
  have hne : (order.length : Int) ≠ 0 := Int.natCast_ne_zero.mpr hpos
  exact ⟨Int.emod_nonneg _ hne, Int.emod_lt_of_pos _ (by omega)⟩

namespace Store

def events (p : Event → Bool) (s : Store) : List Event := (s.log.getD []).filter p

variable {s s₁ s' : Store} {e : Event}

theorem turns_eq_length (id : String) (s : Store) :
    s.turns id = (s.events (Event.isTurnOf id)).length :=
  List.countP_eq_length_filter

theorem events_append (h : s.append e = .ok s') (p : Event → Bool) :
    s'.events p = s.events p ++ if p e then [e] else [] := by
  obtain ⟨log, hlog, rfl⟩ := eq_of_append h
  simp [events, hlog, List.filter_append, List.filter_singleton]

theorem events_of_other (logged : s₁.append e = .ok s') (hlog : s₁.log = s.log) {p : Event → Bool}
    (hother : p e = false) : s'.events p = s.events p := by
  rw [events_append logged, hother, events, hlog]
  exact List.append_nil _

theorem events_of_own (logged : s₁.append e = .ok s') (hlog : s₁.log = s.log) {p : Event → Bool}
    (hown : p e = true) : s'.events p = s.events p ++ [e] := by
  rw [events_append logged, hown, events, hlog]
  rfl

/-- The log keeps up with the row of a combatant: it holds an event for each revision, and the
latest one tells what the row holds. -/
structure RecordsActions (s : Store) (k : Kept Combatant) : Prop where
  count : ((s.events (Event.isActionOn k.record.id)).length : Int) = k.record.revision
  latest : ∀ e ∈ (s.events (Event.isActionOn k.record.id)).getLast?, e.TellsOf k.record

/-- The log tells of all combatants, and of nobody else. -/
structure ActionsLogged (s : Store) : Prop where
  recorded : ∀ k ∈ s.combatants, s.RecordsActions k
  stored : ∀ id, s.events (Event.isActionOn id) ≠ [] → ∃ k ∈ s.combatants, k.record.id = id

theorem RecordsActions.of_same {k : Kept Combatant} (h : s.RecordsActions k)
    (hevents : s'.events (Event.isActionOn k.record.id) =
      s.events (Event.isActionOn k.record.id)) :
    s'.RecordsActions k := by
  constructor
  · rw [hevents]
    exact h.count
  · rw [hevents]
    exact h.latest

namespace ActionsLogged

theorem of_same (h : s.ActionsLogged) (hrows : s'.combatants = s.combatants)
    (hevents : ∀ id, s'.events (Event.isActionOn id) = s.events (Event.isActionOn id)) :
    s'.ActionsLogged := by
  constructor
  · intro k hk
    exact (h.recorded k (hrows ▸ hk)).of_same (hevents _)
  · intro id
    rw [hevents, hrows]
    exact h.stored id

theorem start {campaignId : String} {encounterId : Option String} {roster : List Member}
    {combat : Combat} {combatants : List Combatant} (h : s.ActionsLogged) (hs : s.Sound)
    (inserted : s.insertCombat campaignId encounterId roster = ((combat, combatants), s₁))
    (logged : s₁.append e = .ok s') (hother : ∀ id, e.isActionOn id = false) :
    s'.ActionsLogged := by
  have hids : (s₁.combatants.map fun k => k.record.id).Nodup :=
    combatantIds_inserted hs.toTidy inserted ▸ nodup_idsOf _ _
  have hmem := fun c => mem_inserted inserted (c := c)
  obtain ⟨-, -, rfl⟩ := eq_of_insertCombat inserted
  have hsame : ∀ id, s'.events (Event.isActionOn id) = s.events (Event.isActionOn id) :=
    fun id => events_of_other logged rfl (hother id)
  obtain ⟨log, -, rfl⟩ := eq_of_append logged
  constructor
  · intro k hk
    rcases List.mem_append.mp hk with hold | hnew
    · exact (h.recorded k hold).of_same (hsame _)
    · -- An event on a new id would be one on a combatant who is stored already.
      have hnone : s.events (Event.isActionOn k.record.id) = [] := by
        by_contra hne
        obtain ⟨k₀, hk₀, hid⟩ := h.stored _ hne
        rw [List.map_append, List.nodup_append] at hids
        exact hids.2.2 _ (List.mem_map_of_mem hk₀) _ (List.mem_map_of_mem hnew) hid
      obtain ⟨c, hc, rfl⟩ := List.mem_map.mp hnew
      obtain ⟨entrant, id, rfl⟩ := hmem c hc
      obtain ⟨stats, hrecord⟩ := (entrant.toCombatant combat.id id).record_kept
      constructor
      · rw [hsame, hnone, hrecord]
        rfl
      · rw [hsame, hnone]
        simp
  · intro id hne
    obtain ⟨k, hk, hid⟩ := h.stored id (hsame id ▸ hne)
    exact ⟨k, List.mem_append_left _ hk, hid⟩

theorem act {k : Kept Combatant} {action : Action} (h : s.ActionsLogged) (hs : s.Sound)
    (found : k ∈ s.combatants) (written : s.commitCombatant? (action.apply k.record) = some s₁)
    (logged : s₁.append e = .ok s') (htells : e.TellsOf (action.apply k.record)) :
    s'.ActionsLogged := by
  obtain rfl := eq_of_act hs found written
  have hown : s'.events (Event.isActionOn k.record.id) =
      s.events (Event.isActionOn k.record.id) ++ [e] :=
    events_of_own logged rfl (by simp [htells.isActionOn])
  have hothers : ∀ id, k.record.id ≠ id →
      s'.events (Event.isActionOn id) = s.events (Event.isActionOn id) :=
    fun id hne => events_of_other logged rfl (by simp [htells.isActionOn, hne])
  have hacted : s'.RecordsActions (k.acted action) := by
    have hid : (k.acted action).record.id = k.record.id := Combatant.id_of_identity identity_acted
    constructor
    · rw [hid, hown, List.length_append, Int.natCast_add, (h.recorded k found).count]
      rfl
    · rw [hid, hown, List.getLast?_concat]
      rintro _ ⟨⟩
      exact htells
  obtain ⟨log, -, rfl⟩ := eq_of_append logged
  constructor
  · intro k' hk'
    obtain ⟨row, hrow, rfl⟩ := List.mem_map.mp hk'
    by_cases hid : row.record.id = k.record.id
    · rw [if_pos hid]
      exact hacted
    · rw [if_neg hid]
      exact (h.recorded row hrow).of_same (hothers _ (Ne.symm hid))
  · intro id hne
    by_cases heq : k.record.id = id
    · exact ⟨k.acted action, List.mem_map.mpr ⟨k, found, if_pos rfl⟩,
        (Combatant.id_of_identity identity_acted).trans heq⟩
    · obtain ⟨row, hrow, rfl⟩ := h.stored id (hothers id heq ▸ hne)
      exact ⟨row, List.mem_map.mpr ⟨row, hrow, if_neg (Ne.symm heq)⟩, rfl⟩

end ActionsLogged

/-- The log keeps up with the row of a combat: it holds more events than turns, and the latest of
the turns tells what the row holds. The active combatant is one of the combat's. -/
structure RecordsTurns (s : Store) (row : CombatRow) : Prop where
  fewer : s.turns row.combat.id < (s.log.getD []).length
  active : (s.roster row.combat.id).length < 2 ^ 63 →
    (itemAt? (s.roster row.combat.id) row.combat.turnIndex).isSome
  latest : ∀ e ∈ (s.events (Event.isTurnOf row.combat.id)).getLast?,
    e.TellsTurnOf row.combat (s.roster row.combat.id)

def TurnsLogged (s : Store) : Prop := ∀ row ∈ s.combats, s.RecordsTurns row

theorem RecordsTurns.later {row : CombatRow} (h : s.RecordsTurns row) (hlater : s.Later s')
    (hrow : row ∈ s.combats)
    (hevents : s'.events (Event.isTurnOf row.combat.id) =
      s.events (Event.isTurnOf row.combat.id)) :
    s'.RecordsTurns row := by
  have hroster := hlater.rosters row hrow
  constructor
  · rw [turns_eq_length, hevents, ← turns_eq_length]
    exact Nat.lt_of_lt_of_le h.fewer hlater.log.length_le
  · have hlength := congrArg List.length hroster
    rw [List.length_map, List.length_map] at hlength
    have hactive := h.active
    rw [isSome_itemAt?] at hactive ⊢
    rwa [hlength]
  · rw [hevents]
    exact fun e he => (h.latest e he).of_identity hroster

namespace TurnsLogged

theorem of_same (h : s.TurnsLogged) (hlater : s.Later s') (hrows : s'.combats = s.combats)
    (hevents : ∀ id, s'.events (Event.isTurnOf id) = s.events (Event.isTurnOf id)) :
    s'.TurnsLogged := by
  intro row hrow
  rw [hrows] at hrow
  exact (h row hrow).later hlater hrow (hevents _)

theorem start {campaignId : String} {encounterId : Option String} {roster : List Member}
    {combat : Combat} {combatants : List Combatant} (h : s.TurnsLogged) (hs : s.Sound)
    (hs' : s'.Sound)
    (inserted : s.insertCombat campaignId encounterId roster = ((combat, combatants), s₁))
    (logged : s₁.append e = .ok s') (hother : ∀ id, e.isTurnOf id = false) : s'.TurnsLogged := by
  have hlater := later_start hs inserted logged
  have hnone := turns_inserted hs inserted
  obtain ⟨hcombat, -, rfl⟩ := eq_of_insertCombat inserted
  have hindex : combat.turnIndex = 0 := by
    rw [hcombat]
    rfl
  have hsame : ∀ id, s'.events (Event.isTurnOf id) = s.events (Event.isTurnOf id) :=
    fun id => events_of_other logged rfl (hother id)
  have hnew : s'.events (Event.isTurnOf combat.id) = [] := by
    rw [hsame, ← List.length_eq_zero_iff, ← turns_eq_length, hnone]
  intro row hrow
  have hmanned := hs'.roster_ne_nil hrow
  obtain ⟨log, -, rfl⟩ := eq_of_append logged
  rcases List.mem_append.mp hrow with hrow | hrow
  · exact (h row hrow).later hlater hrow (hsame _)
  · rw [List.mem_singleton] at hrow
    subst hrow
    constructor
    · rw [turns_eq_length, hnew]
      simp
    · intro _
      rw [isSome_itemAt?, hindex]
      exact ⟨Int.le_refl 0, Int.natCast_pos.mpr (List.length_pos_iff.mpr hmanned)⟩
    · rw [hnew]
      simp

theorem turn {row : CombatRow} {t : Turn} (h : s.TurnsLogged) (hs : s.Sound)
    (found : row ∈ s.combats) (written : s.commitTurn? row.combat.id t = some s₁)
    (logged : s₁.append e = .ok s')
    (htells : e.TellsTurnOf (row.combat.take t) (s.roster row.combat.id))
    (hactive : (s.roster row.combat.id).length < 2 ^ 63 →
      (itemAt? (s.roster row.combat.id) t.turnIndex).isSome) : s'.TurnsLogged := by
  have hlater := later_turn hs written logged htells.isTurnOf
  obtain rfl := eq_of_turn hs.toTidy written
  have hown : s'.events (Event.isTurnOf row.combat.id) =
      s.events (Event.isTurnOf row.combat.id) ++ [e] :=
    events_of_own logged rfl ((htells.isTurnOf _).trans (decide_eq_true rfl))
  have hothers : ∀ id, row.combat.id ≠ id →
      s'.events (Event.isTurnOf id) = s.events (Event.isTurnOf id) :=
    fun id hne => events_of_other logged rfl ((htells.isTurnOf id).trans (decide_eq_false hne))
  have hfewer := (h row found).fewer
  obtain ⟨log, hlog, rfl⟩ := eq_of_append logged
  intro row' hrow'
  obtain ⟨r, hr, rfl⟩ := List.mem_map.mp hrow'
  by_cases hid : r.combat.id = row.combat.id
  · obtain rfl := hs.eq_of_combatId hr found hid
    rw [if_pos rfl]
    constructor
    · change turns r.combat.id _ < (log ++ [e]).length
      rw [turns_eq_length, hown, List.length_append, List.length_append, ← turns_eq_length]
      rw [show s.log = some log from hlog] at hfewer
      exact Nat.add_lt_add_right hfewer 1
    · exact hactive
    · change ∀ e' ∈ (events (Event.isTurnOf r.combat.id) _).getLast?, _
      rw [hown, List.getLast?_concat]
      rintro _ ⟨⟩
      exact htells
  · rw [if_neg hid]
    exact (h r hr).later hlater hr (hothers _ (Ne.symm hid))

end TurnsLogged

end Store

namespace Effect

variable {r : Request} {a : Answer} {s s' : Store}

theorem actionsLogged (h : Effect r a s s') (hs : s.Sound) (hl : s.ActionsLogged) :
    s'.ActionsLogged := by
  have hsame : ∀ {s₁ : Store} {e : Event}, s₁.append e = .ok s' → s₁.log = s.log →
      s₁.combatants = s.combatants → (∀ id, e.isActionOn id = false) → s'.ActionsLogged := by
    intro s₁ e logged hlog hrows hother
    refine hl.of_same ?_ fun id => Store.events_of_other logged hlog (hother id)
    obtain ⟨log, -, rfl⟩ := Store.eq_of_append logged
    exact hrows
  cases h with
  | start _ _ _ _ inserted logged => exact hl.start hs inserted logged fun _ => rfl
  | act found _ _ _ _ _ _ written logged => exact hl.act hs found written logged ⟨_, rfl⟩
  | turn _ _ _ _ _ _ _ written logged =>
      obtain ⟨-, rfl⟩ := Store.eq_of_commitTurn? written
      exact hsame logged rfl rfl fun _ => rfl
  | build _ _ _ _ inserted logged =>
      obtain ⟨-, rfl⟩ := Prod.mk.inj inserted
      exact hsame logged rfl rfl fun _ => rfl
  | create _ _ _ _ inserted logged =>
      obtain ⟨-, rfl⟩ := Prod.mk.inj inserted
      exact hsame logged rfl rfl fun _ => rfl

theorem turnsLogged (h : Effect r a s s') (hs : s.Sound) (hl : s.TurnsLogged) :
    s'.TurnsLogged := by
  have hlater := h.later hs
  have hs' := h.sound hs
  have hsame : ∀ {s₁ : Store} {e : Event}, s₁.append e = .ok s' → s₁.log = s.log →
      s₁.combats = s.combats → (∀ id, e.isTurnOf id = false) → s'.TurnsLogged := by
    intro s₁ e logged hlog hrows hother
    refine hl.of_same hlater ?_ fun id => Store.events_of_other logged hlog (hother id)
    obtain ⟨log, -, rfl⟩ := Store.eq_of_append logged
    exact hrows
  cases h with
  | start _ _ _ _ inserted logged => exact hl.start hs hs' inserted logged fun _ => rfl
  | act _ _ _ _ _ _ _ written logged =>
      obtain ⟨-, rfl⟩ := Store.eq_of_commitCombatant? written
      exact hsame logged rfl rfl fun _ => rfl
  | @turn r combat order t row s s₁ s' found target _ seen _ present advanced written logged =>
      rw [← target] at written present
      have hlength := congrArg List.length present
      rw [List.length_map, List.length_map] at hlength
      refine hl.turn hs found written logged (Event.TellsTurnOf.of_identity ?_ present.symm)
        fun hk => ?_
      · change Happening.turnTaken combat.id _ _ _ _ = .turnTaken row.combat.id _ _ _ _
        rw [Combat.id_of_identity seen]
        rfl
      · rw [hlength] at advanced
        exact Combat.isSome_advance advanced hk
  | build _ _ _ _ inserted logged =>
      obtain ⟨-, rfl⟩ := Prod.mk.inj inserted
      exact hsame logged rfl rfl fun _ => rfl
  | create _ _ _ _ inserted logged =>
      obtain ⟨-, rfl⟩ := Prod.mk.inj inserted
      exact hsame logged rfl rfl fun _ => rfl

theorem actions_eq (h : Effect r a s s') (id : String) :
    (s'.events (Event.isActionOn id)).length =
      (s.events (Event.isActionOn id)).length + if r.actsOn id then 1 else 0 := by
  cases h with
  | start _ _ _ _ inserted logged =>
      obtain ⟨-, -, rfl⟩ := Store.eq_of_insertCombat inserted
      rw [Store.events_of_other logged rfl rfl]
      rfl
  | @act r action row k s s₁ s' _ _ target _ _ _ _ written logged =>
      have hlog : s₁.log = s.log := by rw [(Store.eq_of_commitCombatant? written).2]
      have htells : Event.TellsOf (Service.actionReport (some row.combat.campaignId) action
        (action.apply k.record)).2 (action.apply k.record) := ⟨action, rfl⟩
      have hacts : (Request.act r).actsOn id = decide (k.record.id = id) := by
        rw [target]
        rfl
      rw [hacts]
      by_cases hid : k.record.id = id
      · rw [Store.events_of_own logged hlog (by simp [htells.isActionOn, hid]),
          List.length_append]
        simp [hid]
      · rw [Store.events_of_other logged hlog (by simp [htells.isActionOn, hid])]
        simp [hid]
  | turn _ _ _ _ _ _ _ written logged =>
      obtain ⟨-, rfl⟩ := Store.eq_of_commitTurn? written
      rw [Store.events_of_other logged rfl rfl]
      rfl
  | build _ _ _ _ inserted logged =>
      obtain ⟨-, rfl⟩ := Prod.mk.inj inserted
      rw [Store.events_of_other logged rfl rfl]
      rfl
  | create _ _ _ _ inserted logged =>
      obtain ⟨-, rfl⟩ := Prod.mk.inj inserted
      rw [Store.events_of_other logged rfl rfl]
      rfl

end Effect

namespace World

variable {w : World}

structure Audited (w : World) : Prop where
  actions : w.store.ActionsLogged
  turns : w.store.TurnsLogged
  called : ∀ id, (w.store.events (Event.isActionOn id)).length =
    (w.committed (Request.actsOn id)).length

theorem audited_opened (onFile : Bool) : (opened onFile).Audited where
  actions := ⟨by simp [opened, Store.empty], by simp [opened, Store.empty, Store.events]⟩
  turns := by simp [Store.TurnsLogged, opened, Store.empty]
  called := fun _ => rfl

theorem Audited.make (h : w.Audited) (hw : w.Sound) (m : Move) : (w.make m).Audited := by
  rcases hw.make_cases m with ⟨hstore, hsame⟩ | ⟨i, r, a, -, hrequest, -, heffect, -, hcommits⟩
  · constructor
    · rw [hstore]
      exact h.actions
    · rw [hstore]
      exact h.turns
    · intro id
      rw [hstore, hw.committed_same hsame]
      exact h.called id
  · refine ⟨heffect.actionsLogged hw.store h.actions, heffect.turnsLogged hw.store h.turns,
      fun id => ?_⟩
    rw [heffect.actions_eq, hw.committed_concat hrequest hcommits, h.called, List.length_append]
    cases r.actsOn id <;> rfl

theorem audited_after (onFile : Bool) (moves : List Move) :
    ((opened onFile).after moves).Audited :=
  ((sound_opened onFile).after_induction (P := Audited) (audited_opened onFile)
    (fun _ m hsound h => h.make hsound m) moves).2

/-- What can be read off the log of a world. -/
structure Recoverable (w : World) : Prop where
  /-- A combatant has an event for each call that has acted on it, and as many as its revision
  says. -/
  revisions : ∀ k ∈ w.store.combatants,
    ((w.store.events (Event.isActionOn k.record.id)).length : Int) = k.record.revision ∧
      (w.store.events (Event.isActionOn k.record.id)).length =
        (w.committed (Request.actsOn k.record.id)).length
  acted : ∀ i r b, w.request? i = some (.act r) → w.answer? i = some (.ok b) →
    i ∈ w.committed (Request.actsOn r.targetId)
  combatants : ∀ k ∈ w.store.combatants, w.committed (Request.actsOn k.record.id) ≠ [] →
    ∃ e, (w.store.events (Event.isActionOn k.record.id)).getLast? = some e ∧ e.TellsOf k.record
  /-- A combat has an event for each turn, which its version counts as words do. -/
  turns : ∀ row ∈ w.store.combats,
    row.combat.version = Word.wrap (1 + (w.store.events (Event.isTurnOf row.combat.id)).length) ∧
      (w.store.events (Event.isTurnOf row.combat.id)).length =
        (w.committed (Request.turns row.combat.id)).length
  /-- A version does not come round as long as the rows of the log are numbered by words. -/
  versions : (w.store.log.getD []).length < 2 ^ 63 → ∀ row ∈ w.store.combats,
    ((w.store.events (Event.isTurnOf row.combat.id)).length : Int) = row.combat.version - 1
  turned : ∀ i r b, w.request? i = some (.nextTurn r) → w.answer? i = some (.ok b) →
    i ∈ w.committed (Request.turns r.combatId)
  combats : ∀ row ∈ w.store.combats, w.committed (Request.turns row.combat.id) ≠ [] →
    ∃ e, (w.store.events (Event.isTurnOf row.combat.id)).getLast? = some e ∧
      e.TellsTurnOf row.combat (w.store.roster row.combat.id)
  /-- There is an active combatant; a roster is no longer than a word can count. -/
  active : ∀ row ∈ w.store.combats, (w.store.roster row.combat.id).length < 2 ^ 63 →
    (itemAt? (w.store.roster row.combat.id) row.combat.turnIndex).isSome

theorem exists_latest {kind : Request → Bool} {p : Event → Bool}
    (hlength : (w.store.events p).length = (w.committed kind).length)
    (hne : w.committed kind ≠ []) :
    ∃ e, (w.store.events p).getLast? = some e := by
  have hpos : 0 < (w.store.events p).length := by
    rw [hlength]
    exact List.length_pos_iff.mpr hne
  exact ⟨_, List.getLast?_eq_some_getLast (List.length_pos_iff.mp hpos)⟩

/-- Whatever calls race, what the log says last of a combatant or a combat is what is stored of
it, and the log counts its revisions and its versions. -/
theorem recoverable_after (onFile : Bool) (moves : List Move) :
    ((opened onFile).after moves).Recoverable := by
  have hw := (sound_opened onFile).after moves
  obtain ⟨hactions, hturns, hcalled⟩ := audited_after onFile moves
  have htaken := fun id =>
    (sound_opened onFile).turnsTaken_after (turnsTaken_opened onFile id) moves
  generalize (opened onFile).after moves = w at *
  have hcount : ∀ id, (w.store.events (Event.isTurnOf id)).length =
      (w.committed (Request.turns id)).length := by
    intro id
    rw [← Store.turns_eq_length]
    exact (htaken id).count
  constructor
  · exact fun k hk => ⟨(hactions.recorded k hk).count, hcalled _⟩
  · intro i r b hrequest hanswer
    have hcommitted := hw.mem_commits hrequest rfl (promises_of_answer hanswer)
    exact (mem_committed hrequest).mpr ⟨hcommitted, decide_eq_true rfl⟩
  · intro k hk hne
    obtain ⟨e, he⟩ := exists_latest (hcalled _) hne
    exact ⟨e, he, (hactions.recorded k hk).latest e he⟩
  · intro row hrow
    refine ⟨?_, hcount _⟩
    rw [← Store.turns_eq_length]
    exact hw.store.versions row hrow
  · -- Beside its turns, the log holds the start of the combat.
    intro hlog row hrow
    have hfewer := (hturns row hrow).fewer
    rw [← Store.turns_eq_length, hw.store.version_eq hrow (by omega)]
    omega
  · intro i r b hrequest hanswer
    have hcommitted := hw.mem_commits hrequest rfl (promises_of_answer hanswer)
    exact (mem_committed hrequest).mpr ⟨hcommitted, decide_eq_true rfl⟩
  · intro row hrow hne
    obtain ⟨e, he⟩ := exists_latest (hcount _) hne
    exact ⟨e, he, (hturns row hrow).latest e he⟩
  · exact fun row hrow => (hturns row hrow).active

example : ((soloWorld.after actionRace).store.events (Event.isActionOn "combatant-1")).map
    (fun e => e.happening) = [.actionApplied "damage" "combat-1" "combatant-1" 7 0 [],
      .actionApplied "damage" "combat-1" "combatant-1" 3 0 []] := by cbv

end World

end Gamemaster
