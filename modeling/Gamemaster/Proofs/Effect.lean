import Gamemaster.Proofs.Store.Growth
import Gamemaster.Proofs.World

namespace Gamemaster

/-- Whether a start request plays a roster: its own one, or else the one of its encounter. -/
def StartRequest.Plays (r : StartRequest) (s : Store) (roster : List Member) : Prop :=
  if r.roster = [] then
    ∃ id e, r.encounterId = some id ∧ s.encounter? id = .ok (some e) ∧ e.roster = roster
  else roster = r.roster

/-- What a request that succeeds does to the store, all at once, and how it is answered. What it
read before may have been written since, as far as the store was not looked at again. -/
inductive Effect : Request → Answer → Store → Store → Prop
  | start {r : StartRequest} {roster : List Member} {combat : Combat}
      {combatants : List Combatant} {s s₁ s' : Store}
      (campaign : Text.isBlankText r.campaignId = false)
      (plays : r.Plays s roster)
      (nonempty : roster ≠ [])
      (valid : Roster.fault? roster = none)
      (inserted : s.insertCombat r.campaignId r.encounterId roster = ((combat, combatants), s₁))
      (logged : s₁.append (Service.startReport combat combatants).2 = .ok s') :
      Effect (.start r) (.started (Service.startReport combat combatants).1) s s'
  /-- The action is applied to the row as it is at this moment. -/
  | act {r : ActionRequest} {action : Action} {row : CombatRow} {k : Kept Combatant}
      {s s₁ s' : Store}
      (found : k ∈ s.combatants)
      (readable : k.damaged = false)
      (target : k.record.id = r.targetId)
      (combat : k.record.combatId = r.combatId)
      (rowFound : row ∈ s.combats)
      (rowId : row.combat.id = r.combatId)
      (asked : Action.ofRequest r.tag r.value r.condition = .ok action)
      (written : s.commitCombatant? (action.apply k.record) = some s₁)
      (logged : s₁.append (Service.actionReport (some row.combat.campaignId) action
        (action.apply k.record)).2 = .ok s') :
      Effect (.act r) (.acted (Service.actionReport (some row.combat.campaignId) action
        (action.apply k.record)).1) s s'
  /-- The turn is taken from a version that is the current one. Unless the combat has run through
  all versions, the whole combat is as it was read. The combatants may have been acted on
  since. -/
  | turn {r : TurnRequest} {combat : Combat} {order : List Combatant} {t : Turn} {row : CombatRow}
      {s s₁ s' : Store}
      (found : row ∈ s.combats)
      (target : row.combat.id = r.combatId)
      (current : row.combat.version = r.version)
      (seen : combat.identity = row.combat.identity)
      (still : s.turns r.combatId < 2 ^ 63 → combat = row.combat)
      (present : order.map Combatant.identity = (s.roster r.combatId).map Combatant.identity)
      (advanced : combat.advance r.version order.length = .ok t)
      (written : s.commitTurn? r.combatId t = some s₁)
      (logged : s₁.append (Service.turnReport (combat.take t) order).2 = .ok s') :
      Effect (.nextTurn r) (.turned (Service.turnReport (combat.take t) order).1) s s'
  | build {r : EncounterRequest} {id : String} {s s₁ s' : Store}
      (campaign : Text.isBlankText r.campaignId = false)
      (name : Text.isBlankText r.name = false)
      (nonempty : r.roster ≠ [])
      (valid : Roster.fault? r.roster = none)
      (inserted :
        s.insertEncounter r.campaignId r.name r.difficulty r.notes r.roster = (id, s₁))
      (logged : s₁.append ⟨some r.campaignId,
        summarize "Encounter built" r.name (some (Roster.summary r.roster)),
        .encounterBuilt id r.difficulty (r.roster.map fun m => (m.name, m.side))⟩ = .ok s') :
      Effect (.buildEncounter r)
        (.built ⟨id, summarize "Encounter built" r.name (some (Roster.summary r.roster))⟩) s s'
  | create {r : TableRequest} {formula : Dice.Formula} {id : String} {s s₁ s' : Store}
      (name : Text.isBlankText r.name = false)
      (dice : Dice.Formula.parse r.dice = .ok formula)
      (nonempty : r.entries ≠ [])
      (ascending : RandomTable.descending? r.entries = none)
      (inserted : s.insertTable r.campaignId r.name r.dice r.scope r.entries = (id, s₁))
      (logged : s₁.append ⟨r.campaignId,
        summarize "Random table created" r.name (some (toString r.entries.length ++ " entries")),
        .tableCreated id r.dice r.entries.length⟩ = .ok s') :
      Effect (.createTable r)
        (.created ⟨id, summarize "Random table created" r.name
          (some (toString r.entries.length ++ " entries"))⟩) s s'

theorem Combat.eq_of_advance {c : Combat} {observed : Int} {count : Nat} {t : Turn}
    (h : c.advance observed count = .ok t) :
    observed = c.version ∧ count ≠ 0 ∧
      t.fromVersion = c.version ∧
      t.turnIndex = Word.wrap (c.turnIndex + 1) % Word.wrap count ∧
      t.round = (if t.turnIndex = 0 then Word.wrap (c.round + 1) else c.round) ∧
      t.version = Word.wrap (c.version + 1) := by
  unfold advance checkVersion at h
  by_cases hversion : observed = c.version
  · by_cases hcount : count = 0
    · simp [hversion, hcount, bind, Except.bind, throw, throwThe, MonadExceptOf.throw] at h
    · simp only [hversion, if_true, hcount, if_false, bind, Except.bind, pure, Except.pure,
        Except.ok.injEq] at h
      obtain rfl := h
      exact ⟨hversion, hcount, rfl, rfl, rfl, rfl⟩
  · simp [hversion, bind, Except.bind] at h

theorem Combat.version_advance {c : Combat} {observed : Int} {count : Nat} {t : Turn}
    (h : c.advance observed count = .ok t) :
    observed = c.version ∧ t.fromVersion = c.version ∧ t.version = Word.wrap (c.version + 1) := by
  obtain ⟨hobserved, -, hfrom, -, -, hversion⟩ := eq_of_advance h
  exact ⟨hobserved, hfrom, hversion⟩

theorem Combat.exists_advance (c : Combat) {count : Nat} (h : count ≠ 0) :
    ∃ t, c.advance c.version count = .ok t := by
  simp [advance, checkVersion, h, bind, Except.bind, pure, Except.pure]

namespace Effect

variable {r : Request} {a : Answer} {s s' : Store}

theorem later (h : Effect r a s s') (hs : s.Sound) : s.Later s' := by
  cases h with
  | start _ _ _ _ inserted logged => exact Store.later_start hs inserted logged
  | act found _ _ _ _ _ _ written logged => exact Store.later_act hs found written logged
  | turn found target _ seen _ _ _ written logged =>
      rw [← target] at written
      exact Store.later_turn hs written logged fun combatId => by
        rw [← Combat.id_of_identity seen]
        rfl
  | build _ _ _ _ inserted logged => exact Store.later_build inserted logged
  | create _ _ _ _ inserted logged => exact Store.later_create inserted logged

theorem sound (h : Effect r a s s') (hs : s.Sound) : s'.Sound := by
  cases h with
  | start _ _ nonempty _ inserted logged =>
      exact Store.sound_start hs inserted logged nonempty fun _ => rfl
  | act found _ _ _ _ _ _ written logged =>
      exact Store.sound_act hs found written logged fun _ => rfl
  | turn found target current seen _ _ advanced written logged =>
      rw [← target] at written
      obtain ⟨hversion, -, ht⟩ := Combat.version_advance advanced
      refine Store.sound_turn hs found written logged (fun combatId => ?_) ?_
      · rw [← Combat.id_of_identity seen]
        rfl
      · rw [ht, current, hversion]
  | build _ _ _ _ inserted logged => exact Store.sound_build hs inserted logged fun _ => rfl
  | create _ _ _ _ inserted logged => exact Store.sound_create hs inserted logged fun _ => rfl

/-- A row of a combatant that is there after an effect was there before, an action has just been
applied to it, or a start has just inserted it. -/
theorem row_origin (h : Effect r a s s') (hs : s.Sound) {k : Kept Combatant}
    (hk : k ∈ s'.combatants) :
    k ∈ s.combatants ∨
      (∃ q : ActionRequest, ∃ action, ∃ old ∈ s.combatants,
        Action.ofRequest q.tag q.value q.condition = .ok action ∧ k = old.acted action) ∨
      ∃ (e : Entrant) (combatId id : String), k = (e.toCombatant combatId id).kept := by
  cases h with
  | start _ _ _ _ inserted logged =>
      obtain ⟨-, -, rfl⟩ := Store.eq_of_insertCombat inserted
      obtain ⟨events, -, rfl⟩ := Store.eq_of_append logged
      rcases List.mem_append.mp hk with hk | hk
      · exact .inl hk
      · obtain ⟨c, hc, rfl⟩ := List.mem_map.mp hk
        obtain ⟨e, id, rfl⟩ := Store.mem_inserted inserted hc
        exact .inr (.inr ⟨e, _, id, rfl⟩)
  | act found _ _ _ _ _ asked written logged =>
      obtain rfl := Store.eq_of_act hs found written
      obtain ⟨events, -, rfl⟩ := Store.eq_of_append logged
      obtain ⟨row, hrow, rfl⟩ := List.mem_map.mp hk
      split
      · exact .inr (.inl ⟨_, _, _, found, asked, rfl⟩)
      · exact .inl hrow
  | turn _ _ _ _ _ _ _ written logged =>
      obtain ⟨-, rfl⟩ := Store.eq_of_commitTurn? written
      obtain ⟨events, -, rfl⟩ := Store.eq_of_append logged
      exact .inl hk
  | build _ _ _ _ inserted logged =>
      obtain ⟨-, rfl⟩ := Prod.mk.inj inserted
      obtain ⟨events, -, rfl⟩ := Store.eq_of_append logged
      exact .inl hk
  | create _ _ _ _ inserted logged =>
      obtain ⟨-, rfl⟩ := Prod.mk.inj inserted
      obtain ⟨events, -, rfl⟩ := Store.eq_of_append logged
      exact .inl hk

end Effect

end Gamemaster
