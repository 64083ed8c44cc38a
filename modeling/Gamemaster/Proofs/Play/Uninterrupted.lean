import Gamemaster.Proofs.Play.Combat

namespace Gamemaster

namespace Store

def note (e : Event) (s : Store) : Store := { s with log := s.log.map (· ++ [e]) }

theorem Tidy.append {s s₁ : Store} (hs : s.Tidy) (hlog : s₁.log = s.log) (e : Event) :
    s₁.append e = .ok (s₁.note e) := by
  obtain ⟨events, hevents⟩ := hs.log
  simp [Store.append, note, hlog, hevents]

/-- The combatant and the action of a request, and the campaign of its event. -/
def actionOf (r : ActionRequest) (s : Store) :
    Except Refusal (Combatant × Action × Option String) := do
  let c ← s.locate r.combatId r.targetId
  match Action.ofRequest r.tag r.value r.condition with
  | .error fault => throw (.action fault)
  | .ok action =>
    let combat ← s.combat? r.combatId
    return (c, action, combat.map Combat.campaignId)

def findCombat (id : String) (s : Store) : Except Refusal Combat := do
  match ← s.combat? id with
  | none => throw (.notFound .combat id)
  | some combat => return combat

/-- The combat of a turn request with its combatants in order, and the turn. -/
def turnOf (r : TurnRequest) (s : Store) : Except Refusal (Combat × List Combatant × Turn) := do
  let combat ← s.findCombat r.combatId
  (combat.checkVersion r.version).mapError Refusal.ofTurnFault
  let order ← s.combatantsOf combat.id
  let turn ← (combat.advance r.version order.length).mapError Refusal.ofTurnFault
  return (combat, order, turn)

def act (c : Combatant) (action : Action) (s : Store) : Store :=
  { s with combatants := s.combatants.map fun row =>
      if row.record.id = c.id then (Kept.intact c).acted action else row }

def turn (id : String) (t : Turn) (s : Store) : Store :=
  { s with combats := s.combats.map fun row =>
      if row.combat.id = id then { row with combat := row.combat.take t } else row }

theorem mem_of_actionOf {r : ActionRequest} {c : Combatant} {action : Action}
    {campaignId : Option String} {s : Store} (h : s.actionOf r = .ok (c, action, campaignId)) :
    c.id = r.targetId ∧ ∃ k ∈ s.combatants, k.damaged = false ∧ k.record = c := by
  obtain ⟨c', hfound, h⟩ := eq_ok_of_bind h
  cases hasked : Action.ofRequest r.tag r.value r.condition with
  | error fault =>
      rw [hasked] at h
      exact nomatch h
  | ok action' =>
      rw [hasked] at h
      obtain ⟨combat, -, h⟩ := eq_ok_of_bind h
      obtain ⟨rfl, -⟩ := Prod.mk.inj (Except.ok.inj h)
      obtain ⟨hid, -, hseen⟩ := mem_of_locate hfound
      exact ⟨hid, hseen⟩

theorem mem_of_findCombat {id : String} {combat : Combat} {s : Store}
    (h : s.findCombat id = .ok combat) :
    ∃ row ∈ s.combats, row.combat = combat ∧ combat.id = id := by
  obtain ⟨found, hfound, h⟩ := eq_ok_of_bind h
  cases found with
  | none => exact nomatch h
  | some combat' =>
      obtain rfl := Except.ok.inj h
      exact mem_of_combat? hfound

theorem mem_of_turnOf {r : TurnRequest} {combat : Combat} {order : List Combatant} {t : Turn}
    {s : Store} (h : s.turnOf r = .ok (combat, order, t)) :
    ∃ row ∈ s.combats, row.combat = combat ∧ combat.id = r.combatId := by
  obtain ⟨combat', hfound, h⟩ := eq_ok_of_bind h
  obtain ⟨-, -, h⟩ := eq_ok_of_bind h
  obtain ⟨order', -, h⟩ := eq_ok_of_bind h
  obtain ⟨t', -, h⟩ := eq_ok_of_bind h
  obtain ⟨rfl, -⟩ := Prod.mk.inj (Except.ok.inj h)
  exact mem_of_findCombat hfound

/-- What is written to a row that could be read is the action on the row itself. -/
theorem act_eq {k : Kept Combatant} (hread : k.damaged = false) (action : Action) (s : Store) :
    s.act k.record action = { s with combatants := s.combatants.map fun row =>
      if row.record.id = k.record.id then k.acted action else row } := by
  obtain ⟨c, damaged⟩ := k
  obtain rfl : damaged = false := hread
  rfl

theorem Sound.commit_act {s : Store} (hs : s.Sound) {k : Kept Combatant} (hk : k ∈ s.combatants)
    (hread : k.damaged = false) (action : Action) :
    s.commitCombatant? (action.apply k.record) = some (s.act k.record action) := by
  cases hwritten : s.commitCombatant? (action.apply k.record) with
  | none =>
      have hne :=
        revision_ne_of_commitCombatant? hwritten hk (Combatant.id_apply action k.record).symm
      exact absurd (Combatant.revision_apply action k.record).symm hne
  | some s₁ => rw [eq_of_act hs hk hwritten, act_eq hread]

theorem Tidy.commit_turn {s : Store} (hs : s.Tidy) {row : CombatRow} (hrow : row ∈ s.combats)
    {t : Turn} (hfrom : t.fromVersion = row.combat.version) :
    s.commitTurn? row.combat.id t = some (s.turn row.combat.id t) := by
  cases hwritten : s.commitTurn? row.combat.id t with
  | none => exact absurd hfrom.symm (version_ne_of_commitTurn? hwritten hrow rfl)
  | some s₁ => exact congrArg some (eq_of_turn hs hwritten)

end Store

namespace Service

variable {s : Store}

theorem run_rosterOf {r : StartRequest} {roster : List Member} (hs : s.Sound)
    (hplays : r.Plays s roster) : (rosterOf r).run.run s = ⟨.ok roster, s, []⟩ := by
  unfold rosterOf
  unfold StartRequest.Plays at hplays
  by_cases hown : r.roster = []
  · rw [if_pos hown] at hplays
    obtain ⟨id, e, hid, he, rfl⟩ := hplays
    rw [if_neg (by simp [hown]), hid]
    dsimp only
    rw [run_bind_query, hs.ask, he]
    rfl
  · rw [if_neg hown] at hplays
    rw [if_pos (by simp [hown]), hplays]
    rfl

theorem run_start {r : StartRequest} {roster : List Member} (hs : s.Sound)
    (hplays : r.Plays s roster) :
    (start r).run.run s =
      if Text.isBlankText r.campaignId then ⟨.error (.input .campaignMissing), s, []⟩
      else if roster = [] then ⟨.error .noCombatants, s, []⟩
      else
        match Roster.fault? roster with
        | some fault => ⟨.error (.input (.member fault)), s, []⟩
        | none =>
          let ((combat, combatants), s₁) := s.insertCombat r.campaignId r.encounterId roster
          let (answer, event) := startReport combat combatants
          ⟨.ok answer, s₁.note event, [event]⟩ := by
  unfold start
  by_cases hcampaign : Text.isBlankText r.campaignId = true
  · rw [if_pos hcampaign, if_pos hcampaign]
    rfl
  rw [if_neg hcampaign, if_neg hcampaign]
  refine (run_bind_of_read _ (run_rosterOf hs hplays)).trans ?_
  dsimp only
  by_cases hempty : roster = []
  · rw [if_pos (by simp [hempty]), if_pos hempty]
    rfl
  rw [if_neg (by simp [hempty]), if_neg hempty]
  cases hvalid : Roster.fault? roster with
  | some fault => rfl
  | none =>
      dsimp only
      rw [run_bind_transact, hs.ask]
      rcases hinserted : s.insertCombat r.campaignId r.encounterId roster with
        ⟨⟨combat, combatants⟩, s₁⟩
      have hlog : s₁.log = s.log := by rw [(Store.eq_of_insertCombat hinserted).2.2]
      dsimp only
      rw [hs.append hlog]
      rfl

theorem run_locate (hs : s.Sound) (combatId combatantId : String) :
    (locate combatId combatantId).run.run s = ⟨s.locate combatId combatantId, s, []⟩ := by
  rw [locate_eq_query, run_query, hs.ask]

theorem run_written (hs : s.Tidy) {written : Store → Option Store} {s₁ : Store} {event : Event}
    (hwritten : written s = some s₁) (hlog : s₁.log = s.log) (answer : α)
    (otherwise : Service α) :
    (transact (fun s => match written s with
        | none => return (false, s)
        | some s => return (true, ← s.append event)) >>= fun committed =>
      if committed then do
        publish event
        return answer
      else otherwise).run.run s = ⟨.ok answer, s₁.note event, [event]⟩ := by
  rw [run_bind_transact, hs.ask, hwritten]
  dsimp only
  rw [hs.append hlog]
  rfl

/-- An action on a combatant that was just read is written at the first attempt. -/
theorem run_attempt (r : ActionRequest) {action : Action} {campaignId : Option String}
    {attempts : Nat} {k : Kept Combatant} (hs : s.Sound) (hk : k ∈ s.combatants)
    (hread : k.damaged = false) :
    (attempt r action campaignId (attempts + 1) k.record).run.run s =
      let (answer, event) := actionReport campaignId action (action.apply k.record)
      ⟨.ok answer, (s.act k.record action).note event, [event]⟩ := by
  rw [attempt_succ]
  exact run_written hs.toTidy (hs.commit_act hk hread action) rfl _ _

theorem run_applyAction (r : ActionRequest) (hs : s.Sound) :
    (applyAction r).run.run s =
      match s.actionOf r with
      | .error e => ⟨.error e, s, []⟩
      | .ok (c, action, campaignId) =>
        let (answer, event) := actionReport campaignId action (action.apply c)
        ⟨.ok answer, (s.act c action).note event, [event]⟩ := by
  unfold applyAction Store.actionOf
  rw [run_bind_of_read _ (run_locate hs _ _)]
  cases hfound : s.locate r.combatId r.targetId with
  | error e => rfl
  | ok c =>
      dsimp only
      cases Action.ofRequest r.tag r.value r.condition with
      | error fault => rfl
      | ok action =>
          dsimp only
          rw [run_bind_query, hs.ask]
          cases s.combat? r.combatId with
          | error e => rfl
          | ok combat =>
              obtain ⟨-, -, k, hk, hread, rfl⟩ := Store.mem_of_locate hfound
              exact run_attempt r hs hk hread

theorem run_findCombat (hs : s.Tidy) (id : String) :
    (findCombat id).run.run s = ⟨s.findCombat id, s, []⟩ := by
  unfold findCombat Store.findCombat
  rw [run_bind_query, hs.ask]
  rcases s.combat? id with e | _ | combat <;> rfl

theorem run_ofTurn (turn : Except TurnFault α) (s : Store) :
    (ofTurn turn).run.run s = ⟨turn.mapError Refusal.ofTurnFault, s, []⟩ := by
  cases turn <;> rfl

theorem run_nextTurn (r : TurnRequest) (hs : s.Tidy) :
    (nextTurn r).run.run s =
      match s.turnOf r with
      | .error e => ⟨.error e, s, []⟩
      | .ok (combat, order, turn) =>
        let (answer, event) := turnReport (combat.take turn) order
        ⟨.ok answer, (s.turn combat.id turn).note event, [event]⟩ := by
  rw [nextTurn_eq, Store.turnOf, run_bind_of_read _ (run_findCombat hs _)]
  cases hfound : s.findCombat r.combatId with
  | error e => rfl
  | ok combat =>
      obtain ⟨row, hrow, rfl, -⟩ := Store.mem_of_findCombat hfound
      rw [ok_bind]
      dsimp only
      rw [run_bind_of_read _ (run_ofTurn _ s)]
      cases (row.combat.checkVersion r.version).mapError Refusal.ofTurnFault with
      | error e => rfl
      | ok _ =>
          rw [ok_bind, turnFrom]
          dsimp only
          rw [run_bind_query, hs.ask]
          cases s.combatantsOf row.combat.id with
          | error e => rfl
          | ok order =>
              rw [ok_bind]
              dsimp only
              rw [run_bind_of_read _ (run_ofTurn _ s)]
              cases hturn : row.combat.advance r.version order.length with
              | error fault => rfl
              | ok turn =>
                  obtain ⟨-, hfrom, -⟩ := Combat.version_advance hturn
                  exact run_written hs (hs.commit_turn hrow hfrom) rfl _ _

end Service

end Gamemaster
