import Gamemaster.Task

namespace Gamemaster

structure StartRequest where
  campaignId : String
  encounterId : Option String
  /-- Goes before the encounter's roster unless it is empty. -/
  roster : List Member

structure StartAnswer where
  combatId : String
  round : Int
  version : Int
  order : List InitiativeSlot
  summary : String

structure ActionRequest where
  combatId : String
  targetId : String
  tag : String
  value : Option ActionValue
  condition : Option String

structure ActionAnswer where
  targetId : String
  currentHp : Int
  tempHp : Int
  conditions : List String
  notes : Option String
  summary : String

structure TurnRequest where
  combatId : String
  /-- The version that the caller saw last. -/
  version : Int

structure ActiveCombatant where
  id : String
  name : String
  side : String
  currentHp : Int
  tempHp : Int

structure TurnAnswer where
  active : Option ActiveCombatant
  round : Int
  turnIndex : Int
  version : Int
  summary : String

structure CombatView where
  combat : Combat
  activeId : Option String
  /-- In the order of their turns. -/
  combatants : List Combatant

def writeAttempts : Nat := 5

namespace Service

def rosterOf (r : StartRequest) : Service (List Member) :=
  if !r.roster.isEmpty then
    return r.roster
  else
    match r.encounterId with
    | none => return []
    | some id => do
      match ← query (Store.encounter? id) with
      | none => throw (.notFound .encounter id)
      | some encounter => return encounter.roster

def startReport (combat : Combat) (combatants : List Combatant) : StartAnswer × Event :=
  let order := combatants.map InitiativeSlot.ofCombatant
  let first := (combatants.head?.map Combatant.name).getD ""
  let summary := summarize "Combat started" (summarizeSides (combatants.map Combatant.side))
    (some (first ++ " acts first"))
  (⟨combat.id, combat.round, combat.version, order, summary⟩,
    ⟨some combat.campaignId, summary, .combatStarted combat.id combat.encounterId order⟩)

def start (r : StartRequest) : Service StartAnswer := do
  if Text.isBlankText r.campaignId then
    throw (.input .campaignMissing)
  let roster ← rosterOf r
  if roster.isEmpty then
    throw .noCombatants
  if let some fault := Roster.fault? roster then
    throw (.input (.member fault))
  let (answer, event) ← transact fun s => do
    let ((combat, combatants), s) := s.insertCombat r.campaignId r.encounterId roster
    let (answer, event) := startReport combat combatants
    return ((answer, event), ← s.append event)
  publish event
  return answer

def locate (combatId combatantId : String) : Service Combatant := do
  match ← query (Store.combatant? combatantId) with
  | none => throw (.notFound .combatant combatantId)
  | some c =>
    if c.combatId = combatId then return c else throw (.wrongCombat combatantId combatId)

def actionReport (campaignId : Option String) (action : Action) (after : Combatant) :
    ActionAnswer × Event :=
  let summary := action.summary after
  (⟨after.id, after.currentHp, after.tempHp, after.conditions, after.notes, summary⟩,
    ⟨campaignId, summary,
      .actionApplied action.tag after.combatId after.id after.currentHp after.tempHp
        after.conditions⟩)

/-- Writes a combatant together with its event, unless its row has moved on. -/
def writeCombatant (after : Combatant) (event : Event) : Service Bool :=
  transact fun s =>
    match s.commitCombatant? after with
    | none => return (false, s)
    | some s => return (true, ← s.append event)

/-- Applies an action to what was read of a combatant. If its row has moved on it is read again,
as long as attempts are left. -/
def attempt (r : ActionRequest) (action : Action) (campaignId : Option String) :
    Nat → Combatant → Service ActionAnswer
  | 0, _ => throw (.contention r.targetId)
  | attempts + 1, c => do
    let (answer, event) := actionReport campaignId action (action.apply c)
    if ← writeCombatant (action.apply c) event then
      publish event
      return answer
    else if attempts = 0 then
      throw (.contention r.targetId)
    else
      attempt r action campaignId attempts (← locate r.combatId r.targetId)

/-- Applies an action to a combatant. Only the combatant's own row is written, so actions on
different combatants never get in each other's way. -/
def applyAction (r : ActionRequest) : Service ActionAnswer := do
  let c ← locate r.combatId r.targetId
  match Action.ofRequest r.tag r.value r.condition with
  | .error fault => throw (.action fault)
  | .ok action =>
    let combat ← query (Store.combat? r.combatId)
    attempt r action (combat.map Combat.campaignId) writeAttempts c

def ActiveCombatant.of (c : Combatant) : ActiveCombatant :=
  ⟨c.id, c.name, c.side, c.currentHp, c.tempHp⟩

def turnReport (combat : Combat) (combatants : List Combatant) : TurnAnswer × Event :=
  let active := itemAt? combatants combat.turnIndex
  let summary := summarize "Combat next turn" ((active.map Combatant.name).getD "nobody")
    (some ("round " ++ toString combat.round ++ ", turn " ++ toString (combat.turnIndex + 1)))
  (⟨active.map ActiveCombatant.of, combat.round, combat.turnIndex, combat.version, summary⟩,
    ⟨some combat.campaignId, summary,
      .turnTaken combat.id combat.round combat.turnIndex combat.version
        (active.map Combatant.id)⟩)

def findCombat (id : String) : Service Combat := do
  match ← query (Store.combat? id) with
  | none => throw (.notFound .combat id)
  | some combat => return combat

def ofTurn (turn : Except TurnFault α) : Service α :=
  match turn with
  | .ok a => return a
  | .error fault => throw (Refusal.ofTurnFault fault)

def nextTurn (r : TurnRequest) : Service TurnAnswer := do
  let combat ← findCombat r.combatId
  ofTurn (combat.checkVersion r.version)
  let combatants ← query (Store.combatantsOf combat.id)
  let turn ← ofTurn (combat.advance r.version combatants.length)
  let (answer, event) := turnReport (combat.take turn) combatants
  let committed ← transact fun s =>
    match s.commitTurn? combat.id turn with
    | none => return (false, s)
    | some s => return (true, ← s.append event)
  if committed then
    publish event
    return answer
  else
    let actual ← query fun s => return s.version? combat.id
    throw (.versionConflict combat.id r.version (actual.getD turn.fromVersion))

def view (combatId : String) : Service CombatView := do
  let combat ← findCombat combatId
  let combatants ← query (Store.combatantsOf combatId)
  return ⟨combat, (itemAt? combatants combat.turnIndex).map Combatant.id, combatants⟩

end Service

end Gamemaster
