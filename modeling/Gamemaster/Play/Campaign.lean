import Gamemaster.Dice.Narrative
import Gamemaster.Task

namespace Gamemaster

structure EncounterRequest where
  campaignId : String
  name : String
  difficulty : String
  roster : List Member
  notes : Option String

structure EncounterAnswer where
  encounterId : String
  summary : String

structure TableRequest where
  campaignId : Option String
  name : String
  dice : String
  scope : Option String
  entries : List TableEntry

structure TableAnswer where
  tableId : String
  summary : String

structure TableRollRequest where
  tableId : String
  seed : Option String

structure TableRollAnswer where
  total : Int
  seed : String
  /-- What came up; missing if no entry holds the total. -/
  result : Option Json
  summary : String

structure RollRequest where
  formula : String
  policy : Dice.Policy
  seed : Option String

def maxEvents : Nat := 200

namespace Service

def buildEncounter (r : EncounterRequest) : Service EncounterAnswer := do
  if Text.isBlankText r.campaignId then
    throw (.input .campaignMissing)
  if Text.isBlankText r.name then
    throw (.input .encounterNameMissing)
  if r.roster.isEmpty then
    throw .emptyEncounter
  if let some fault := Roster.fault? r.roster then
    throw (.input (.member fault))
  let summary := summarize "Encounter built" r.name (some (Roster.summary r.roster))
  let (id, event) ← transact fun s => do
    let (id, s) := s.insertEncounter r.campaignId r.name r.difficulty r.notes r.roster
    let event : Event := ⟨some r.campaignId, summary,
      .encounterBuilt id r.difficulty (r.roster.map fun m => (m.name, m.side))⟩
    return ((id, event), ← s.append event)
  publish event
  return ⟨id, summary⟩

def createTable (r : TableRequest) : Service TableAnswer := do
  if Text.isBlankText r.name then
    throw (.input .tableNameMissing)
  if let .error fault := Dice.Formula.parse r.dice then
    throw (.dice fault)
  if r.entries.isEmpty then
    throw (.input .entriesMissing)
  if let some e := RandomTable.descending? r.entries then
    throw (.input (.descendingRange e.low e.high))
  let summary := summarize "Random table created" r.name
    (some (toString r.entries.length ++ " entries"))
  let (id, event) ← transact fun s => do
    let (id, s) := s.insertTable r.campaignId r.name r.dice r.scope r.entries
    let event : Event := ⟨r.campaignId, summary, .tableCreated id r.dice r.entries.length⟩
    return ((id, event), ← s.append event)
  publish event
  return ⟨id, summary⟩

def rollOn (table : RandomTable) (seed : String) : Except Refusal TableRollAnswer := do
  let rolled ← (Dice.roll table.dice ⟨.none, false⟩ seed).mapError Refusal.dice
  let result := (RandomTable.lookup? table.entries rolled.total).map TableEntry.result
  return ⟨rolled.total, rolled.seed, result,
    RandomTable.rollSummary table.name rolled.total result⟩

/-- Rolls on a table from the seed of the request, or else from a fresh one. -/
def rollTable (r : TableRollRequest) (fresh : String) : Service TableRollAnswer := do
  match ← query (Store.table? r.tableId) with
  | none => throw (.notFound .table r.tableId)
  | some table =>
    if table.entries.isEmpty then
      throw (.input (.noEntries table.name))
    ofExcept (rollOn table (r.seed.getD fresh))

def rollDice (r : RollRequest) (fresh : String) : Service Dice.Roll :=
  ofExcept ((Dice.roll r.formula r.policy (r.seed.getD fresh)).mapError Refusal.dice)

def recentEvents (campaignId : String) (limit : Nat) : Service (List Event) :=
  query (Store.recent campaignId (min limit maxEvents))

def health : Service Unit :=
  query fun _ => return ()

end Service

end Gamemaster
