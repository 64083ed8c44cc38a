import Gamemaster.Json.Record
import Gamemaster.Store

namespace Gamemaster

open Json (Written field defaultedField required optional)

namespace Json

def ofTexts (texts : List String) : Json := .list (texts.map .text)

def ofWords (words : List Int) : Json := .list (words.map .int)

end Json

namespace Member

def toJson (m : Member) : Json :=
  .object <|
    [("name", .text m.name), ("side", .text m.side)] ++
      (m.stats.map fun stats => ("stats", Json.object stats)).toList

def ofWritten? (w : Written) : Option Member := do
  match ← w.slots? [field ["name"], field ["side"], defaultedField ["stats", "base"]] with
  | [name, side, stats] =>
    some
      { name := ← required Written.text? name
        side := ← required Written.text? side
        stats := ← optional Written.block? stats }
  | _ => none

end Member

namespace TableEntry

def toJson (e : TableEntry) : Json :=
  .object [("range", Json.ofWords [e.low, e.high]), ("result", e.result)]

def ofWritten? (w : Written) : Option TableEntry := do
  match ← w.slots? [field ["range"], field ["result"]] with
  | [range, result] =>
    match ← required (Written.list? Written.word?) range with
    | [low, high] => some ⟨low, high, ← required Written.value? result⟩
    | _ => none
  | _ => none

end TableEntry

namespace Combatant

def toJson (c : Combatant) : Json :=
  .object
    [ ("id", .text c.id)
    , ("combat_id", .text c.combatId)
    , ("name", .text c.name)
    , ("side", .text c.side)
    , ("max_hp", .int c.maxHp)
    , ("current_hp", .int c.currentHp)
    , ("temp_hp", .int c.tempHp)
    , ("initiative", .int c.initiative)
    , ("conditions", Json.ofTexts c.conditions)
    , ("notes", Json.ofOption .text c.notes)
    , ("stats", .object c.stats)
    , ("position", .int c.position) ]

def ofWritten? (w : Written) : Option Combatant := do
  let fields :=
    ["id", "combat_id", "name", "side", "max_hp", "current_hp", "temp_hp", "initiative",
      "conditions", "notes", "stats", "position"]
  match ← w.slots? (fields.map fun name => field [name]) with
  | [id, combatId, name, side, maxHp, currentHp, tempHp, initiative, conditions, notes, stats,
      position] =>
    some
      { id := ← required Written.text? id
        combatId := ← required Written.text? combatId
        name := ← required Written.text? name
        side := ← required Written.text? side
        maxHp := ← required Written.word? maxHp
        currentHp := ← required Written.word? currentHp
        tempHp := ← required Written.word? tempHp
        initiative := ← required Written.word? initiative
        conditions := ← required (Written.list? Written.text?) conditions
        notes := ← optional Written.text? notes
        stats := ← required Written.block? stats
        position := ← required Written.word? position
        revision := 0 }
  | _ => none

end Combatant

namespace Combat

def members (c : Combat) : List (String × Json) :=
  [ ("id", .text c.id)
  , ("campaign_id", .text c.campaignId)
  , ("encounter_id", Json.ofOption .text c.encounterId)
  , ("round", .int c.round)
  , ("turn_index", .int c.turnIndex)
  , ("version", .int c.version)
  , ("status", .text activeStatus) ]

def toJson (c : Combat) : Json := .object c.members

end Combat

/-- A combat with the times of its creation and of its last change. -/
structure CombatRecord where
  combat : Combat
  createdAt : String
  updatedAt : String

namespace CombatRecord

def toJson (r : CombatRecord) : Json :=
  .object (r.combat.members ++
    [("created_at", .text r.createdAt), ("updated_at", .text r.updatedAt)])

def ofWritten? (w : Written) : Option CombatRecord := do
  let fields :=
    ["id", "campaign_id", "encounter_id", "round", "turn_index", "version", "status",
      "created_at", "updated_at"]
  let active? (s : String) : Option Unit := if s = activeStatus then some () else none
  match ← w.slots? (fields.map fun name => field [name]) with
  | [id, campaignId, encounterId, round, turnIndex, version, status, createdAt, updatedAt] =>
    let () ← required (Written.choice? Written.isNull active?) status
    some
      { combat :=
          { id := ← required Written.text? id
            campaignId := ← required Written.text? campaignId
            encounterId := ← optional Written.text? encounterId
            round := ← required Written.word? round
            turnIndex := ← required Written.word? turnIndex
            version := ← required Written.word? version }
        createdAt := ← required Written.text? createdAt
        updatedAt := ← required Written.text? updatedAt }
  | _ => none

end CombatRecord

def Encounter.toJson (e : Encounter) : Json :=
  .object
    [ ("id", .text e.id)
    , ("campaign_id", .text e.campaignId)
    , ("name", .text e.name)
    , ("difficulty", .text e.difficulty)
    , ("notes", Json.ofOption .text e.notes)
    , ("roster", .list (e.roster.map Member.toJson)) ]

def RandomTable.toJson (t : RandomTable) : Json :=
  .object
    [ ("id", .text t.id)
    , ("campaign_id", Json.ofOption .text t.campaignId)
    , ("name", .text t.name)
    , ("dice", .text t.dice)
    , ("scope", Json.ofOption .text t.scope)
    , ("entries", .list (t.entries.map TableEntry.toJson)) ]

def InitiativeSlot.toJson (s : InitiativeSlot) : Json :=
  .object
    [ ("id", .text s.id)
    , ("name", .text s.name)
    , ("side", .text s.side)
    , ("initiative", .int s.initiative) ]

def Happening.payload : Happening → Json
  | combatStarted combatId encounterId order =>
    .object
      [ ("combat_id", .text combatId)
      , ("encounter_id", Json.ofOption .text encounterId)
      , ("initiative_order", .list (order.map InitiativeSlot.toJson)) ]
  | actionApplied _ combatId combatantId currentHp tempHp conditions =>
    .object
      [ ("combat_id", .text combatId)
      , ("combatant_id", .text combatantId)
      , ("current_hp", .int currentHp)
      , ("temp_hp", .int tempHp)
      , ("conditions", Json.ofTexts conditions) ]
  | turnTaken combatId round turnIndex version activeId =>
    .object
      [ ("combat_id", .text combatId)
      , ("round", .int round)
      , ("turn_index", .int turnIndex)
      , ("version", .int version)
      , ("active_combatant_id", Json.ofOption .text activeId) ]
  | encounterBuilt encounterId difficulty members =>
    .object
      [ ("encounter_id", .text encounterId)
      , ("difficulty", .text difficulty)
      , ("roster", .list (members.map fun m =>
          .object [("name", .text m.1), ("side", .text m.2)])) ]
  | tableCreated tableId dice entries =>
    .object [("table_id", .text tableId), ("dice", .text dice), ("entries", Json.ofNat entries)]

def Event.toJson (e : Event) : Json :=
  .object
    [ ("kind", .text e.happening.kind)
    , ("campaign_id", Json.ofOption .text e.campaignId)
    , ("summary", .text e.summary)
    , ("payload", e.happening.payload) ]

end Gamemaster
