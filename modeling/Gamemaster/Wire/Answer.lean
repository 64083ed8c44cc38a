import Gamemaster.Dice.Narrative
import Gamemaster.Play.Campaign
import Gamemaster.Play.Combat
import Gamemaster.Wire.Record

namespace Gamemaster

def Dice.Term.toJson : Dice.Term → Json
  | .dice sign count sides =>
    .object
      [ ("type", .text "die")
      , ("sign", .int sign.toInt)
      , ("count", Json.ofNat count)
      , ("sides", Json.ofNat sides) ]
  | .modifier value => .object [("type", .text "modifier"), ("value", .int value)]

def Dice.Roll.toJson (r : Dice.Roll) : Json :=
  .object
    [ ("rolls", Json.ofWords r.values)
    , ("total", .int r.total)
    , ("narrative", .text r.narrative)
    , ("seed", .text r.seed) ]

def StartAnswer.toJson (a : StartAnswer) : Json :=
  .object
    [ ("combat_id", .text a.combatId)
    , ("round", .int a.round)
    , ("version", .int a.version)
    , ("initiative_order", .list (a.order.map InitiativeSlot.toJson))
    , ("summary", .text a.summary) ]

def ActionAnswer.toJson (a : ActionAnswer) : Json :=
  .object
    [ ("target_combatant_id", .text a.targetId)
    , ("current_hp", .int a.currentHp)
    , ("temp_hp", .int a.tempHp)
    , ("conditions", Json.ofTexts a.conditions)
    , ("notes", Json.ofOption .text a.notes)
    , ("summary", .text a.summary) ]

def ActiveCombatant.toJson (a : ActiveCombatant) : Json :=
  .object
    [ ("id", .text a.id)
    , ("name", .text a.name)
    , ("side", .text a.side)
    , ("current_hp", .int a.currentHp)
    , ("temp_hp", .int a.tempHp) ]

def TurnAnswer.toJson (a : TurnAnswer) : Json :=
  .object
    [ ("active_combatant", Json.ofOption ActiveCombatant.toJson a.active)
    , ("round", .int a.round)
    , ("turn_index", .int a.turnIndex)
    , ("version", .int a.version)
    , ("summary", .text a.summary) ]

def CombatView.toJson (v : CombatView) : Json :=
  .object
    [ ("combat_id", .text v.combat.id)
    , ("campaign_id", .text v.combat.campaignId)
    , ("encounter_id", Json.ofOption .text v.combat.encounterId)
    , ("round", .int v.combat.round)
    , ("turn_index", .int v.combat.turnIndex)
    , ("version", .int v.combat.version)
    , ("status", .text activeStatus)
    , ("active_combatant_id", Json.ofOption .text v.activeId)
    , ("combatants", .list (v.combatants.map Combatant.toJson)) ]

def EncounterAnswer.toJson (a : EncounterAnswer) : Json :=
  .object [("encounter_id", .text a.encounterId), ("summary", .text a.summary)]

def TableAnswer.toJson (a : TableAnswer) : Json :=
  .object [("table_id", .text a.tableId), ("summary", .text a.summary)]

def TableRollAnswer.toJson (a : TableRollAnswer) : Json :=
  .object
    [ ("roll", .int a.total)
    , ("seed", .text a.seed)
    , ("result", a.result.getD .null)
    , ("summary", .text a.summary) ]

end Gamemaster
