import Gamemaster.Play.Campaign
import Gamemaster.Play.Combat
import Gamemaster.Wire.Record

namespace Gamemaster

open Json (Written field defaultedField required optional orDefault)

def ActionValue.ofWritten? : Written → Option ActionValue
  | .int n => if Word.Fits n then some (.number n) else none
  | .text s => some (.text s)
  | _ => none

structure RollOptions where
  policy : Dice.Policy
  seed : Option String

namespace RollOptions

def fields : List Json.Field :=
  [defaultedField ["advantage"], defaultedField ["exploding", "explode"], defaultedField ["seed"]]

/-- The options given to the fields. `isUnit` tells what may stand beside the name of an
advantage. -/
def ofSlots? (isUnit : Written → Bool) : List (Option Written) → Option RollOptions
  | [advantage, exploding, seed] => do
    some
      { policy :=
          { advantage :=
              ← orDefault .none (Written.choice? isUnit Dice.Advantage.named?) advantage
            exploding := ← orDefault false Written.bool? exploding }
        seed := ← optional Written.text? seed }
  | _ => none

def ofWritten? (w : Written) : Option RollOptions :=
  (w.slots? fields).bind (ofSlots? Written.isNull)

end RollOptions

/-- The formula and the options lie side by side in one object, which is read whole, unknown
members included. -/
def RollRequest.ofWritten? (w : Written) : Option RollRequest := do
  match ← if w.isWhole then w.objectSlots? (field ["notation"] :: RollOptions.fields)
    else none with
  | formula :: options =>
    let formula ← required Written.text? formula
    let options ← RollOptions.ofSlots? Written.isEmpty options
    some ⟨formula, options.policy, options.seed⟩
  | _ => none

def StartRequest.ofWritten? (w : Written) : Option StartRequest := do
  let fields :=
    [ field ["campaign_id", "campaignId"]
    , defaultedField ["encounter_id", "encounterId"]
    , defaultedField ["roster"] ]
  match ← w.slots? fields with
  | [campaignId, encounterId, roster] =>
    some
      { campaignId := ← required Written.text? campaignId
        encounterId := ← optional Written.text? encounterId
        roster := ← orDefault [] (Written.list? Member.ofWritten?) roster }
  | _ => none

def ActionRequest.ofWritten? (w : Written) : Option ActionRequest := do
  let fields :=
    [ field ["combat_id", "combatId"]
    , field ["target_combatant_id", "targetCombatantId", "target"]
    , field ["action"]
    , defaultedField ["value"]
    , defaultedField ["condition"] ]
  match ← w.slots? fields with
  | [combatId, targetId, tag, value, condition] =>
    some
      { combatId := ← required Written.text? combatId
        targetId := ← required Written.text? targetId
        tag := ← required Written.text? tag
        value := ← optional ActionValue.ofWritten? value
        condition := ← optional Written.text? condition }
  | _ => none

def TurnRequest.ofWritten? (w : Written) : Option TurnRequest := do
  match ← w.slots? [field ["combat_id", "combatId"], field ["version"]] with
  | [combatId, version] =>
    some ⟨← required Written.text? combatId, ← required Written.word? version⟩
  | _ => none

def defaultDifficulty : String := "medium"

def EncounterRequest.ofWritten? (w : Written) : Option EncounterRequest := do
  let fields :=
    [ field ["campaign_id", "campaignId"]
    , field ["name"]
    , defaultedField ["difficulty"]
    , field ["roster"]
    , defaultedField ["notes"] ]
  match ← w.slots? fields with
  | [campaignId, name, difficulty, roster, notes] =>
    some
      { campaignId := ← required Written.text? campaignId
        name := ← required Written.text? name
        difficulty := ← orDefault defaultDifficulty Written.text? difficulty
        roster := ← required (Written.list? Member.ofWritten?) roster
        notes := ← optional Written.text? notes }
  | _ => none

def TableRequest.ofWritten? (w : Written) : Option TableRequest := do
  let fields :=
    [ defaultedField ["campaign_id", "campaignId"]
    , field ["name"]
    , field ["dice"]
    , defaultedField ["scope"]
    , field ["entries"] ]
  match ← w.slots? fields with
  | [campaignId, name, dice, scope, entries] =>
    some
      { campaignId := ← optional Written.text? campaignId
        name := ← required Written.text? name
        dice := ← required Written.text? dice
        scope := ← optional Written.text? scope
        entries := ← required (Written.list? TableEntry.ofWritten?) entries }
  | _ => none

def TableRollRequest.ofWritten? (w : Written) : Option TableRollRequest := do
  match ← w.slots? [field ["table_id", "tableId"], defaultedField ["seed"]] with
  | [tableId, seed] => some ⟨← required Written.text? tableId, ← optional Written.text? seed⟩
  | _ => none

end Gamemaster
