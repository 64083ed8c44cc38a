import Gamemaster.Combatant

namespace Gamemaster

inductive ActionValue where
  | number (n : Int)
  | text (s : String)
  deriving DecidableEq, Repr

namespace ActionValue

def amount? : ActionValue → Option Int
  | number n => some n
  | text s => Literal.word? (Text.trimChars s.toList)

def text? : ActionValue → Option String
  | number _ => none
  | text s => some s

def render : ActionValue → String
  | number n => toString n
  | text s => s

end ActionValue

inductive Action where
  /-- Temporary hit points go first, the rest comes off the current ones, down to zero. -/
  | damage (amount : Int)
  | heal (amount : Int)
  | tempHp (amount : Int)
  | addCondition (name : String)
  | removeCondition (name : String)
  | customNote (text : String)
  deriving DecidableEq, Repr

inductive ActionFault where
  | amountMissing (tag : String)
  | amountUnreadable (tag given : String)
  | conditionMissing (tag : String)
  | noteMissing
  | unknownTag (tag : String)
  deriving DecidableEq, Repr

def ActionFault.message : ActionFault → String
  | amountMissing tag => tag ++ " requires a numeric value"
  | amountUnreadable tag given => tag ++ " requires a numeric value, got \"" ++ given ++ "\""
  | conditionMissing tag => "condition is required for " ++ tag
  | noteMissing => "custom_note requires text in value"
  | unknownTag tag =>
    "unknown action \"" ++ tag ++ "\" (expected damage, heal, temp_hp, add_condition, " ++
      "remove_condition or custom_note)"

namespace Action

def tag : Action → String
  | damage _ => "damage"
  | heal _ => "heal"
  | tempHp _ => "temp_hp"
  | addCondition _ => "add_condition"
  | removeCondition _ => "remove_condition"
  | customNote _ => "custom_note"

/-- The amount of a request; a negative one counts as zero. -/
def amountOf (tag : String) : Option ActionValue → Except ActionFault Int
  | none => .error (.amountMissing tag)
  | some value =>
    match value.amount? with
    | none => .error (.amountUnreadable tag value.render)
    | some n => .ok (max n 0)

/-- The condition of a request. A text value stands in only where the condition is missing. -/
def conditionOf (tag : String) (value : Option ActionValue) (condition : Option String) :
    Except ActionFault String :=
  let name := Text.trim ((condition.or (value.bind ActionValue.text?)).getD "")
  if name = "" then .error (.conditionMissing tag) else .ok name

/-- The note of a request: a text value, else the condition. -/
def noteOf (value : Option ActionValue) (condition : Option String) : Except ActionFault String :=
  match (value.bind ActionValue.text?).or condition with
  | none => .error .noteMissing
  | some text => .ok text

def ofRequest (tag : String) (value : Option ActionValue) (condition : Option String) :
    Except ActionFault Action :=
  match tag with
  | "damage" => (amountOf tag value).map damage
  | "heal" => (amountOf tag value).map heal
  | "temp_hp" => (amountOf tag value).map tempHp
  | "add_condition" => (conditionOf tag value condition).map addCondition
  | "remove_condition" => (conditionOf tag value condition).map removeCondition
  | "custom_note" => (noteOf value condition).map customNote
  | _ => .error (.unknownTag tag)

def apply (c : Combatant) : Action → Combatant
  | damage amount =>
    let absorbed := min c.tempHp amount
    { c with
      tempHp := c.tempHp - absorbed
      currentHp := max (Word.subSat c.currentHp (Word.subSat amount absorbed)) 0 }
  | heal amount => { c with currentHp := min (Word.addSat c.currentHp amount) c.maxHp }
  | tempHp amount => { c with tempHp := amount }
  | addCondition name =>
    if name ∈ c.conditions then c else { c with conditions := c.conditions ++ [name] }
  | removeCondition name => { c with conditions := c.conditions.filter fun x => x ≠ name }
  | customNote text => { c with notes := some text }

def summary (a : Action) (after : Combatant) : String :=
  summarize ("Combat " ++ a.tag) after.name
    (some ("hp " ++ toString after.currentHp ++ "/" ++ toString after.maxHp))

/-- Reads a request and applies it at once. The summary of the change comes with the combatant
after it. -/
def applyRequest (c : Combatant) (tag : String) (value : Option ActionValue)
    (condition : Option String) :
    Except ActionFault (Combatant × String) :=
  (ofRequest tag value condition).map fun a => (a.apply c, a.summary (a.apply c))

end Action

end Gamemaster
