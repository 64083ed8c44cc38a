import Gamemaster.Action
import Gamemaster.Combat
import Gamemaster.Dice.Fault

namespace Gamemaster

inductive Entity where
  | combat
  | combatant
  | encounter
  | table
  deriving DecidableEq, Repr

def Entity.text : Entity → String
  | combat => "combat"
  | combatant => "combatant"
  | encounter => "encounter"
  | table => "random table"

inductive InputFault where
  | campaignMissing
  | encounterNameMissing
  | tableNameMissing
  | member (fault : Roster.Fault)
  | entriesMissing
  | descendingRange (low high : Int)
  | noEntries (table : String)
  | unknownStatus (status : String)
  deriving DecidableEq, Repr

def InputFault.message : InputFault → String
  | campaignMissing => "campaign_id is required"
  | encounterNameMissing => "encounter name is required"
  | tableNameMissing => "table name is required"
  | member fault => fault.message
  | entriesMissing => "a random table needs at least one entry"
  | descendingRange low high =>
    "range [" ++ toString low ++ ", " ++ toString high ++ "] must be ascending"
  | noEntries table => "random table " ++ table ++ " has no entries"
  | unknownStatus status => "unknown combat status \"" ++ status ++ "\""

inductive Refusal where
  | dice (fault : Dice.Fault)
  | action (fault : ActionFault)
  | noCombatants
  | emptyEncounter
  | notFound (entity : Entity) (id : String)
  | wrongCombat (combatantId combatId : String)
  | versionConflict (combatId : String) (expected actual : Int)
  | input (fault : InputFault)
  /-- Every attempt to write the combatant lost a race. -/
  | contention (combatantId : String)
  | storage
  deriving DecidableEq, Repr

/-- The closed set of kinds that callers tell apart. -/
inductive Refusal.Kind where
  | malformedFormula
  | invalidModifier
  | invalidAction
  | emptyRoster
  | notFound
  | wrongCombat
  | versionConflict
  | invalidInput
  | storage
  deriving DecidableEq, Repr

def Refusal.Kind.text : Refusal.Kind → String
  | malformedFormula => "malformed_notation"
  | invalidModifier => "invalid_modifier"
  | invalidAction => "invalid_action"
  | emptyRoster => "empty_roster"
  | notFound => "not_found"
  | wrongCombat => "wrong_session"
  | versionConflict => "version_conflict"
  | invalidInput => "invalid_input"
  | storage => "storage"

def Dice.Fault.kind (f : Dice.Fault) : Refusal.Kind :=
  if f.isModifierFault then .invalidModifier else .malformedFormula

namespace Refusal

def ofTurnFault : TurnFault → Refusal
  | .versionConflict id expected actual => versionConflict id expected actual
  | .noCombatants => noCombatants

def kind : Refusal → Kind
  | dice fault => fault.kind
  | action _ => .invalidAction
  | noCombatants => .emptyRoster
  | emptyEncounter => .emptyRoster
  | notFound .. => .notFound
  | wrongCombat .. => .wrongCombat
  | versionConflict .. => .versionConflict
  | input _ => .invalidInput
  | contention _ => .storage
  | storage => .storage

def message : Refusal → String
  | dice fault => fault.message
  | action fault => "invalid action: " ++ fault.message
  | noCombatants => "no combatants provided"
  | emptyEncounter => "encounter roster cannot be empty"
  | notFound entity id => entity.text ++ " " ++ id ++ " not found"
  | wrongCombat combatantId combatId =>
    "combatant " ++ combatantId ++ " does not belong to combat " ++ combatId
  | versionConflict combatId expected actual =>
    "version conflict on combat " ++ combatId ++ ": caller saw version " ++ toString expected ++
      " but it is now " ++ toString actual ++ "; fetch the latest state and retry"
  | input fault => "invalid input: " ++ fault.message
  | contention combatantId =>
    "combatant " ++ combatantId ++
      " is being updated concurrently; gave up after repeated write races"
  | storage => "storage failure"

end Refusal

end Gamemaster
