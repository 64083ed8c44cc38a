import Gamemaster.Encounter
import Gamemaster.Event
import Gamemaster.RandomTable
import Gamemaster.Refusal

namespace Gamemaster

/-- A stored record. One whose text was damaged cannot be read any more. -/
structure Kept (α : Type) where
  record : α
  damaged : Bool

namespace Kept

def intact (record : α) : Kept α := ⟨record, false⟩

def damage (k : Kept α) : Kept α := { k with damaged := true }

def read (k : Kept α) : Except Refusal α :=
  if k.damaged then .error .storage else .ok k.record

end Kept

/-- A stored combat; only an active one can be read. -/
structure CombatRow where
  combat : Combat
  status : String

def activeStatus : String := "active"

def CombatRow.read (r : CombatRow) : Except Refusal Combat :=
  if r.status = activeStatus then .ok r.combat else .error (.input (.unknownStatus r.status))

/-- A stored encounter, its members kept one by one. -/
structure EncounterRow where
  id : String
  campaignId : String
  name : String
  difficulty : String
  notes : Option String
  members : List (Kept Member)

def EncounterRow.read (r : EncounterRow) : Except Refusal Encounter := do
  let roster ← r.members.mapM Kept.read
  return ⟨r.id, r.campaignId, r.name, r.difficulty, r.notes, roster⟩

/-- A stored table, its entries kept one by one. -/
structure TableRow where
  id : String
  campaignId : Option String
  name : String
  dice : String
  scope : Option String
  entries : List (Kept TableEntry)

def TableRow.read (r : TableRow) : Except Refusal RandomTable := do
  let entries ← r.entries.mapM Kept.read
  return ⟨r.id, r.campaignId, r.name, r.dice, r.scope, entries⟩

structure Issued where
  combats : Nat
  combatants : Nat
  encounters : Nat
  tables : Nat
  seeds : Nat

structure Store where
  /-- A closed store answers nothing. -/
  isOpen : Bool
  /-- A store on file keeps its rows when it is opened again. -/
  onFile : Bool
  issued : Issued
  combats : List CombatRow
  combatants : List (Kept Combatant)
  encounters : List EncounterRow
  tables : List TableRow
  /-- The events, oldest first; there is no log once it is broken. -/
  log : Option (List Event)

def idOf (kind : String) (n : Nat) : String := kind ++ "-" ++ toString n

namespace Store

def empty (onFile : Bool) : Store :=
  ⟨true, onFile, ⟨0, 0, 0, 0, 0⟩, [], [], [], [], some []⟩

def reopen (s : Store) : Store :=
  if s.onFile then { s with isOpen := true, log := some (s.log.getD []) }
  else { empty false with issued := s.issued }

def ask (question : Store → Except Refusal α) (s : Store) : Except Refusal α :=
  if s.isOpen then question s else .error .storage

def combat? (id : String) (s : Store) : Except Refusal (Option Combat) :=
  match s.combats.find? fun r => r.combat.id = id with
  | none => .ok none
  | some r => r.read.map some

/-- The version of a combat, whatever its status. -/
def version? (id : String) (s : Store) : Option Int :=
  (s.combats.find? fun r => r.combat.id = id).map fun r => r.combat.version

/-- The combatants of a combat in the order of their turns. -/
def combatantsOf (combatId : String) (s : Store) : Except Refusal (List Combatant) := do
  let rows := s.combatants.filter fun k => k.record.combatId = combatId
  return Combatant.inOrder (← rows.mapM Kept.read)

def combatant? (id : String) (s : Store) : Except Refusal (Option Combatant) :=
  match s.combatants.find? fun k => k.record.id = id with
  | none => .ok none
  | some k => k.read.map some

def encounter? (id : String) (s : Store) : Except Refusal (Option Encounter) :=
  match s.encounters.find? fun r => r.id = id with
  | none => .ok none
  | some r => r.read.map some

def table? (id : String) (s : Store) : Except Refusal (Option RandomTable) :=
  match s.tables.find? fun r => r.id = id with
  | none => .ok none
  | some r => r.read.map some

def recent (campaignId : String) (limit : Nat) (s : Store) : Except Refusal (List Event) :=
  match s.log with
  | none => .error .storage
  | some events =>
    .ok ((events.reverse.filter fun e => e.campaignId = some campaignId).take limit)

end Store

end Gamemaster
