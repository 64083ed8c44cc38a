import Gamemaster.Store
/-!
Edits of stored rows that no request makes. Each returns the number of rows it changed.
-/
namespace Gamemaster.Store

def setCombat (id : String) (round turnIndex version : Int) (status : String) (s : Store) :
    Nat × Store :=
  (s.combats.countP fun r => r.combat.id = id,
    { s with
      combats := s.combats.map fun r =>
        if r.combat.id = id then ⟨{ r.combat with round, turnIndex, version }, status⟩ else r })

def removeCombatant (id : String) (s : Store) : Nat × Store :=
  (s.combatants.countP fun k => k.record.id = id,
    { s with combatants := s.combatants.filter fun k => k.record.id ≠ id })

def damageCombatant (id : String) (s : Store) : Nat × Store :=
  (s.combatants.countP fun k => k.record.id = id,
    { s with combatants := s.combatants.map fun k => if k.record.id = id then k.damage else k })

def editEncounter (id : String) (edit : List (Kept Member) → List (Kept Member)) (s : Store) :
    Nat × Store :=
  (((s.encounters.filter fun r => r.id = id).flatMap EncounterRow.members).length,
    { s with
      encounters := s.encounters.map fun r =>
        if r.id = id then { r with members := edit r.members } else r })

def emptyEncounter (id : String) : Store → Nat × Store :=
  editEncounter id fun _ => []

def damageEncounter (id : String) : Store → Nat × Store :=
  editEncounter id fun members => members.map Kept.damage

def editTable (id : String) (edit : List (Kept TableEntry) → List (Kept TableEntry)) (s : Store) :
    Nat × Store :=
  (((s.tables.filter fun r => r.id = id).flatMap TableRow.entries).length,
    { s with
      tables := s.tables.map fun r =>
        if r.id = id then { r with entries := edit r.entries } else r })

def clearTable (id : String) : Store → Nat × Store :=
  editTable id fun _ => []

def damageTable (id : String) : Store → Nat × Store :=
  editTable id fun entries => entries.map Kept.damage

def setTableDice (id dice : String) (s : Store) : Nat × Store :=
  (s.tables.countP fun r => r.id = id,
    { s with tables := s.tables.map fun r => if r.id = id then { r with dice } else r })

/-- Loses the event log, which can be lost once. -/
def breakLog (s : Store) : Except Refusal Store :=
  match s.log with
  | none => .error .storage
  | some _ => .ok { s with log := none }

def close (s : Store) : Store := { s with isOpen := false }

end Gamemaster.Store
