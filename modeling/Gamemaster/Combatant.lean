import Gamemaster.Roster

namespace Gamemaster

structure Combatant where
  id : String
  combatId : String
  name : String
  side : String
  maxHp : Int
  currentHp : Int
  tempHp : Int
  initiative : Int
  /-- Without repetitions, in the order in which they were added. -/
  conditions : List String
  notes : Option String
  stats : StatBlock
  /-- The place in the roster. -/
  position : Int
  /-- The number of writes to the stored row. -/
  revision : Int

/-- A member of a roster with its place and its initiative. -/
structure Entrant where
  position : Nat
  member : Member
  initiative : Int

namespace Entrant

def ofRoster (roster : List Member) : List Entrant :=
  roster.mapIdx fun i m => ⟨i, m, initiativeOf m.stats i roster.length⟩

/-- The members in the order of their turns: by falling initiative, equal ones in the order of the
roster. -/
def lineUp (roster : List Member) : List Entrant :=
  (ofRoster roster).mergeSort fun a b => decide (b.initiative ≤ a.initiative)

def toCombatant (combatId id : String) (e : Entrant) : Combatant :=
  let hp := hitPointsOf e.member.stats
  { id, combatId
    name := e.member.name
    side := e.member.side
    maxHp := hp.max
    currentHp := hp.current
    tempHp := 0
    initiative := e.initiative
    conditions := []
    notes := none
    stats := e.member.stats.getD []
    position := e.position
    revision := 0 }

end Entrant

def Combatant.inOrder (combatants : List Combatant) : List Combatant :=
  combatants.mergeSort fun a b =>
    decide (b.initiative < a.initiative ∨ (b.initiative = a.initiative ∧ a.position ≤ b.position))

end Gamemaster
