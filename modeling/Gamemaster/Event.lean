import Gamemaster.Combatant

namespace Gamemaster

structure InitiativeSlot where
  id : String
  name : String
  side : String
  initiative : Int
  deriving DecidableEq, Repr

def InitiativeSlot.ofCombatant (c : Combatant) : InitiativeSlot :=
  ⟨c.id, c.name, c.side, c.initiative⟩

inductive Happening where
  | combatStarted (combatId : String) (encounterId : Option String) (order : List InitiativeSlot)
  | actionApplied (tag combatId combatantId : String) (currentHp tempHp : Int)
      (conditions : List String)
  | turnTaken (combatId : String) (round turnIndex version : Int) (activeId : Option String)
  | encounterBuilt (encounterId difficulty : String) (members : List (String × String))
  | tableCreated (tableId dice : String) (entries : Nat)
  deriving DecidableEq, Repr

structure Event where
  campaignId : Option String
  summary : String
  happening : Happening
  deriving DecidableEq, Repr

def Happening.kind : Happening → String
  | combatStarted .. => "combat.start"
  | actionApplied tag .. => "combat." ++ tag
  | turnTaken .. => "combat.next_turn"
  | encounterBuilt .. => "encounter.build"
  | tableCreated .. => "table.create"

end Gamemaster
