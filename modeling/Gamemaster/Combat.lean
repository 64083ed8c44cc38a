import Gamemaster.Number.Word

namespace Gamemaster

structure Combat where
  id : String
  campaignId : String
  encounterId : Option String
  round : Int
  /-- The place of the active combatant in the order of turns. -/
  turnIndex : Int
  version : Int
  deriving DecidableEq, Repr

/-- The state of a combat after a turn, and the version from which the turn is taken. -/
structure Turn where
  fromVersion : Int
  round : Int
  turnIndex : Int
  version : Int
  deriving DecidableEq, Repr

inductive TurnFault where
  | versionConflict (combatId : String) (expected actual : Int)
  | noCombatants
  deriving DecidableEq, Repr

namespace Combat

def start (id campaignId : String) (encounterId : Option String) : Combat :=
  ⟨id, campaignId, encounterId, 1, 0, 1⟩

def checkVersion (c : Combat) (observed : Int) : Except TurnFault Unit :=
  if observed = c.version then .ok () else .error (.versionConflict c.id observed c.version)

/-- The next turn among `count` combatants. After the last one a new round begins. -/
def advance (c : Combat) (observed : Int) (count : Nat) : Except TurnFault Turn := do
  c.checkVersion observed
  if count = 0 then
    throw .noCombatants
  let turnIndex := Word.wrap (c.turnIndex + 1) % Word.wrap count
  let round := if turnIndex = 0 then Word.wrap (c.round + 1) else c.round
  return ⟨c.version, round, turnIndex, Word.wrap (c.version + 1)⟩

def take (c : Combat) (t : Turn) : Combat :=
  { c with round := t.round, turnIndex := t.turnIndex, version := t.version }

end Combat

def itemAt? (items : List α) (index : Int) : Option α :=
  if 0 ≤ index then items[index.toNat]? else none

theorem itemAt?_map (f : α → β) (items : List α) (index : Int) :
    itemAt? (items.map f) index = (itemAt? items index).map f := by
  unfold itemAt?
  split
  · exact List.getElem?_map
  · rfl

end Gamemaster
