namespace Gamemaster

def summarize (action detail : String) (remark : Option String) : String :=
  match remark with
  | some remark => action ++ ": " ++ detail ++ " - " ++ remark
  | none => action ++ ": " ++ detail

/-- Adds one to the count of a side; a new side comes last. -/
def countSide (side : String) : List (String × Nat) → List (String × Nat)
  | [] => [(side, 1)]
  | (s, n) :: rest => if s = side then (s, n + 1) :: rest else (s, n) :: countSide side rest

/-- The members of a roster that have been counted so far. -/
structure Tally where
  /-- All of them, in a word of 32 bits. -/
  total : Int32
  /-- Those of each side, the sides in the order of their first members. -/
  sides : List (String × Nat)

namespace Tally

def empty : Tally := ⟨0, []⟩

def count (t : Tally) (side : String) : Tally := ⟨t.total + 1, countSide side t.sides⟩

def ofSides (sides : List String) : Tally := sides.foldl count empty

def text (t : Tally) : String :=
  if t.total = 0 then "empty roster"
  else
    toString t.total ++ " combatants (" ++
      ", ".intercalate (t.sides.map fun s => toString s.2 ++ " " ++ s.1) ++ ")"

end Tally

def summarizeSides (sides : List String) : String := (Tally.ofSides sides).text

end Gamemaster
