namespace Gamemaster.Dice

inductive Sign where
  | plus
  | minus
  deriving DecidableEq, Repr

namespace Sign

def toInt : Sign → Int
  | plus => 1
  | minus => -1

def text : Sign → String
  | plus => "+"
  | minus => "-"

end Sign

inductive Term where
  | dice (sign : Sign) (count sides : Nat)
  | modifier (value : Int)
  deriving DecidableEq, Repr

/-- An integer with its sign; zero counts as positive. -/
def signed (n : Int) : String :=
  if n < 0 then toString n else "+" ++ toString n

namespace Term

def isDice : Term → Bool
  | dice .. => true
  | modifier _ => false

def render : Term → String
  | dice sign count sides => sign.text ++ toString count ++ "d" ++ toString sides
  | modifier value => signed value

end Term

end Gamemaster.Dice
