namespace Gamemaster.Dice

def maxCount : Nat := 1000

def maxSides : Nat := 1000000

inductive Fault where
  | empty
  | unreadable (formula : String)
  | danglingSign (token formula : String)
  | unsupportedDice (token : String)
  | countTooLarge (token : String)
  | sidesTooLarge (token : String)
  | notPositive (token : String)
  | beyondLimits (token : String)
  | unsupportedModifier (token : String)
  | totalOutOfRange (formula : String)
  | unknownAdvantage (text : String)
  deriving DecidableEq, Repr

namespace Fault

def quote (s : String) : String := "\"" ++ s ++ "\""

def message : Fault → String
  | empty => "malformed dice notation: dice notation cannot be empty"
  | unreadable formula =>
    "malformed dice notation: unable to parse dice notation " ++ quote formula
  | danglingSign token formula =>
    "malformed dice notation: dangling sign " ++ quote token ++ " in " ++ quote formula
  | unsupportedDice token => "malformed dice notation: unsupported dice token " ++ quote token
  | countTooLarge token => "malformed dice notation: dice count too large in " ++ quote token
  | sidesTooLarge token => "malformed dice notation: die size too large in " ++ quote token
  | notPositive token =>
    "malformed dice notation: dice token " ++ quote token ++ " must have positive count and sides"
  | beyondLimits token =>
    "malformed dice notation: dice token " ++ quote token ++ " exceeds " ++ toString maxCount ++
      " dice of at most " ++ toString maxSides ++ " sides"
  | unsupportedModifier token => "unsupported modifier token " ++ quote token
  | totalOutOfRange formula =>
    "malformed dice notation: total of " ++ quote formula ++ " is out of range"
  | unknownAdvantage text => "malformed dice notation: unknown advantage mode " ++ quote text

/-- A modifier that is no integer is a fault of its own kind, all others spoil the formula. -/
def isModifierFault : Fault → Bool
  | unsupportedModifier _ => true
  | _ => false

end Fault

end Gamemaster.Dice
