import Gamemaster.Dice.Fault
import Gamemaster.Text.Casing

namespace Gamemaster.Dice

inductive Advantage where
  | none
  | advantage
  | disadvantage
  deriving DecidableEq, Repr

namespace Advantage

def text : Advantage → String
  | none => "none"
  | advantage => "advantage"
  | disadvantage => "disadvantage"

def named? (s : String) : Option Advantage :=
  if s = "none" ∨ s = "normal" then some none
  else if s = "advantage" ∨ s = "adv" then some advantage
  else if s = "disadvantage" ∨ s = "dis" then some disadvantage
  else Option.none

def parse (s : String) : Except Fault Advantage :=
  let lower := Text.lowerCase s
  match named? lower with
  | some mode => .ok mode
  | Option.none => .error (.unknownAdvantage lower)

def pick : Advantage → Nat → Nat → Nat
  | disadvantage, x, y => min x y
  | _, x, y => max x y

end Advantage

end Gamemaster.Dice
