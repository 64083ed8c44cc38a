import Gamemaster.StatBlock
import Gamemaster.Summary

namespace Gamemaster

structure Member where
  name : String
  side : String
  stats : Option StatBlock

namespace Roster

inductive Fault where
  | blankName (index : Nat)
  | blankSide (index : Nat) (name : String)
  deriving DecidableEq, Repr

def Fault.message : Fault → String
  | blankName i => "roster member " ++ toString i ++ " has an empty name"
  | blankSide i name => "roster member " ++ toString i ++ " (" ++ name ++ ") has an empty side"

def faultFrom? (index : Nat) : List Member → Option Fault
  | [] => none
  | m :: rest =>
    if Text.isBlankText m.name then some (.blankName index)
    else if Text.isBlankText m.side then some (.blankSide index m.name)
    else faultFrom? (index + 1) rest

def fault? (roster : List Member) : Option Fault := faultFrom? 0 roster

def summary (roster : List Member) : String := summarizeSides (roster.map Member.side)

end Roster

end Gamemaster
