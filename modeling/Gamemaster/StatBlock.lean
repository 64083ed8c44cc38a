import Gamemaster.Json.Basic
import Gamemaster.Number.Double.Decimal
import Gamemaster.Number.Literal
import Gamemaster.Text.Blank
/-!
Stat blocks: loose objects from which initiative and hit points are read. Each score has an
ordered list of rules, of which the first that yields a number wins.
-/
namespace Gamemaster

abbrev StatBlock := List (String × Json)

/-- The whole part of a number or of a text that is one, kept within 64 bits. -/
def Json.numeric? : Json → Option Int
  | .int n => some (Word.clamp n)
  | .real x => some (Word.clamp x.truncate)
  | .text s =>
    let cs := Text.trimChars s.toList
    match Literal.word? cs with
    | some n => some n
    | none => (Double.ofLiteral? cs).map fun x => Word.clamp x.truncate
  | _ => none

/-- A way to get a number out of a stat block. -/
inductive StatRule where
  | field (name : String)
  /-- A key of a field that is an object; any other field counts itself. -/
  | nested (name key : String)
  deriving DecidableEq, Repr

namespace StatRule

def extract? (stats : StatBlock) : StatRule → Option Int
  | field name => (Json.member? name stats).bind Json.numeric?
  | nested name key =>
    match Json.member? name stats with
    | some (.object inner) => (Json.member? key inner).bind Json.numeric?
    | some value => value.numeric?
    | none => none

def initiative : List StatRule :=
  [field "initiative", field "initiative_bonus", field "initiativeBonus", field "dex_mod",
    field "dexMod"]

def maxHp : List StatRule :=
  [field "maxHp", field "max_hp", field "hp_max", nested "hit_points" "max", nested "hp" "max"]

def currentHp : List StatRule :=
  [field "currentHp", field "current_hp", field "hp_current", nested "hit_points" "current",
    nested "hp" "current"]

def first? (rules : List StatRule) (stats : StatBlock) : Option Int :=
  rules.findSome? (extract? stats)

end StatRule

/-- Ten points for each member from this one to the last, so that earlier members go first. -/
def fallbackInitiative (index size : Nat) : Int :=
  Word.mulSat (Word.wrap (size - index : Nat)) 10

/-- The initiative of the member at `index` of a roster of `size`. -/
def initiativeOf (stats : Option StatBlock) (index size : Nat) : Int :=
  (stats.bind (StatRule.first? StatRule.initiative)).getD (fallbackInitiative index size)

structure HitPoints where
  max : Int
  current : Int
  deriving DecidableEq, Repr

/-- The hit points of a stat block. A missing maximum is the current value, a missing current
value the maximum; the current value is brought between zero and the maximum. -/
def hitPointsOf : Option StatBlock → HitPoints
  | none => ⟨0, 0⟩
  | some stats =>
    let current := StatRule.first? StatRule.currentHp stats
    let top := max (((StatRule.first? StatRule.maxHp stats).or current).getD 0) 0
    ⟨top, max 0 (min (current.getD top) top)⟩

end Gamemaster
