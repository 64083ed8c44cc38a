import Gamemaster.Dice.Roll
import Gamemaster.Json.Printer

namespace Gamemaster

structure TableEntry where
  low : Int
  high : Int
  result : Json

def TableEntry.holds (e : TableEntry) (total : Int) : Bool :=
  decide (e.low ≤ total ∧ total ≤ e.high)

structure RandomTable where
  id : String
  campaignId : Option String
  name : String
  dice : String
  scope : Option String
  entries : List TableEntry

namespace RandomTable

def lookup? (entries : List TableEntry) (total : Int) : Option TableEntry :=
  entries.find? fun e => e.holds total

/-- A result in a text: texts as they are, all else as JSON. -/
def renderResult : Option Json → String
  | none => "no entry"
  | some (.text s) => s
  | some j => j.render

def rollSummary (name : String) (total : Int) (result : Option Json) : String :=
  "Rolled " ++ name ++ ": " ++ toString total ++ " -> " ++ renderResult result

def descending? (entries : List TableEntry) : Option TableEntry :=
  entries.find? fun e => decide (e.high < e.low)

end RandomTable

end Gamemaster
