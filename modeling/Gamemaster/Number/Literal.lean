import Gamemaster.Number.Word

namespace Gamemaster.Literal

def natural? (cs : List Char) : Option Nat :=
  if cs ≠ [] ∧ cs.all Char.isDigit then some (Nat.ofDigitChars 10 cs 0) else none

def integer? : List Char → Option Int
  | '+' :: cs => (natural? cs).map Int.ofNat
  | '-' :: cs => (natural? cs).map fun n => -(n : Int)
  | cs => (natural? cs).map Int.ofNat

def word? (cs : List Char) : Option Int :=
  (integer? cs).filter fun n => Word.Fits n

/-- Digits after an optional plus sign, with a value of at most `limit`. -/
def bounded? (limit : Nat) (cs : List Char) : Option Nat :=
  let digits := match cs with
    | '+' :: ds => ds
    | ds => ds
  (natural? digits).filter (· ≤ limit)

theorem word?_eq_some_iff {cs : List Char} {n : Int} :
    word? cs = some n ↔ integer? cs = some n ∧ Word.Fits n := by
  simp [word?, Option.filter_eq_some_iff]

end Gamemaster.Literal
