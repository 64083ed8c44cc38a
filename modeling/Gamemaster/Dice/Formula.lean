import Gamemaster.Dice.Fault
import Gamemaster.Dice.Term
import Gamemaster.Number.Literal
import Gamemaster.Text.Blank
/-!
Dice formulas such as `2d6+3-1d4`. Blanks mean nothing; each sign begins a new token, and each
token is a group of dice or an integer.
-/
namespace Gamemaster.Dice

/-- A formula as it was typed, and its terms: the dice, then the modifiers, both in order. -/
structure Formula where
  raw : String
  terms : List Term
  deriving DecidableEq, Repr

def isSign (c : Char) : Bool := c = '+' || c = '-'

def tokens : List Char → List (List Char)
  | [] => []
  | c :: cs =>
    match tokens cs with
    | [] => [[c]]
    | token :: rest =>
      if token.head?.any isSign then [c] :: token :: rest else (c :: token) :: rest

def splitSign : List Char → Sign × List Char
  | '+' :: cs => (.plus, cs)
  | '-' :: cs => (.minus, cs)
  | cs => (.plus, cs)

def isDiceLetter (c : Char) : Bool := c = 'd' || c = 'D'

/-- The parts of a token shaped like `[+-]?[0-9]*d[0-9]+`, in either case: the sign, the digits of
the count and the digits of the sides. -/
def diceShape? (token : List Char) : Option (Sign × List Char × List Char) :=
  let (sign, cs) := splitSign token
  match cs.dropWhile Char.isDigit with
  | letter :: sides =>
    if isDiceLetter letter ∧ sides ≠ [] ∧ sides.all Char.isDigit then
      some (sign, cs.takeWhile Char.isDigit, sides)
    else none
  | [] => none

/-- The greatest count or size that is compared with the limits at all. -/
def maxRead : Nat := 2 ^ 32 - 1

def readDice (token : List Char) : Except Fault Term :=
  let cited := String.ofList token
  match diceShape? token with
  | none => .error (.unsupportedDice cited)
  | some (sign, countDigits, sidesDigits) =>
    let count := if countDigits = [] then 1 else Nat.ofDigitChars 10 countDigits 0
    let sides := Nat.ofDigitChars 10 sidesDigits 0
    if maxRead < count then .error (.countTooLarge cited)
    else if maxRead < sides then .error (.sidesTooLarge cited)
    else if count = 0 ∨ sides = 0 then .error (.notPositive cited)
    else if maxCount < count ∨ maxSides < sides then .error (.beyondLimits cited)
    else .ok (.dice sign count sides)

def readTerm (raw : String) (token : List Char) : Except Fault Term :=
  if token = ['+'] ∨ token = ['-'] then
    .error (.danglingSign (String.ofList token) raw)
  else if token.any isDiceLetter then
    readDice token
  else
    match Literal.word? token with
    | some value => .ok (.modifier value)
    | none => .error (.unsupportedModifier (String.ofList token))

def readTerms (raw : String) : List (List Char) → Except Fault (List Term)
  | [] => .ok []
  | token :: rest => do
    let term ← readTerm raw token
    let terms ← readTerms raw rest
    return term :: terms

def diceFirst (terms : List Term) : List Term :=
  terms.filter Term.isDice ++ terms.filter fun t => !t.isDice

namespace Formula

def parse (s : String) : Except Fault Formula :=
  let raw := Text.trim s
  if raw = "" then .error .empty
  else
    let row := tokens (Text.withoutBlanks raw.toList)
    -- Never the case: what is not blank has a token.
    if row = [] then .error (.unreadable raw)
    else do
      let terms ← readTerms raw row
      return ⟨raw, diceFirst terms⟩

def isSingleD20 (f : Formula) : Bool :=
  match f.terms with
  | [.dice _ 1 20] => true
  | _ => false

end Formula

end Gamemaster.Dice
