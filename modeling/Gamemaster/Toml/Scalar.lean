import Gamemaster.Number.Double.Decimal
import Gamemaster.Number.Word
import Gamemaster.Text.Hex

namespace Gamemaster.Toml

/-- Digits, between which single underscores may stand. -/
def digitsFit (isDigit : Char → Bool) (cs : List Char) : Bool :=
  let mark (c : Char) : Bool := c = '_'
  cs.all (fun c => isDigit c || mark c) && cs.head?.any isDigit && cs.getLast?.any isDigit &&
    !(cs.zip (cs.drop 1)).any fun p => mark p.1 && mark p.2

/-- Decimal digits without a needless zero in front. -/
def wholeFits (cs : List Char) : Bool :=
  digitsFit Char.isDigit cs && (cs.head? ≠ some '0' || cs.length = 1)

private def unmarked (cs : List Char) : List Char := cs.filter (· ≠ '_')

private def splitMinus : List Char → Bool × List Char
  | '-' :: cs => (true, cs)
  | '+' :: cs => (false, cs)
  | cs => (false, cs)

private def inBase (base : Nat) (c : Char) : Bool := (Text.hexDigit? c).any (· < base)

private def baseFits (base : Nat) (cs : List Char) : Bool :=
  let value := (unmarked cs).foldl (fun n c => n * base + (Text.hexDigit? c).getD 0) 0
  digitsFit (inBase base) cs && decide (Word.Fits value)

def isInteger : List Char → Bool
  | '0' :: 'x' :: cs => baseFits 16 cs
  | '0' :: 'o' :: cs => baseFits 8 cs
  | '0' :: 'b' :: cs => baseFits 2 cs
  | cs =>
    let (negative, digits) := splitMinus cs
    let value : Int := Nat.ofDigitChars 10 (unmarked digits) 0
    wholeFits digits && decide (Word.Fits (if negative then -value else value))

private def exponentFits : List Char → Bool
  | [] => true
  | c :: cs => (c = 'e' || c = 'E') && digitsFit Char.isDigit (splitMinus cs).2

/-- A number with a fraction or an exponent that is not too large, or a word for a special one. -/
def isFloat (cs : List Char) : Bool :=
  let (negative, body) := splitMinus cs
  let digit (c : Char) : Bool := c.isDigit || c = '_'
  let finite := negative || (Double.ofLiteral? (unmarked body)).isSome
  body = "inf".toList || body = "nan".toList ||
    (wholeFits (body.takeWhile digit) && finite &&
      match body.dropWhile digit with
      | [] => false
      | '.' :: rest =>
        digitsFit Char.isDigit (rest.takeWhile digit) && exponentFits (rest.dropWhile digit)
      | rest => exponentFits rest)

private def pair? (a b : Char) : Option Nat :=
  if a.isDigit ∧ b.isDigit then some (Nat.ofDigitChars 10 [a, b] 0) else none

private def pairBelow (limit : Nat) (a b : Char) : Bool := (pair? a b).any (· < limit)

private def daysOf (year month : Nat) : Nat :=
  if month = 2 then
    if year % 4 = 0 ∧ (year % 100 ≠ 0 ∨ year % 400 = 0) then 29 else 28
  else if [4, 6, 9, 11].contains month then 30
  else 31

def isDate : List Char → Bool
  | [y₁, y₂, y₃, y₄, '-', m₁, m₂, '-', d₁, d₂] =>
    match pair? y₁ y₂, pair? y₃ y₄, pair? m₁ m₂, pair? d₁ d₂ with
    | some century, some year, some month, some day =>
      decide (1 ≤ month ∧ month ≤ 12 ∧ 1 ≤ day ∧ day ≤ daysOf (century * 100 + year) month)
    | _, _, _, _ => false
  | _ => false

private def afterTime? : List Char → Option (List Char)
  | h₁ :: h₂ :: ':' :: m₁ :: m₂ :: ':' :: s₁ :: s₂ :: rest =>
    if pairBelow 24 h₁ h₂ ∧ pairBelow 60 m₁ m₂ ∧ pairBelow 61 s₁ s₂ then
      match rest with
      | '.' :: digits =>
        if digits.head?.any Char.isDigit then some (digits.dropWhile Char.isDigit) else none
      | rest => some rest
    else none
  | _ => none

private def isOffset : List Char → Bool
  | [c] => c = 'Z' || c = 'z'
  | [sign, h₁, h₂, ':', m₁, m₂] =>
    (sign = '+' || sign = '-') && pairBelow 24 h₁ h₂ && pairBelow 60 m₁ m₂
  | _ => false

/-- A date, a time of day, or both and perhaps an offset. -/
def isTime (cs : List Char) : Bool :=
  afterTime? cs = some [] ||
    (isDate (cs.take 10) &&
      match cs.drop 10 with
      | [] => true
      | c :: rest =>
        (c = 'T' || c = 't' || c = ' ') && (afterTime? rest).any fun rest =>
          rest = [] || isOffset rest)

private def isScalarChar (c : Char) : Bool :=
  c.isAlphanum || c = '+' || c = '-' || c = '_' || c = '.' || c = ':'

/-- Cuts off an unquoted value. A space may stand between a date and a time. -/
private def cutScalar (cs : List Char) : List Char × List Char :=
  let token := cs.takeWhile isScalarChar
  match cs.dropWhile isScalarChar with
  | ' ' :: rest =>
    if isDate token ∧ rest.head?.any Char.isDigit then
      (token ++ ' ' :: rest.takeWhile isScalarChar, rest.dropWhile isScalarChar)
    else (token, ' ' :: rest)
  | rest => (token, rest)

def afterScalar? (cs : List Char) : Option (List Char) :=
  let (token, rest) := cutScalar cs
  if token = "true".toList ∨ token = "false".toList ∨ isInteger token ∨ isFloat token ∨
      isTime token then some rest
  else none

end Gamemaster.Toml
