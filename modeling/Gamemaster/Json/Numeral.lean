import Gamemaster.Number.Double
/-!
Numbers as JSON writes them. A number with a fraction or an exponent, and a whole number out of
range, is read as its leading digits, as many as fit 64 bits, scaled by a power of ten: both are
rounded to doubles first, and then their product or quotient. A number may be well written and
still have no value, if it is beyond the greatest double.
-/
namespace Gamemaster.Json

structure Numeral where
  negative : Bool
  whole : List Char
  fraction : List Char
  exponent : Option Int
  deriving DecidableEq, Repr

namespace Numeral

private def exponentTail? (cs : List Char) : Option (Int × List Char) :=
  let (negative, cs) := match cs with
    | '-' :: rest => (true, rest)
    | '+' :: rest => (false, rest)
    | rest => (false, rest)
  let digits := cs.takeWhile Char.isDigit
  if digits.isEmpty then none
  else
    let n : Int := Nat.ofDigitChars 10 digits 0
    some (if negative then -n else n, cs.dropWhile Char.isDigit)

private def exponent? : List Char → Option (Option Int × List Char)
  | c :: cs =>
    if c = 'e' ∨ c = 'E' then (exponentTail? cs).map fun (e, rest) => (some e, rest)
    else some (none, c :: cs)
  | [] => some (none, [])

private def fraction? : List Char → Option (List Char × List Char)
  | '.' :: cs =>
    let digits := cs.takeWhile Char.isDigit
    if digits.isEmpty then none else some (digits, cs.dropWhile Char.isDigit)
  | cs => some ([], cs)

def read? (cs : List Char) : Option (Numeral × List Char) := do
  let (negative, cs) := match cs with
    | '-' :: rest => (true, rest)
    | rest => (false, rest)
  let whole := cs.takeWhile Char.isDigit
  if whole = [] ∨ (whole.head? = some '0' ∧ whole ≠ ['0']) then none
  else
    let (fraction, rest) ← fraction? (cs.dropWhile Char.isDigit)
    let (exponent, rest) ← exponent? rest
    some (⟨negative, whole, fraction, exponent⟩, rest)

/-- Reads digits on to `value`, of which `read` were read before, while it stays below `2 ^ 64`.
Returns the value and the number of digits read. -/
private def significand (value read : Nat) : List Char → Nat × Nat
  | [] => (value, read)
  | c :: cs =>
    let next := value * 10 + (c.toNat - '0'.toNat)
    if next < 2 ^ 64 then significand next (read + 1) cs else (value, read)

/-- Divides by `10 ^ -exponent` in steps of at most 308 places. -/
private def scaleDown : Nat → Double → Int → Option Double
  | 0, x, _ => some x
  | fuel + 1, x, exponent =>
    if x.significand = 0 then some x
    else if -308 ≤ exponent then
      (Double.ofNat (10 ^ exponent.natAbs)).bind x.div
    else do
      let step ← Double.ofNat (10 ^ 308)
      scaleDown fuel (← x.div step) (exponent + 308)

/-- `± value * 10 ^ exponent`, rounded factor by factor. -/
private def scaled? (negative : Bool) (value : Nat) (exponent : Int) : Option Double := do
  let x ← Double.ofNat value
  let y ←
    if exponent < 0 then scaleDown (exponent.natAbs / 308 + 1) x exponent
    else if x.significand = 0 then some x
    else if exponent ≤ 308 then (Double.ofNat (10 ^ exponent.natAbs)).bind x.mul
    else none
  some (if negative then y.negate else y)

/-- The value of a whole number. A zero with a minus sign is no integer. -/
private def wholeValue? (negative : Bool) (digits : List Char) : Option (Int ⊕ Double) :=
  let (value, read) := significand 0 0 digits
  if read < digits.length then (scaled? negative value (digits.length - read : Nat)).map .inr
  else if !negative then some (.inl value)
  else if value = 0 ∨ 2 ^ 63 < value then (scaled? true value 0).map .inr
  else some (.inl (-(value : Int)))

def value? (n : Numeral) : Option (Int ⊕ Double) :=
  if n.fraction = [] ∧ n.exponent = none then wholeValue? n.negative n.whole
  else
    let (value, read) := significand 0 0 n.whole
    let (value, places) := significand value 0 n.fraction
    let exponent : Int := (n.whole.length - read : Nat) - (places : Int) + n.exponent.getD 0
    (scaled? n.negative value exponent).map .inr

end Numeral

end Gamemaster.Json
