import Gamemaster.Number.Power
/-!
Finite IEEE 754 double-precision numbers as data: a sign, a significand and a power of two. Every
operation is exact integer arithmetic followed by one rounding to nearest, ties to even.
-/
namespace Gamemaster

/-- The number `± significand * 2 ^ exponent`. A normal number has `2 ^ 52 ≤ significand`, all
others have the least exponent, `-1074`. -/
structure Double where
  negative : Bool
  significand : Nat
  exponent : Int
  deriving DecidableEq, Repr, Inhabited

/-- The integer nearest to `num / den`, ties to even. -/
def roundDiv (num den : Nat) : Nat :=
  let q := num / den
  let r := num % den
  if 2 * r > den || (2 * r == den && q % 2 == 1) then q + 1 else q

/-- `n` rounded to its first `digits` binary digits, ties to even. -/
def roundBits (digits n : Nat) : Nat :=
  let excess := n.log2 + 1 - digits
  roundDiv n (2 ^ excess) * 2 ^ excess

namespace Double

def leastExponent : Int := -1074

def greatestExponent : Int := 971

def zero (negative : Bool) : Double := ⟨negative, 0, leastExponent⟩

/-- `num * 2 ^ e` and `den * 2 ^ -e`, whichever is whole. -/
private def shifted (num den : Nat) (e : Int) : Nat × Nat :=
  if e < 0 then (num * 2 ^ e.natAbs, den) else (num, den * 2 ^ e.natAbs)

/-- The double nearest to `± num / den`, unless it is beyond the greatest one. -/
def ofRatio (negative : Bool) (num den : Nat) : Option Double :=
  if num = 0 then
    some (zero negative)
  else
    let guess : Int := (num.log2 : Int) - (den.log2 : Int) - 52
    let (n, d) := shifted num den guess
    let e := max leastExponent (if n < d * 2 ^ 52 then guess - 1 else guess)
    let (n, d) := shifted num den e
    let m := roundDiv n d
    let (m, e) := if m = 2 ^ 53 then (2 ^ 52, e + 1) else (m, e)
    if e > greatestExponent then none else some ⟨negative, m, e⟩

/-- The double nearest to `n`; every 64-bit integer has one. -/
def ofNat (n : Nat) : Option Double :=
  ofRatio false n 1

/-- The double nearest to `± digits * 10 ^ exponent`. As `10 ^ 3 < 2 ^ 10 < 10 ^ 4`, the first two
tests only settle numbers that are far too small or far too large. -/
def ofDecimal (negative : Bool) (digits : Nat) (exponent : Int) : Option Double :=
  let width : Int := digits.log2
  if digits = 0 ∨ (exponent < 0 ∧ width + 3 * exponent < -1200) then
    some (zero negative)
  else if 0 < exponent ∧ 1100 < width + 3 * exponent then
    none
  else if exponent < 0 then
    ofRatio negative digits (10 ^ exponent.natAbs)
  else
    ofRatio negative (digits * 10 ^ exponent.natAbs) 1

def ratio (x : Double) : Nat × Nat :=
  if x.exponent < 0 then (x.significand, 2 ^ x.exponent.natAbs)
  else (x.significand * 2 ^ x.exponent.natAbs, 1)

def negate (x : Double) : Double := { x with negative := !x.negative }

def mul (x y : Double) : Option Double :=
  let (a, b) := x.ratio
  let (c, d) := y.ratio
  ofRatio (x.negative != y.negative) (a * c) (b * d)

/-- The quotient by a number other than zero. -/
def div (x y : Double) : Option Double :=
  let (a, b) := x.ratio
  let (c, d) := y.ratio
  ofRatio (x.negative != y.negative) (a * d) (b * c)

def truncate (x : Double) : Int :=
  let (a, b) := x.ratio
  if x.negative then -((a / b : Nat) : Int) else ((a / b : Nat) : Int)

/-- The interchange format: sign, eleven bits of exponent, fifty-two bits of significand. -/
def bits (x : Double) : Nat :=
  let sign := if x.negative then 2 ^ 63 else 0
  if x.significand < 2 ^ 52 then sign + x.significand
  else sign + (x.exponent - leastExponent + 1).toNat * 2 ^ 52 + (x.significand - 2 ^ 52)

end Double

end Gamemaster
