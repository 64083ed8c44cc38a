import Gamemaster.Number.Double
/-!
The shortest decimal text of a double: of the decimals that round to it, those with the fewest
digits, and of these the nearest. Small and large numbers are written with an exponent.
-/
namespace Gamemaster.Double

def compareScaled (a : Nat) (p : Int) (b : Nat) (q : Int) : Ordering :=
  compare (a * 2 ^ p.toNat * 10 ^ (-q).toNat) (b * 10 ^ q.toNat * 2 ^ (-p).toNat)

/-- The power of ten of the leading digit of a number other than zero. -/
def decimalExponent (x : Double) : Int :=
  let (num, den) := x.ratio
  let guess : Int := (Nat.toDigits 10 num).length - (Nat.toDigits 10 den).length
  if num * 10 ^ (-guess).toNat < den * 10 ^ guess.toNat then guess - 1 else guess

/-- Whether the decimal `c * 10 ^ p` rounds to `x`. The rounding interval reaches half way to both
neighbours, which below a power of two is half as far; its ends belong to even significands. -/
def holds (x : Double) (c : Nat) (p : Int) : Bool :=
  let m := 4 * x.significand
  let lower := if x.significand = 2 ^ 52 ∧ leastExponent < x.exponent then m - 1 else m - 2
  let upper := m + 2
  let inside := fun o : Ordering => o = .lt || (o = .eq && x.significand % 2 == 0)
  inside (compareScaled lower (x.exponent - 2) c p) &&
    inside (compareScaled upper (x.exponent - 2) c p).swap

/-- Of the two decimals with last place `10 ^ p` around `x`, the nearest that rounds to it. -/
def neighbour? (x : Double) (p : Int) : Option Nat :=
  let (num, den) := x.ratio
  let c := num * 10 ^ (-p).toNat / (den * 10 ^ p.toNat)
  match holds x c p, holds x (c + 1) p with
  | true, true =>
    match compareScaled (2 * x.significand) x.exponent (2 * c + 1) p with
    | .lt => some c
    | .gt => some (c + 1)
    | .eq => some (if c % 2 == 0 then c else c + 1)
  | true, false => some c
  | false, true => some (c + 1)
  | false, false => none

/-- Tries `places` more digits, beginning with the last place `10 ^ p`. -/
def shortestFrom (x : Double) : Nat → Int → Nat × Int
  | 0, p => ((neighbour? x p).getD 0, p)
  | places + 1, p =>
    match neighbour? x p with
    | some c => (c, p)
    | none => shortestFrom x places (p - 1)

/-- Digits and power of ten of the shortest decimal of a number other than zero. Seventeen digits
always suffice. -/
def shortest (x : Double) : Nat × Int :=
  shortestFrom x 17 x.decimalExponent

def shortestDigits (x : Double) : List Char × Int :=
  let (c, p) := x.shortest
  let digits := Nat.toDigits 10 c
  let kept := (digits.reverse.dropWhile (· == '0')).reverse
  (kept, p + digits.length - 1)

/-- Positional from `0.00001` to below `10 ^ 16`, with at least one decimal; else one digit before
the point and a signed exponent. -/
def render (x : Double) : String :=
  let sign := if x.negative then "-" else ""
  if x.significand = 0 then
    sign ++ "0.0"
  else
    let (digits, e) := x.shortestDigits
    let whole (ds : List Char) : String := String.ofList ds
    if e < -5 ∨ 15 < e then
      let mantissa := match digits with
        | d :: r :: ds => whole [d, '.'] ++ whole (r :: ds)
        | ds => whole ds
      sign ++ mantissa ++ "e" ++ (if e < 0 then "-" else "+") ++ toString e.natAbs
    else if e < 0 then
      sign ++ "0." ++ whole (List.replicate (e.natAbs - 1) '0') ++ whole digits
    else
      let places := e.toNat + 1
      if digits.length ≤ places then
        sign ++ whole digits ++ whole (List.replicate (places - digits.length) '0') ++ ".0"
      else
        sign ++ whole (digits.take places) ++ "." ++ whole (digits.drop places)

end Gamemaster.Double
