import Gamemaster.Number.Double

namespace Gamemaster.Double

/-- A literal taken apart: the value is `± digits * 10 ^ exponent`. -/
structure Literal where
  negative : Bool
  digits : Nat
  exponent : Int

private def digitsValue (cs : List Char) : Nat := Nat.ofDigitChars 10 cs 0

def exponent? (cs : List Char) : Option Int :=
  let (negative, digits) := match cs with
    | '-' :: ds => (true, ds)
    | '+' :: ds => (false, ds)
    | ds => (false, ds)
  if digits.isEmpty || !digits.all Char.isDigit then none
  else
    let n : Int := digitsValue digits
    some (if negative then -n else n)

/-- Digits on at least one side of an optional point, then an optional exponent. -/
def literal? (cs : List Char) : Option Literal :=
  let (negative, cs) := match cs with
    | '-' :: ds => (true, ds)
    | '+' :: ds => (false, ds)
    | ds => (false, ds)
  let whole := cs.takeWhile Char.isDigit
  let rest := cs.dropWhile Char.isDigit
  let (fraction, rest) := match rest with
    | '.' :: ds => (ds.takeWhile Char.isDigit, ds.dropWhile Char.isDigit)
    | ds => ([], ds)
  if whole.isEmpty && fraction.isEmpty then none
  else
    let digits := digitsValue (whole ++ fraction)
    let scale : Int := -(fraction.length : Int)
    match rest with
    | [] => some ⟨negative, digits, scale⟩
    | c :: ds =>
      if c = 'e' ∨ c = 'E' then
        (exponent? ds).map fun e => ⟨negative, digits, scale + e⟩
      else none

def ofLiteral? (cs : List Char) : Option Double :=
  (literal? cs).bind fun l => ofDecimal l.negative l.digits l.exponent

end Gamemaster.Double
