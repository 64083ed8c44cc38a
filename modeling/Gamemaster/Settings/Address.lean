import Gamemaster.Number.Power
import Gamemaster.Text.Hex

namespace Gamemaster

inductive Host where
  | four (octets : List Nat)
  /-- Eight numbers below `2 ^ 16`, and the number of the zone, zero for none. -/
  | six (groups : List Nat) (zone : Nat)
  deriving DecidableEq, Repr

structure SocketAddress where
  host : Host
  portNumber : Nat
  deriving DecidableEq, Repr

namespace SocketAddress

private def number? (limit : Nat) (cs : List Char) : Option (Nat × List Char) :=
  let digits := cs.takeWhile Char.isDigit
  let n := Nat.ofDigitChars 10 digits 0
  if digits ≠ [] ∧ n ≤ limit then some (n, cs.dropWhile Char.isDigit) else none

/-- A number below 256 without needless zeros. -/
private def octet? (cs : List Char) : Option (Nat × List Char) :=
  let digits := cs.takeWhile Char.isDigit
  if digits.length = 1 ∨ digits.head? ≠ some '0' then number? 255 cs else none

private def colon? : List Char → Option (List Char)
  | ':' :: rest => some rest
  | _ => none

private def octets? : Nat → List Char → Option (List Nat × List Char)
  | 0, cs => (octet? cs).map fun (n, rest) => ([n], rest)
  | more + 1, cs => do
    let (n, rest) ← octet? cs
    match rest with
    | '.' :: rest =>
      let (ns, rest) ← octets? more rest
      some (n :: ns, rest)
    | _ => none

private def four? (cs : List Char) : Option (List Nat × List Char) := octets? 3 cs

private def group? (cs : List Char) : Option (Nat × List Char) :=
  let isHex (c : Char) : Bool := (Text.hexDigit? c).isSome
  let digits := cs.takeWhile isHex
  if digits ≠ [] ∧ digits.length ≤ 4 then
    (Text.hexNumber? digits).map (·, cs.dropWhile isHex)
  else none

/-- Reads up to `limit` groups between colons. Four octets may stand for the last two. Tells
whether they did. -/
private def groups : Nat → List Char → List Nat × Bool × List Char
  | 0, cs => ([], false, cs)
  | limit + 1, cs =>
    let more (rest : List Char) : List Nat × Bool × List Char :=
      match limit, colon? rest with
      | limit + 1, some after =>
        match groups (limit + 1) after with
        | ([], _, _) => ([], false, rest)
        | found => found
      | _, _ => ([], false, rest)
    match if 0 < limit then four? cs else none with
    | some ([a, b, c, d], rest) => ([a * 256 + b, c * 256 + d], true, rest)
    | _ =>
      match group? cs with
      | none => ([], false, cs)
      | some (n, rest) =>
        let (ns, octets, rest) := more rest
        (n :: ns, octets, rest)

/-- Eight groups, or fewer with a double colon in place of the zeros that are missing. -/
private def six? (cs : List Char) : Option (List Nat × List Char) :=
  match groups 8 cs with
  | (front, octets, rest) =>
    if front.length = 8 then some (front, rest)
    else if octets then none
    else
      match rest with
      | ':' :: ':' :: rest =>
        let (back, _, rest) := groups (7 - front.length) rest
        some (front ++ List.replicate (8 - front.length - back.length) 0 ++ back, rest)
      | _ => none

private def maxPortNumber : Nat := 2 ^ 16 - 1

private def maxZone : Nat := 2 ^ 32 - 1

private def portNumber? (cs : List Char) : Option Nat := do
  match ← number? maxPortNumber (← colon? cs) with
  | (n, []) => some n
  | _ => none

private def parseFour? (cs : List Char) : Option SocketAddress := do
  let (octets, rest) ← four? cs
  some ⟨.four octets, ← portNumber? rest⟩

private def parseSix? : List Char → Option SocketAddress
  | '[' :: cs => do
    let (groups, rest) ← six? cs
    let (zone, rest) ← match rest with
      | '%' :: rest => number? maxZone rest
      | rest => some (0, rest)
    match rest with
    | ']' :: rest => some ⟨.six groups zone, ← portNumber? rest⟩
    | _ => none
  | _ => none

def parse? (s : String) : Option SocketAddress :=
  (parseFour? s.toList).or (parseSix? s.toList)

private def dotted (ns : List Nat) : String := ".".intercalate (ns.map toString)

private def hex (ns : List Nat) : String :=
  ":".intercalate (ns.map fun n => String.ofList (Nat.toDigits 16 n))

private def zeros (ns : List Nat) : Nat := (ns.takeWhile (· = 0)).length

/-- Place and length of the longest run of zeros, the first of equal ones. -/
private def longestZeros (start : Nat) : List Nat → Nat × Nat
  | [] => (start, 0)
  | n :: ns =>
    let later := longestZeros (start + 1) ns
    if later.2 ≤ zeros (n :: ns) then (start, zeros (n :: ns)) else later

/-- Groups with two colons in place of the longest run of two or more zeros. -/
private def renderGroups (groups : List Nat) : String :=
  match groups with
  | [0, 0, 0, 0, 0, 0xffff, x, y] => "::ffff:" ++ dotted [x / 256, x % 256, y / 256, y % 256]
  | _ =>
    let (start, length) := longestZeros 0 groups
    if 1 < length then hex (groups.take start) ++ "::" ++ hex (groups.drop (start + length))
    else hex groups

def render (a : SocketAddress) : String :=
  match a.host with
  | .four octets => dotted octets ++ ":" ++ toString a.portNumber
  | .six groups zone =>
    "[" ++ renderGroups groups ++ (if zone = 0 then "" else "%" ++ toString zone) ++ "]:" ++
      toString a.portNumber

end SocketAddress

end Gamemaster
