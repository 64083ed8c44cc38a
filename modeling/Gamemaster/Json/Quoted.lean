import Gamemaster.Text.Hex
/-!
Texts in double quotes. The escape `\u` and four digits give a unit of UTF-16: a character of the
basic plane, or one half of a character beyond it. A text may be well written and still stand for
no characters, if a half in it is without the other.
-/
namespace Gamemaster.Json

/-- What one letter or one escape between the quotes gives. -/
inductive Mark where
  | char (c : Char)
  | unit (n : Nat)
  deriving DecidableEq, Repr

def shortEscape? : Char → Option Char
  | '"' => some '"'
  | '\\' => some '\\'
  | '/' => some '/'
  | 'b' => some '\x08'
  | 'f' => some '\x0c'
  | 'n' => some '\n'
  | 'r' => some '\r'
  | 't' => some '\t'
  | _ => none

/-- The marks up to the closing quote and what follows it, with `read` read so far, last first.
Control characters must be escaped. -/
def marks? (read : List Mark) : List Char → Option (List Mark × List Char)
  | [] => none
  | '"' :: rest => some (read.reverse, rest)
  | '\\' :: 'u' :: a :: b :: c :: d :: rest =>
    match Text.hexNumber? [a, b, c, d] with
    | some n => marks? (.unit n :: read) rest
    | none => none
  | '\\' :: c :: rest =>
    match shortEscape? c with
    | some c => marks? (.char c :: read) rest
    | none => none
  | c :: rest => if c = '\\' ∨ c.toNat < 0x20 then none else marks? (.char c :: read) rest

def isHighHalf (n : Nat) : Bool := 0xD800 ≤ n && n < 0xDC00

def isLowHalf (n : Nat) : Bool := 0xDC00 ≤ n && n < 0xE000

def joinHalves (high low : Nat) : Char :=
  Char.ofNat (0x10000 + (high - 0xD800) * 1024 + (low - 0xDC00))

/-- The characters that marks give, after those of `made`, last first. -/
def characters? (made : List Char) : List Mark → Option (List Char)
  | [] => some made.reverse
  | .char c :: rest => characters? (c :: made) rest
  | .unit high :: .unit low :: rest =>
    if isHighHalf high && isLowHalf low then characters? (joinHalves high low :: made) rest
    else if isHighHalf high || isLowHalf high then none
    else characters? (Char.ofNat high :: made) (.unit low :: rest)
  | .unit n :: rest =>
    if isHighHalf n || isLowHalf n then none else characters? (Char.ofNat n :: made) rest

def textOf? (marks : List Mark) : Option String :=
  (characters? [] marks).map String.ofList

end Gamemaster.Json
