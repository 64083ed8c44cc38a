import Gamemaster.Text.Hex

namespace Gamemaster.Toml

def isLineChar (c : Char) : Bool := c = '\t' || (0x20 ≤ c.toNat && c.toNat ≠ 0x7F)

def isSpace (c : Char) : Bool := c = ' ' || c = '\t'

def skipSpace (cs : List Char) : List Char := cs.dropWhile isSpace

def newline? : List Char → Option (List Char)
  | '\n' :: rest => some rest
  | '\r' :: '\n' :: rest => some rest
  | _ => none

private def numbered? (digits : Nat) (cs : List Char) : Option (Char × List Char) := do
  let n ← Text.hexNumber? (cs.take digits)
  if (cs.take digits).length = digits ∧ (n < 0xD800 ∨ (0xDFFF < n ∧ n < 0x110000)) then
    some (Char.ofNat n, cs.drop digits)
  else none

def escaped? : List Char → Option (Char × List Char)
  | 'b' :: rest => some ('\x08', rest)
  | 't' :: rest => some ('\t', rest)
  | 'n' :: rest => some ('\n', rest)
  | 'f' :: rest => some ('\x0c', rest)
  | 'r' :: rest => some ('\r', rest)
  | '"' :: rest => some ('"', rest)
  | '\\' :: rest => some ('\\', rest)
  | 'u' :: rest => numbered? 4 rest
  | 'U' :: rest => numbered? 8 rest
  | _ => none

/-- The rest of a text after its opening quote, with `read` read so far, last first. The fuel is
the number of characters. -/
def basicTail (fuel : Nat) (read : List Char) (cs : List Char) : Option (String × List Char) :=
  match fuel, cs with
  | fuel + 1, c :: rest =>
    if c = '"' then some (String.ofList read.reverse, rest)
    else if c = '\\' then
      match escaped? rest with
      | some (c, rest) => basicTail fuel (c :: read) rest
      | none => none
    else if isLineChar c then basicTail fuel (c :: read) rest
    else none
  | _, _ => none

def basic? (cs : List Char) : Option (String × List Char) := basicTail cs.length [] cs

def literal? (cs : List Char) : Option (String × List Char) :=
  let inside (c : Char) : Bool := isLineChar c && c ≠ '\''
  match cs.dropWhile inside with
  | '\'' :: rest => some (String.ofList (cs.takeWhile inside), rest)
  | _ => none

/-- Drops blank lines, and the spaces before the next character. -/
private def skipBlankLines : Nat → List Char → List Char
  | 0, cs => cs
  | fuel + 1, cs =>
    match newline? (skipSpace cs) with
    | some rest => skipBlankLines fuel rest
    | none => skipSpace cs

/-- What follows a backslash at the end of a line: the blank lines after it are left out. -/
private def joined? (cs : List Char) : Option (List Char) :=
  (newline? (skipSpace cs)).map fun rest => skipBlankLines rest.length rest

/-- The rest of a text on several lines, with `read` read so far, last first. Three quotes end it,
and up to two more before them are its own. -/
def multilineTail (quote : Char) (fuel : Nat) (read : List Char) (cs : List Char) :
    Option (String × List Char) :=
  match fuel, cs with
  | fuel + 1, c :: rest =>
    if c = quote then
      let quotes := min (cs.takeWhile (· = quote)).length 5
      if quotes < 3 then multilineTail quote fuel (c :: read) rest
      else some (String.ofList (List.replicate (quotes - 3) quote ++ read).reverse,
        cs.drop quotes)
    else if c = '\\' ∧ quote = '"' then
      match joined? rest, escaped? rest with
      | some rest, _ => multilineTail quote fuel read rest
      | none, some (c, rest) => multilineTail quote fuel (c :: read) rest
      | none, none => none
    else
      match newline? cs with
      | some rest => multilineTail quote fuel ('\n' :: read) rest
      | none => if isLineChar c then multilineTail quote fuel (c :: read) rest else none
  | _, _ => none

/-- A text on several lines, after its opening quotes. A line end right after them is left out. -/
def multiline? (quote : Char) (cs : List Char) : Option (String × List Char) :=
  multilineTail quote cs.length [] ((newline? cs).getD cs)

end Gamemaster.Toml
