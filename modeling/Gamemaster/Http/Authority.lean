namespace Gamemaster.Http

/-- What the characters of an authority have shown so far. -/
structure Authority where
  /-- The colons since the last `@` or `]`. -/
  colons : Nat
  percent : Bool
  opened : Bool
  closed : Bool
  hostless : Bool
  deriving DecidableEq, Repr

namespace Authority

def empty : Authority := ⟨0, false, false, false, false⟩

/-- As many colons as an address in brackets has. -/
def maxColons : Nat := 8

def isPlain (c : Char) : Bool :=
  c.isAlphanum ||
    ['!', '$', '&', '\'', '(', ')', '*', '+', ',', '-', '.', ';', '=', '_', '~'].contains c

/-- One more character. Only one pair of brackets may be there. -/
def step? (a : Authority) (c : Char) : Option Authority :=
  let a := { a with hostless := c = '@' }
  match c with
  | ':' => if a.colons < maxColons then some { a with colons := a.colons + 1 } else none
  | '[' => if a.percent || a.opened then none else some { a with opened := true }
  | ']' =>
    if a.opened && !a.closed then some { a with colons := 0, percent := false, closed := true }
    else none
  | '@' => some { a with colons := 0, percent := false }
  | '%' => some { a with percent := true }
  | c => if isPlain c then some a else none

/-- Whether an authority may end here. Percent signs belong before an `@` or in brackets. -/
def isEnd (a : Authority) : Bool :=
  a.opened == a.closed && a.colons ≤ 1 && !a.percent && !a.hostless

end Authority

/-- Whether characters, of which there is at least one, form an authority. -/
def isAuthority (cs : List Char) : Bool :=
  cs ≠ [] && (cs.foldlM Authority.step? .empty).any Authority.isEnd

end Gamemaster.Http
