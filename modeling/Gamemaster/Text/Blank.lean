namespace Gamemaster.Text

/-- The White_Space characters of Unicode. -/
def isBlank (c : Char) : Bool :=
  let n := c.toNat
  (9 ≤ n && n ≤ 13) || n == 0x20 || n == 0x85 || n == 0xA0 || n == 0x1680 ||
    (0x2000 ≤ n && n ≤ 0x200A) || n == 0x2028 || n == 0x2029 || n == 0x202F ||
    n == 0x205F || n == 0x3000

def trimChars (cs : List Char) : List Char :=
  ((cs.dropWhile isBlank).reverse.dropWhile isBlank).reverse

def withoutBlanks (cs : List Char) : List Char :=
  cs.filter fun c => !isBlank c

def trim (s : String) : String :=
  String.ofList (trimChars s.toList)

def isBlankText (s : String) : Bool :=
  s.toList.all isBlank

theorem mem_withoutBlanks {c : Char} {cs : List Char} :
    c ∈ withoutBlanks cs ↔ c ∈ cs ∧ isBlank c = false := by
  simp [withoutBlanks]

theorem withoutBlanks_append (cs ds : List Char) :
    withoutBlanks (cs ++ ds) = withoutBlanks cs ++ withoutBlanks ds := by
  simp [withoutBlanks]

end Gamemaster.Text
