import Gamemaster.Number.Double
import Gamemaster.Random.Digest
import Gamemaster.Random.Keystream

namespace Gamemaster.Random

/-- A seed with the place in its stream: the number of the next block, and the draws left of the
last one. -/
structure Source where
  seed : String
  key : List UInt32
  nextBlock : Nat
  pending : List UInt64
  deriving DecidableEq

namespace Source

def reverseBytes (x : UInt32) : UInt32 :=
  let inner : UInt32 := ((x &&& 0xff00) <<< 8) ||| ((x >>> 8) &&& 0xff00)
  (x <<< 24) ||| inner ||| (x >>> 24)

def ofSeed (seed : String) : Source :=
  ⟨seed, (Digest.hash seed.toUTF8.toList).map reverseBytes, 0, []⟩

/-- Numbers of two words each, the low word first. -/
def pairs : List UInt32 → List UInt64
  | low :: high :: rest => ((high.toUInt64 <<< 32) ||| low.toUInt64) :: pairs rest
  | _ => []

def next (s : Source) : UInt64 × Source :=
  match s.pending with
  | x :: rest => (x, { s with pending := rest })
  | [] =>
    match pairs (Keystream.block s.key s.nextBlock) with
    | x :: rest => (x, { s with nextBlock := s.nextBlock + 1, pending := rest })
    | [] => (0, s)

/-- The next draw, a whole number below `2 ^ 53`; divided by `2 ^ 53` it lies in the unit
interval. -/
def draw (s : Source) : Nat × Source :=
  let (x, s) := s.next
  (x.toNat / 2 ^ 11, s)

def unit (s : Source) : Option Double × Source :=
  let (k, s) := s.draw
  (Double.ofRatio false k (2 ^ 53), s)

/-- The face that a draw gives a die: one more than the whole part of its share of the sides,
which is first rounded to 53 binary digits. -/
def face (sides k : Nat) : Nat :=
  min (roundBits 53 (k * sides) / 2 ^ 53 + 1) sides

def roll (sides : Nat) (s : Source) : Nat × Source :=
  let (k, s) := s.draw
  (face sides k, s)

def skip : Nat → Source → Source
  | 0, s => s
  | n + 1, s => skip n s.draw.2

theorem face_le (sides k : Nat) : face sides k ≤ sides :=
  Nat.min_le_right _ _

theorem one_le_face {sides : Nat} (h : 0 < sides) (k : Nat) : 1 ≤ face sides k := by
  unfold face
  omega

@[simp] theorem roll_fst (sides : Nat) (s : Source) : (roll sides s).1 = face sides s.draw.1 :=
  rfl

@[simp] theorem roll_snd (sides : Nat) (s : Source) : (roll sides s).2 = s.draw.2 := rfl

theorem skip_add (m n : Nat) (s : Source) : skip (m + n) s = skip n (skip m s) := by
  induction m generalizing s with
  | zero => simp [skip]
  | succ m ih => simp [Nat.succ_add, skip, ih]

end Source

end Gamemaster.Random
