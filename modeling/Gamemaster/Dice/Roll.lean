import Gamemaster.Dice.Advantage
import Gamemaster.Dice.Formula
import Gamemaster.Number.Word
import Gamemaster.Random.Source
/-!
Rolling a formula. The dice are drawn in the order of the terms; after each value the running
total must fit 64 signed bits. An exploding die that shows its top face is rolled again and added,
and so on.
-/
namespace Gamemaster.Dice

open Gamemaster.Random (Source)

def maxExplosions : Nat := 100

/-- The extra rolls that a die may take. A die with one face never explodes. -/
def extraRolls (exploding : Bool) (sides : Nat) : Nat :=
  if exploding ∧ 1 < sides then maxExplosions else 0

/-- The faces of one die: the first, and up to `extra` more as long as the last is the top
face. -/
def rollFaces (sides : Nat) : Nat → Source → List Nat × Source
  | 0, s =>
    let (face, s) := s.roll sides
    ([face], s)
  | extra + 1, s =>
    let (face, s) := s.roll sides
    if face = sides then
      let (faces, s) := rollFaces sides extra s
      (face :: faces, s)
    else ([face], s)

def rollDie (exploding : Bool) (sides : Nat) (s : Source) : Nat × Source :=
  let (faces, s) := rollFaces sides (extraRolls exploding sides) s
  (faces.foldr (· + ·) 0, s)

inductive Piece where
  | dice (sign : Sign) (count sides : Nat) (values : List Int)
  /-- Two rolls of a d20, of which one value was kept. -/
  | pair (sign : Sign) (first second kept : Nat)
  | modifier (value : Int)
  deriving DecidableEq, Repr

def Piece.values : Piece → List Int
  | dice _ _ _ values => values
  | pair sign first second _ => [sign.toInt * first, sign.toInt * second]
  | modifier value => [value]

/-- Rolls a number of equal dice on top of a total. The source moves on even if the total does not
fit. -/
def rollDice (exploding : Bool) (sign : Sign) (sides : Nat) :
    Nat → Int → Source → Option (List Int × Int) × Source
  | 0, total, s => (some ([], total), s)
  | count + 1, total, s =>
    let (face, s) := rollDie exploding sides s
    let value := sign.toInt * face
    match Word.add? total value with
    | none => (none, s)
    | some total =>
      match rollDice exploding sign sides count total s with
      | (some (values, total), s) => (some (value :: values, total), s)
      | (none, s) => (none, s)

def rollTerm (exploding : Bool) (term : Term) (total : Int) (s : Source) :
    Option (Piece × Int) × Source :=
  match term with
  | .dice sign count sides =>
    match rollDice exploding sign sides count total s with
    | (some (values, total), s) => (some (.dice sign count sides values, total), s)
    | (none, s) => (none, s)
  | .modifier value => ((Word.add? total value).map fun total => (.modifier value, total), s)

def rollTerms (exploding : Bool) : List Term → Int → Source → Option (List Piece × Int) × Source
  | [], total, s => (some ([], total), s)
  | term :: terms, total, s =>
    match rollTerm exploding term total s with
    | (none, s) => (none, s)
    | (some (piece, total), s) =>
      match rollTerms exploding terms total s with
      | (some (pieces, total), s) => (some (piece :: pieces, total), s)
      | (none, s) => (none, s)

def rollPair (mode : Advantage) (exploding : Bool) (sign : Sign) (s : Source) :
    Piece × Int × Source :=
  let (first, s) := rollDie exploding 20 s
  let (second, s) := rollDie exploding 20 s
  let kept := mode.pick first second
  (.pair sign first second kept, sign.toInt * kept, s)

structure Policy where
  advantage : Advantage
  exploding : Bool
  deriving DecidableEq, Repr

structure Roll where
  formula : Formula
  policy : Policy
  pieces : List Piece
  total : Int
  seed : String
  deriving DecidableEq, Repr

/-- The sign of a formula that is one d20, if advantage matters to it. -/
def pairSign? (mode : Advantage) (f : Formula) : Option Sign :=
  match mode, f.terms with
  | .none, _ => none
  | _, [.dice sign 1 20] => some sign
  | _, _ => none

namespace Formula

def roll (f : Formula) (policy : Policy) (s : Source) : Except Fault Roll × Source :=
  match pairSign? policy.advantage f with
  | some sign =>
    let (piece, total, s) := rollPair policy.advantage policy.exploding sign s
    (.ok ⟨f, policy, [piece], total, s.seed⟩, s)
  | none =>
    match rollTerms policy.exploding f.terms 0 s with
    | (some (pieces, total), s) => (.ok ⟨f, policy, pieces, total, s.seed⟩, s)
    | (none, s) => (.error (.totalOutOfRange f.raw), s)

end Formula

/-- Every signed value in the order of the draws. -/
def Roll.values (r : Roll) : List Int :=
  r.pieces.flatMap Piece.values

def roll (formula : String) (policy : Policy) (seed : String) : Except Fault Roll := do
  let f ← Formula.parse formula
  (f.roll policy (Source.ofSeed seed)).1

end Gamemaster.Dice
