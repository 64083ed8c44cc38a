import Gamemaster.CommandLine

open Gamemaster in
/-- Prints what a run ends with. A roll without a seed is seeded with random bytes, written in
hexadecimal. -/
def main (args : List String) : IO UInt32 := do
  let bytes ← IO.getRandomBytes 16
  let freshSeed := String.join (bytes.toList.map fun b =>
    String.ofList [Nat.digitChar (b.toNat / 16), Nat.digitChar (b.toNat % 16)])
  match CommandLine.run freshSeed args with
  | .success text => do
    IO.print text
    return 0
  | .failure reason => do
    IO.eprint reason
    return 1
  | .misuse => do
    IO.eprint CommandLine.usage
    return 2
