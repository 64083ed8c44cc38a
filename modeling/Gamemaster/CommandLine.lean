import Gamemaster.Release
import Gamemaster.Wire.Answer

namespace Gamemaster.CommandLine

structure Given where
  formula : Option String
  advantage : Bool
  disadvantage : Bool
  exploding : Bool
  seed : Option String
  asJson : Bool
  deriving DecidableEq, Repr

namespace Given

def nothing : Given := ⟨none, false, false, false, none, false⟩

def withFormula? (formula : String) (g : Given) : Option Given :=
  if g.formula.isNone then some { g with formula := some formula } else none

def withSeed? (seed : String) (g : Given) : Option Given :=
  if g.seed.isNone then some { g with seed := some seed } else none

/-- A flag may be given once. -/
def withFlag? (flag : String) (g : Given) : Option Given :=
  match flag with
  | "--advantage" => if g.advantage then none else some { g with advantage := true }
  | "--disadvantage" => if g.disadvantage then none else some { g with disadvantage := true }
  | "--explode" => if g.exploding then none else some { g with exploding := true }
  | "--json" => if g.asJson then none else some { g with asJson := true }
  | _ => none

end Given

structure Order where
  formula : String
  policy : Dice.Policy
  seed : Option String
  asJson : Bool
  deriving DecidableEq, Repr

inductive Command where
  | help
  | version
  | roll (order : Order)
  deriving DecidableEq, Repr

/-- The order once all arguments are read. It needs a formula, and the two advantage flags exclude
each other. -/
def Given.order? (g : Given) : Option Order := do
  let formula ← g.formula
  if g.advantage && g.disadvantage then none
  else
    let mode : Dice.Advantage :=
      if g.advantage then .advantage else if g.disadvantage then .disadvantage else .none
    some ⟨formula, ⟨mode, g.exploding⟩, g.seed, g.asJson⟩

def isOption (arg : String) : Bool := arg.startsWith "-" && arg ≠ "-"

/-- The value in an argument like `--seed=value`. -/
def attachedSeed? (arg : String) : Option String :=
  let flag := "--seed=".toList
  if flag.isPrefixOf arg.toList then some (String.ofList (arg.toList.drop flag.length)) else none

def readRest (g : Given) (args : List String) : Option Given :=
  args.foldlM (fun g arg => g.withFormula? arg) g

/-- The command of the arguments; `none` if they are not used as they should be. -/
def readArgs (g : Given) : List String → Option Command
  | [] => g.order?.map .roll
  | "--" :: rest => (readRest g rest).bind fun g => g.order?.map .roll
  | "--help" :: _ => some .help
  | "--version" :: _ => some .version
  | "--seed" :: seed :: rest =>
    if isOption seed then none else (g.withSeed? seed).bind fun g => readArgs g rest
  | arg :: rest =>
    if !isOption arg then (g.withFormula? arg).bind fun g => readArgs g rest
    else if arg.startsWith "-h" then some .help
    else if arg.startsWith "-V" then some .version
    else
      match attachedSeed? arg with
      | some seed => (g.withSeed? seed).bind fun g => readArgs g rest
      | none => (g.withFlag? arg).bind fun g => readArgs g rest

def readCommand? (args : List String) : Option Command := readArgs .nothing args

def usage : String := "Usage: " ++ rollerName ++ " [OPTIONS] <NOTATION>\n"

def helpText : String :=
  "Roll dice notation such as 2d6+3\n\n" ++ usage ++ "\nArguments:\n" ++
    "  <NOTATION>  Dice notation, e.g. \"1d20+5\" or \"2d6-1d4\"\n\nOptions:\n" ++
    "      --advantage     Roll a lone d20 twice and keep the higher\n" ++
    "      --disadvantage  Roll a lone d20 twice and keep the lower\n" ++
    "      --explode       Reroll and add on a die's maximum face\n" ++
    "      --seed <SEED>   Seed for a reproducible roll\n" ++
    "      --json          Print the full result as JSON\n" ++
    "  -h, --help          Print help\n" ++
    "  -V, --version       Print version\n"

inductive Ending where
  | success (text : String)
  | failure (reason : String)
  | misuse
  deriving DecidableEq, Repr

def report (asJson : Bool) (r : Dice.Roll) : String :=
  if asJson then r.toJson.pretty 0 ++ "\n"
  else r.narrative ++ "\nseed: " ++ r.seed ++ "\n"

/-- Carries out an order; `freshSeed` serves if it names no seed. -/
def Order.run (freshSeed : String) (o : Order) : Ending :=
  match Dice.roll o.formula o.policy (o.seed.getD freshSeed) with
  | .ok r => .success (report o.asJson r)
  | .error fault => .failure ("Error: " ++ fault.message ++ "\n")

def run (freshSeed : String) (args : List String) : Ending :=
  match readCommand? args with
  | none => .misuse
  | some .help => .success helpText
  | some .version => .success (rollerName ++ " " ++ version ++ "\n")
  | some (.roll order) => order.run freshSeed

end Gamemaster.CommandLine
