import Gamemaster.Settings.Address
import Gamemaster.Settings.Variable
import Gamemaster.Toml.Reader
/-!
The settings of the server. A file overrules the defaults, and environment variables overrule the
file.
-/
namespace Gamemaster

inductive LogFormat where
  | pretty
  | json
  deriving DecidableEq, Repr

namespace LogFormat

def text : LogFormat → String
  | pretty => "pretty"
  | json => "json"

def named? (s : String) : Option LogFormat :=
  [pretty, json].find? fun f => f.text = s

end LogFormat

structure Settings where
  bindAddress : SocketAddress
  /-- The file of the store; without one it is kept in memory. -/
  storePath : Option String
  logFilter : String
  logFormat : LogFormat
  deriving DecidableEq, Repr

namespace Settings

def default : Settings :=
  ⟨⟨.four [127, 0, 0, 1], 8080⟩, none, "tabletop=info,tower_http=debug", .pretty⟩

def last? (key : String) (given : List (String × Toml.Value)) : Option Toml.Value :=
  (given.reverse.find? fun g => g.1 = key).map (·.2)

/-- Reads a text setting; `none` if what is given does not fit. -/
def textOr (fallback : α) (read? : String → Option α) : Option Toml.Value → Option α
  | none => some fallback
  | some (.text s) => read? s
  | some .other => none

/-- The settings that values overrule, later ones earlier ones. Unknown keys mean nothing. -/
def ofValues? (given : List (String × Toml.Value)) : Option Settings := do
  let value? (key : String) : Option Toml.Value := last? key given
  some
    { bindAddress := ← textOr default.bindAddress SocketAddress.parse? (value? "bind_addr")
      storePath := ← textOr default.storePath (fun s => some (some s)) (value? "db_path")
      logFilter := ← textOr default.logFilter some (value? "log_filter")
      logFormat := ← textOr default.logFormat LogFormat.named? (value? "log_format") }

/-- The settings of a file, if there is one, and of the environment in the order of its names. -/
def load? (file : Option String) (environment : List (String × String)) : Option Settings := do
  let fromFile ← match file with
    | none => some []
    | some text => Toml.read? text
  ofValues? (fromFile ++ environment.filterMap fun v => Variable.setting? v.1 v.2)

end Settings

end Gamemaster
