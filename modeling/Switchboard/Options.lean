/-!
The command line.
-/

namespace Switchboard

structure Options where
  /-- The file with the configuration. -/
  config : Option String := none
  /-- The address to listen on, in place of the configured one. -/
  bind : Option String := none
  deriving DecidableEq, Repr

namespace Options

/-- Where the configuration is when nothing else is said. -/
def defaultConfig : String := "config/orchestrator.toml"

/-- The value in an argument of the form `name=value`. -/
def valueOf? (name arg : String) : Option String :=
  let front := (name ++ "=").toList
  if front.isPrefixOf arg.toList then some (String.ofList (arg.toList.drop front.length)) else none

/-- Read the arguments; the error is the argument that cannot be read. -/
def parse : List String → Options → Except String Options
  | [], o => .ok o
  | "--config" :: v :: rest, o => parse rest { o with config := some v }
  | "--bind" :: v :: rest, o => parse rest { o with bind := some v }
  | arg :: rest, o =>
    match valueOf? "--config" arg, valueOf? "--bind" arg with
    | some v, _ => parse rest { o with config := some v }
    | none, some v => parse rest { o with bind := some v }
    | none, none => .error arg

end Options

end Switchboard
