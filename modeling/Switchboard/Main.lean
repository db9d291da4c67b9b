import Switchboard.Options
import Switchboard.Rehearsal.Serve

/-!
The program: it loads and checks the configuration, and then answers requests, one JSON body a line,
as `POST /orchestrate` does. It has no network of its own, so that providers cannot be reached.
-/

namespace Switchboard.Program

/-- The values of some variables of the environment. -/
def environment (names : List String) : IO Environment := do
  let values ← names.mapM fun name => do
    let value ← IO.getEnv name
    pure (value.map fun v => (name, v))
  let table := values.filterMap id
  pure fun name => table.lookup name

/-- The variables that override settings. -/
def overrides : List String :=
  ["ORCH_BIND", "ORCH_CONSENSUS_K", "ORCH_FAILURE_THRESHOLD", "ORCH_COOLDOWN_SECS"]

/-- What a file holds, if it can be read. -/
def content? (path : String) : IO (Option ByteArray) := do
  try
    pure (some (← IO.FS.readBinFile path))
  catch _ => pure none

/-- The request with a body. -/
def post (body : String) : Http.Request :=
  { method := "POST"
    target := "/orchestrate"
    headers := [("content-type", "application/json")]
    body := body.toUTF8.toList }

partial def serve (input : IO.FS.Stream) (r : Rehearsal) : IO Unit := do
  let line ← input.getLine
  if line.isEmpty then pure ()
  else
    let (reply, r) := r.serve (post line)
    IO.println ((reply.body.map (·.render)).getD "")
    serve input r

def fail (code : UInt32) (why : String) : IO UInt32 := do
  IO.eprintln ("Error: " ++ why)
  pure code

def run (o : Options) : IO UInt32 := do
  let path := o.config.getD ((← IO.getEnv "ORCH_CONFIG").getD Options.defaultConfig)
  match Config.load path (← content? path) (← environment overrides) with
  | .error e => fail 1 e.message
  | .ok c =>
    let c := { c with bind := o.bind.getD c.bind }
    match Desk.build c fun _ => true with
    | .error e => fail 1 ("Failed to build orchestrator: " ++ e.message)
    | .ok desk =>
      let names := desk.registry.providers.filterMap (·.credential)
      let backends := Rehearsal.offline (← environment names) desk.registry
      IO.eprintln s!"{desk.registry.providers.length} providers, configured for {c.bind}"
      serve (← IO.getStdin) { desk, backends }
      pure 0

end Switchboard.Program

def main (args : List String) : IO UInt32 :=
  match Switchboard.Options.parse args {} with
  | .error arg => Switchboard.Program.fail 2 ("unexpected argument '" ++ arg ++ "'")
  | .ok o => Switchboard.Program.run o
