import Switchboard.Chat.Exchange
import Switchboard.Http.Server
import Switchboard.Rehearsal

/-!
HTTP requests in a rehearsal, and providers that cannot be reached.
-/

namespace Switchboard.Rehearsal

/-- The providers of a registry without a network: a message may be made ready, but it never gets
through. What is wrong with a provider's key shows all the same. -/
def offline (env : Environment) (r : Registry) : List (String × Backend) :=
  let nothing : Chat.Request := ⟨"", [], ""⟩
  r.providers.map fun p =>
    (p.id, { script := [Chat.call env p (fun _ => .unreachable "no network") nothing]
             recorded := false })

/-- One request, played until it has its reply. -/
def serve (q : Http.Request) (r : Rehearsal) : Http.Reply × Rehearsal :=
  match q.demand with
  | .reply reply => (reply, r)
  | .view resource headOnly =>
    let (reply, desk) := Http.view r.now r.desk resource
    (if headOnly then reply.withoutBody else reply, { r with desk })
  | .inquire inquiry =>
    let (endings, _, r) := r.scene [{ event := fun ticket => .ask ticket inquiry }] []
    match endings.head?.bind (·.outcome) with
    | some outcome => (.ofOutcome outcome, r)
    | none => (.empty 500, r)

end Switchboard.Rehearsal
