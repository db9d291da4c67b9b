import Switchboard.Text.Blank
import Switchboard.Text.Letter

/-!
What a message is about. Providers are listed and prompts chosen by category.
-/

namespace Switchboard

inductive Category
  | general
  /-- Prices, quotes, plans and licences. -/
  | sales
  /-- Trouble with the product. -/
  | technical
  /-- Code, queries and integrations. -/
  | code
  /-- Maintenance schedules, forecasts and expected failures. -/
  | maintenance
  deriving DecidableEq, Repr

namespace Category

def all : List Category := [general, sales, technical, code, maintenance]

def name : Category → String
  | general => "general"
  | sales => "sales"
  | technical => "technical"
  | code => "code"
  | maintenance => "maintenance-prediction"

/-- The form in which names are compared: trimmed, in small letters, with hyphens for blanks and
underscores. -/
def normalize (s : String) : String :=
  String.ofList ((Text.trim s).toList.map fun c =>
    let c := Text.lower c
    if c == '_' || c == ' ' then '-' else c)

def parse? (s : String) : Option Category :=
  all.find? fun c => c.name == normalize s

end Category

end Switchboard
