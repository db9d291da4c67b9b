import Switchboard.Category
import Switchboard.Config
import Switchboard.Config.Error
import Switchboard.Url.Parse

/-!
The registered providers and the order in which each category asks them. A registry is made once
from a configuration and never changes; a provider is known by its position in it.
-/

namespace Switchboard

structure Provider where
  id : String
  kind : ProviderKind
  /-- Without slashes at its end. -/
  baseUrl : String
  model : String
  credential : Option String
  /-- In order and without repetition. -/
  capabilities : List String
  trust : Float
  cost : CostClass
  maxConcurrent : Nat
  timeoutSecs : Nat
  maxTokens : Option Nat
  failureThreshold : Option Nat
  cooldownSecs : Option Nat

namespace Provider

/-- The time that a call may take, in milliseconds. -/
def timeout (p : Provider) : Nat := p.timeoutSecs * 1000

def hasCapability (p : Provider) (tag : String) : Bool :=
  p.capabilities.contains tag

/-- A list in order and without repetition. -/
def sortedSet (xs : List String) : List String :=
  (xs.mergeSort (fun a b => a ≤ b)).eraseDups

/-- Check an entry and fill in what it leaves open. `web` says which texts are URLs of the web. -/
def ofEntry (web : String → Bool) (e : ProviderEntry) : Except ConfigError Provider :=
  let id := Text.trim e.id
  let timeoutSecs := e.timeoutSecs.getD 15
  let baseUrl := e.baseUrl.getD e.kind.defaultUrl
  if id.isEmpty then .error .emptyProviderId
  else if !(0.0 ≤ e.trust && e.trust ≤ 1.0) then .error (.trustOutOfRange id e.trust)
  else if timeoutSecs = 0 then .error (.zeroTimeout id)
  else if !web baseUrl then .error (.invalidEndpoint id baseUrl)
  else .ok {
    id
    kind := e.kind
    baseUrl := Text.stripEnd '/' baseUrl
    model := e.model
    credential := e.credential
    capabilities := sortedSet e.capabilities
    trust := e.trust
    cost := e.cost
    maxConcurrent := max (e.maxConcurrent.getD 50) 1
    timeoutSecs
    maxTokens := e.maxTokens
    failureThreshold := e.failureThreshold
    cooldownSecs := e.cooldownSecs }

end Provider

/-- Where the id of each provider stands. -/
def Provider.indexOf (providers : List Provider) : List (String × Nat) :=
  providers.zipIdx.map fun e => (e.1.id, e.2)

structure Registry where
  /-- In the order of the configuration. -/
  providers : List Provider
  /-- The position of each id. -/
  index : List (String × Nat) := Provider.indexOf providers
  /-- Positions, for all categories without a list of their own. -/
  defaultOrder : List Nat
  categories : List (Category × List Nat)
  indexed : index = Provider.indexOf providers := by rfl

namespace Registry

def empty : Registry := { providers := [], defaultOrder := [], categories := [] }

def position? (r : Registry) (id : String) : Option Nat :=
  r.index.lookup id

def get? (r : Registry) (id : String) : Option Provider :=
  (r.position? id).bind fun i => r.providers[i]?

def contains (r : Registry) (id : String) : Bool :=
  (r.position? id).isSome

def add (p : Provider) (r : Registry) : Registry :=
  { r with
    providers := r.providers ++ [p]
    index := r.index ++ [(p.id, r.providers.length)]
    indexed := by rw [r.indexed]; simp [Provider.indexOf, List.zipIdx_append] }

/-- Check the entries one after the other. -/
def register (web : String → Bool) : Registry → List ProviderEntry → Except ConfigError Registry
  | r, [] => .ok r
  | r, e :: es =>
    match Provider.ofEntry web e with
    | .error err => .error err
    | .ok p =>
      if r.contains p.id then .error (.duplicateProvider p.id)
      else register web (r.add p) es

/-- The positions of the providers that a list names, each at its first occurrence. -/
def resolve (r : Registry) (list : String) (ids : List String) :
    Except ConfigError (List Nat) := do
  let positions ← ids.mapM fun id =>
    match r.position? (Text.trim id) with
    | some i => .ok i
    | none => .error (.unknownRoutedProvider list id)
  pure positions.eraseDups

/-- The lists of the categories, in the order of their names; of two lists for one category the
later one counts, and an empty one counts as none. -/
def resolveCategories (r : Registry) :
    List (String × List String) → Except ConfigError (List (Category × List Nat))
  | [] => .ok []
  | (name, ids) :: rest =>
    match Category.parse? name with
    | none => .error (.unknownCategory name)
    | some c => do
      let order ← r.resolve name ids
      let later ← r.resolveCategories rest
      pure (if order.isEmpty || later.any (·.1 == c) then later else (c, order) :: later)

/-- The registry of a configuration, or the first thing wrong with it. -/
def build (web : String → Bool) (c : Config) : Except ConfigError Registry :=
  if c.providers.isEmpty then .error .noProviders
  else do
    let r ← register web empty c.providers
    let defaultOrder ←
      if c.routing.defaultOrder.isEmpty then pure (List.range r.providers.length)
      else r.resolve "default_order" c.routing.defaultOrder
    let sorted := c.routing.categories.mergeSort fun a b => a.1 ≤ b.1
    let categories ← r.resolveCategories sorted
    pure { r with defaultOrder, categories }

def ofConfig (c : Config) : Except ConfigError Registry :=
  build Url.isWeb c

def ids (r : Registry) : List String :=
  r.providers.map (·.id)

/-- The positions of the providers of a category, in the order in which they are asked. -/
def order (r : Registry) (c : Category) : List Nat :=
  (r.categories.lookup c).getD r.defaultOrder

def byCategory (r : Registry) (c : Category) : List Provider :=
  (r.order c).filterMap fun i => r.providers[i]?

end Registry

end Switchboard
