import Switchboard.Retry

/-!
The configuration of a switchboard: which providers there are, in which order they are asked, and
the limits within which they are.
-/

namespace Switchboard

/-- The protocol that a provider speaks. -/
inductive ProviderKind
  | openaiCompatible
  | anthropic
  /-- A server on local hardware. -/
  | ollama
  deriving DecidableEq, Repr

namespace ProviderKind

def all : List ProviderKind := [openaiCompatible, anthropic, ollama]

def name : ProviderKind → String
  | openaiCompatible => "openai_compatible"
  | anthropic => "anthropic"
  | ollama => "ollama"

def parse? (s : String) : Option ProviderKind :=
  all.find? fun k => k.name == s

/-- Where the provider is reached when the configuration does not say. -/
def defaultUrl : ProviderKind → String
  | openaiCompatible => "https://api.openai.com/v1"
  | anthropic => "https://api.anthropic.com"
  | ollama => "http://localhost:11434"

def isLocal : ProviderKind → Bool
  | ollama => true
  | openaiCompatible | anthropic => false

end ProviderKind

/-- What a call costs, for the eyes of the operator. -/
inductive CostClass
  | low
  | medium
  | high
  deriving DecidableEq, Repr

namespace CostClass

def all : List CostClass := [low, medium, high]

def name : CostClass → String
  | low => "low"
  | medium => "medium"
  | high => "high"

def parse? (s : String) : Option CostClass :=
  all.find? fun c => c.name == s

end CostClass

/-- One configured provider. -/
structure ProviderEntry where
  id : String
  kind : ProviderKind
  baseUrl : Option String := none
  model : String
  /-- The environment variable that holds the key. -/
  credential : Option String := none
  capabilities : List String := []
  trust : Float := 1.0
  cost : CostClass := .medium
  maxConcurrent : Option Nat := none
  timeoutSecs : Option Nat := none
  maxTokens : Option Nat := none
  failureThreshold : Option Nat := none
  cooldownSecs : Option Nat := none

/-- In which order providers are asked. -/
structure Routing where
  /-- The order for all categories without one of their own; empty for the order of the
  providers. -/
  defaultOrder : List String := []
  categories : List (String × List String) := []

structure BreakerDefaults where
  failureThreshold : Nat := 3
  cooldownSecs : Nat := 60
  windowSecs : Nat := 300

/-- Retries as configured. The multiplier is kept by its bits, so that it can be shown as it was
written. -/
structure RetrySettings where
  maxRetries : Nat := 2
  initialBackoff : Nat := 250
  multiplierBits : UInt64 := 0x4000000000000000
  maxBackoff : Nat := 2000

def RetrySettings.multiplier (r : RetrySettings) : Float :=
  Float.ofBits r.multiplierBits

def RetrySettings.policy (r : RetrySettings) : RetryPolicy :=
  ⟨r.maxRetries, r.initialBackoff, r.multiplier, r.maxBackoff⟩

structure ConsensusSettings where
  /-- How many providers are asked at once. -/
  k : Nat := 3
  /-- Milliseconds on top of the longest timeout of those asked. -/
  graceMs : Nat := 2000
  /-- A fixed deadline instead. -/
  timeoutMs : Option Nat := none

/-- How long a round may take, given the longest timeout of those asked, in milliseconds. -/
def ConsensusSettings.roundTime (c : ConsensusSettings) (slowest : Nat) : Nat :=
  c.timeoutMs.getD (slowest + c.graceMs)

structure SessionSettings where
  idleTimeoutSecs : Nat := 1800
  /-- Turns that are repeated to the provider. -/
  historyTurns : Nat := 10
  maxStoredTurns : Nat := 100

namespace SessionSettings

/-- Milliseconds after which an unused session starts over. -/
def idleTimeout (s : SessionSettings) : Nat :=
  s.idleTimeoutSecs * 1000

/-- Turns that are kept; never fewer than are repeated. -/
def turnsKept (s : SessionSettings) : Nat :=
  max (max s.maxStoredTurns s.historyTurns) 1

end SessionSettings

structure Limits where
  maxMessageChars : Nat := 8000

structure Config where
  /-- The address to listen on. -/
  bind : String := "127.0.0.1:8088"
  providers : List ProviderEntry := []
  routing : Routing := {}
  breaker : BreakerDefaults := {}
  retry : RetrySettings := {}
  consensus : ConsensusSettings := {}
  sessions : SessionSettings := {}
  limits : Limits := {}

end Switchboard
