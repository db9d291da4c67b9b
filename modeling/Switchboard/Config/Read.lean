import Switchboard.Config
import Switchboard.Toml.Document
import Switchboard.Toml.Read

/-!
A configuration out of a TOML document.
-/

namespace Switchboard

open Toml

/-- Numbers of a configuration have 32 or 64 bits. -/
private def small (v : Value) : Option Nat := v.natural? 4294967295

private def large (v : Value) : Option Nat := v.natural? 18446744073709551615

def ProviderEntry.ofToml (v : Value) : Option ProviderEntry := do
  let f ← v.fields?
  pure {
    id := ← f.required 0 "id" Value.string?
    kind := ← f.required 1 "kind" fun v => v.name?.bind ProviderKind.parse?
    baseUrl := ← f.get? 2 "base_url" Value.string?
    model := ← f.required 3 "model" Value.string?
    credential := ← f.get? 4 "credential_env" Value.string?
    capabilities := ← f.getD 5 "capabilities" (Value.list? Value.string?) []
    trust := Float.ofBits (← f.getD 6 "trust_weight" Value.floatBits? (1.0 : Float).toBits)
    cost := ← f.getD 7 "cost_class" (fun v => v.name?.bind CostClass.parse?) .medium
    maxConcurrent := ← f.get? 8 "max_concurrent" large
    timeoutSecs := ← f.get? 9 "timeout_secs" large
    maxTokens := ← f.get? 10 "max_tokens" small
    failureThreshold := ← f.get? 11 "failure_threshold" small
    cooldownSecs := ← f.get? 12 "cooldown_secs" large }

def Routing.ofToml (v : Value) : Option Routing := do
  let f ← v.fields?
  pure {
    defaultOrder := ← f.getD 0 "default_order" (Value.list? Value.string?) []
    categories := ← f.getD 1 "categories" (Value.entries? (Value.list? Value.string?)) [] }

def BreakerDefaults.ofToml (v : Value) : Option BreakerDefaults := do
  let f ← v.fields?
  let d : BreakerDefaults := {}
  pure {
    failureThreshold := ← f.getD 0 "failure_threshold" small d.failureThreshold
    cooldownSecs := ← f.getD 1 "cooldown_secs" large d.cooldownSecs
    windowSecs := ← f.getD 2 "window_secs" large d.windowSecs }

def RetrySettings.ofToml (v : Value) : Option RetrySettings := do
  let f ← v.fields?
  let d : RetrySettings := {}
  pure {
    maxRetries := ← f.getD 0 "max_retries" small d.maxRetries
    initialBackoff := ← f.getD 1 "initial_backoff_ms" large d.initialBackoff
    multiplierBits := ← f.getD 2 "backoff_multiplier" Value.floatBits? d.multiplierBits
    maxBackoff := ← f.getD 3 "max_backoff_ms" large d.maxBackoff }

def ConsensusSettings.ofToml (v : Value) : Option ConsensusSettings := do
  let f ← v.fields?
  let d : ConsensusSettings := {}
  pure {
    k := ← f.getD 0 "k" large d.k
    graceMs := ← f.getD 1 "grace_ms" large d.graceMs
    timeoutMs := ← f.get? 2 "timeout_ms" large }

def SessionSettings.ofToml (v : Value) : Option SessionSettings := do
  let f ← v.fields?
  let d : SessionSettings := {}
  pure {
    idleTimeoutSecs := ← f.getD 0 "idle_timeout_secs" large d.idleTimeoutSecs
    historyTurns := ← f.getD 1 "history_turns" large d.historyTurns
    maxStoredTurns := ← f.getD 2 "max_stored_turns" large d.maxStoredTurns }

def Limits.ofToml (v : Value) : Option Limits := do
  let f ← v.fields?
  let d : Limits := {}
  pure { maxMessageChars := ← f.getD 0 "max_message_chars" large d.maxMessageChars }

def Config.ofToml (v : Value) : Option Config := do
  let f ← v.fields?
  let d : Config := {}
  pure {
    bind := ← f.getD 0 "bind" Value.string? d.bind
    providers := ← f.getD 1 "providers" (Value.list? ProviderEntry.ofToml) []
    routing := ← f.getD 2 "routing" Routing.ofToml {}
    breaker := ← f.getD 3 "breaker" BreakerDefaults.ofToml {}
    retry := ← f.getD 4 "retry" RetrySettings.ofToml {}
    consensus := ← f.getD 5 "consensus" ConsensusSettings.ofToml {}
    sessions := ← f.getD 6 "sessions" SessionSettings.ofToml {}
    limits := ← f.getD 7 "limits" Limits.ofToml {} }

/-- The configuration that a document writes, `none` when it writes none. -/
def Config.parse? (text : String) : Option Config :=
  (Toml.parse? text).bind Config.ofToml

end Switchboard
