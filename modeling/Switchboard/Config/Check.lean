import Switchboard.Config.Error
import Switchboard.Config.Read
import Switchboard.Text.Blank

/-!
Overriding settings from the environment, and checking those that are not about a single provider.
-/

namespace Switchboard

/-- The environment: variables by name. -/
abbrev Environment := String → Option String

namespace Config

/-- Read digits up to the first trouble. -/
def readDigits (limit : Nat) : Nat → List Char → Except String Nat
  | n, [] => .ok n
  | n, c :: cs =>
    if '0' ≤ c && c ≤ '9' then
      let n := n * 10 + (c.toNat - 48)
      if n ≤ limit then readDigits limit n cs
      else .error "number too large to fit in target type"
    else .error "invalid digit found in string"

/-- A whole number up to `limit` in a trimmed text; a plus sign may precede it. -/
def settingValue (field : String) (limit : Nat) (raw : String) : Except ConfigError Nat :=
  let value : Except String Nat :=
    match (Text.trim raw).toList with
    | [] => .error "cannot parse integer from empty string"
    | ['+'] => .error "invalid digit found in string"
    | '+' :: cs => readDigits limit 0 cs
    | cs => readDigits limit 0 cs
  value.mapError (.invalidSetting field)

/-- Replace a setting when its variable is set. -/
def override (env : Environment) (name field : String) (limit : Nat)
    (set : Config → Nat → Config) (c : Config) : Config × Option ConfigError :=
  match env name with
  | none => (c, none)
  | some raw =>
    match settingValue field limit raw with
    | .ok n => (set c n, none)
    | .error e => (c, some e)

/-- Apply the overrides in turn up to the first that is wrong; the configuration keeps those
before it. -/
def applyOverrides (env : Environment) (c : Config) : Config × Option ConfigError :=
  let c := match env "ORCH_BIND" with
    | some bind => { c with bind }
    | none => c
  match override env "ORCH_CONSENSUS_K" "consensus.k" 18446744073709551615
      (fun c k => { c with consensus := { c.consensus with k } }) c with
  | (c, some e) => (c, some e)
  | (c, none) =>
    match override env "ORCH_FAILURE_THRESHOLD" "breaker.failure_threshold" 4294967295
        (fun c n => { c with breaker := { c.breaker with failureThreshold := n } }) c with
    | (c, some e) => (c, some e)
    | (c, none) =>
      override env "ORCH_COOLDOWN_SECS" "breaker.cooldown_secs" 18446744073709551615
        (fun c n => { c with breaker := { c.breaker with cooldownSecs := n } }) c

/-- The first thing wrong with the settings. Providers are checked when they are registered. -/
def check (c : Config) : Except ConfigError Unit :=
  if c.providers.isEmpty then .error .noProviders
  else if c.breaker.failureThreshold = 0 then
    .error (.invalidSetting "breaker.failure_threshold" "must be at least 1")
  else if c.consensus.k = 0 then .error (.invalidSetting "consensus.k" "must be at least 1")
  else if c.retry.multiplier < 1.0 then
    .error (.invalidSetting "retry.backoff_multiplier" "must be >= 1.0")
  else if c.limits.maxMessageChars = 0 then
    .error (.invalidSetting "limits.max_message_chars" "must be at least 1")
  else .ok ()

/-- The configuration in a file, overridden and checked. `content` is what the file holds, `none`
when there is no such file. -/
def load (path : String) (content : Option ByteArray) (env : Environment) :
    Except LoadError Config :=
  match content.bind String.fromUTF8? with
  | none => .error (.unreadable path)
  | some text =>
    match Config.parse? text with
    | none => .error (.unparsable path)
    | some c =>
      match c.applyOverrides env with
      | (_, some e) => .error (.invalid e)
      | (c, none) =>
        match c.check with
        | .error e => .error (.invalid e)
        | .ok () => .ok c

end Config

end Switchboard
