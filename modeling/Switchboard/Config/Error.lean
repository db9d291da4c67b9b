import Switchboard.Decimal.Shortest

/-!
What can be wrong with a configuration.
-/

namespace Switchboard

inductive ConfigError
  | noProviders
  | emptyProviderId
  | duplicateProvider (id : String)
  | trustOutOfRange (id : String) (trust : Float)
  | invalidEndpoint (id endpoint : String)
  | zeroTimeout (id : String)
  | unknownRoutedProvider (list provider : String)
  | unknownCategory (name : String)
  | invalidSetting (field reason : String)
  | missingBackend (id : String)

def ConfigError.message : ConfigError → String
  | noProviders => "no providers configured"
  | emptyProviderId => "provider id must not be empty"
  | duplicateProvider id => "duplicate provider id '" ++ id ++ "'"
  | trustOutOfRange id trust =>
    "provider '" ++ id ++ "': trust weight " ++ Decimal.floatText trust ++ " outside [0, 1]"
  | invalidEndpoint id endpoint =>
    "provider '" ++ id ++ "': invalid endpoint '" ++ endpoint ++ "'"
  | zeroTimeout id => "provider '" ++ id ++ "': timeout must be greater than zero"
  | unknownRoutedProvider list provider =>
    "routing list '" ++ list ++ "' names unknown provider '" ++ provider ++ "'"
  | unknownCategory name => "unknown task category '" ++ name ++ "'"
  | invalidSetting field reason => "invalid setting " ++ field ++ ": " ++ reason
  | missingBackend id => "no backend supplied for provider '" ++ id ++ "'"

/-- A program that reads its configuration from a file can also fail to get at it. -/
inductive LoadError
  | unreadable (path : String)
  | unparsable (path : String)
  | invalid (e : ConfigError)

def LoadError.message : LoadError → String
  | unreadable path => "Failed to read config file " ++ path
  | unparsable path => "Failed to parse config file " ++ path
  | invalid e => e.message

end Switchboard
