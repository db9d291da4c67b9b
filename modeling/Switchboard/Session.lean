import Switchboard.Category
import Switchboard.Chat.Body
import Switchboard.Config

/-!
Conversations. A session holds the turns of one conversation and the provider that was asked for.
A session that has not been used for the idle timeout starts over. Forgotten ones are swept out
now and then, when the store is used anyway.
-/

namespace Switchboard

/-- One turn as it is stored. -/
structure StoredTurn where
  turn : Chat.Turn
  category : Category
  /-- Who answered. -/
  provider : String
  deriving DecidableEq, Repr

structure Session where
  /-- Oldest first. -/
  turns : List StoredTurn := []
  /-- The provider to ask first. -/
  preferred : Option String := none
  /-- The last use, in milliseconds. -/
  lastUse : Nat
  deriving DecidableEq, Repr

/-- What a session contributes to a request. -/
structure Recall where
  preferred : Option String := none
  history : List Chat.Turn := []
  deriving DecidableEq, Repr

structure Sessions where
  settings : SessionSettings
  /-- Ids are distinct. -/
  sessions : List (String × Session) := []
  lastSweep : Nat := 0

namespace Sessions

def isIdle (timeout now : Nat) (s : Session) : Bool :=
  timeout ≤ now - s.lastUse

/-- Sweeps are at least this far apart. -/
def sweepInterval (settings : SessionSettings) : Nat :=
  settings.idleTimeout / 4

/-- Drop the idle sessions if the last sweep is long enough ago. -/
def sweep (st : Sessions) (now : Nat) : Sessions :=
  if sweepInterval st.settings ≤ now - st.lastSweep then
    { st with
      lastSweep := now
      sessions := st.sessions.filter fun e => !isIdle st.settings.idleTimeout now e.2 }
  else st

def get? (st : Sessions) (id : String) : Option Session :=
  st.sessions.lookup id

/-- Put a session under an id, in the place of the one that may be there. -/
def set (st : Sessions) (id : String) (s : Session) : Sessions :=
  { st with
    sessions :=
      if st.sessions.any (·.1 == id) then
        st.sessions.map fun e => if e.1 == id then (id, s) else e
      else st.sessions ++ [(id, s)] }

/-- The session as it is to be used now: a new one if there is none or it has been idle. -/
def current (st : Sessions) (now : Nat) (id : String) : Session :=
  match st.get? id with
  | some s =>
    if isIdle st.settings.idleTimeout now s then { lastUse := now } else { s with lastUse := now }
  | none => { lastUse := now }

/-- Use a session: sweep, bring it up to date and change it. -/
def use (st : Sessions) (now : Nat) (id : String) (f : Session → Session) : Sessions :=
  let st := st.sweep now
  st.set id (f (st.current now id))

/-- The last `n` items of a list. -/
def takeLast {α : Type} (n : Nat) (xs : List α) : List α :=
  xs.drop (xs.length - n)

/-- Ask for a provider, if one is given. -/
def prefer (given : Option String) (s : Session) : Session :=
  { s with preferred := given.or s.preferred }

/-- Begin a request. A provider that is given is remembered. -/
def beginTurn (st : Sessions) (now : Nat) (id : String) (given : Option String) :
    Recall × Sessions :=
  let s := prefer given ((st.sweep now).current now id)
  (⟨s.preferred, (takeLast st.settings.historyTurns s.turns).map (·.turn)⟩,
    st.use now id (prefer given))

/-- Add a turn; the oldest ones go when there are too many. -/
def remember (st : Sessions) (now : Nat) (id : String) (t : StoredTurn) : Sessions :=
  st.use now id fun s => { s with turns := takeLast st.settings.turnsKept (s.turns ++ [t]) }

/-- Forget the provider that was asked for. -/
def forgetPreferred (st : Sessions) (now : Nat) (id : String) : Sessions :=
  st.use now id fun s => { s with preferred := none }

/-- Turns stored under an id; this does not count as a use. -/
def turnCount (st : Sessions) (id : String) : Nat :=
  ((st.get? id).map (·.turns.length)).getD 0

def size (st : Sessions) : Nat :=
  st.sessions.length

end Sessions

end Switchboard
