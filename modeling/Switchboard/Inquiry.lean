import Switchboard.Category.Keyword
import Switchboard.Config
import Switchboard.Text.Blank

/-!
What a caller asks.
-/

namespace Switchboard

structure Inquiry where
  message : String
  /-- The name of a category, to be taken without a look at the message. -/
  hint : Option String := none
  session : Option String := none
  /-- The provider to ask first. -/
  preferred : Option String := none
  /-- Ask several providers and take the best answer. -/
  consensus : Bool := false
  deriving DecidableEq, Repr

namespace Inquiry

/-- The session, without blanks around its id; a blank id is none. -/
def sessionId (q : Inquiry) : Option String :=
  (q.session.map Text.trim).filter fun id => !id.isEmpty

/-- Why an inquiry is refused, if it is. -/
def objection (limits : Limits) (q : Inquiry) : Option String :=
  if Text.allBlank q.message then some "message must not be empty"
  else if limits.maxMessageChars < q.message.length then
    some s!"message exceeds {limits.maxMessageChars} characters"
  else none

def classification (q : Inquiry) : Classification :=
  Category.classify q.message q.hint

def category (q : Inquiry) : Category :=
  q.classification.category

end Inquiry

end Switchboard
