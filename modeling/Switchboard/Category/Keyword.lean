import Switchboard.Category
import Switchboard.Text.Word

/-!
Finding the category of a message by the words in it. A hint that names a category comes first;
then the rules are tried in order, and the first rule with one of its words in the message wins.
A word counts where it stands between word boundaries, in any case of its letters.
-/

namespace Switchboard

/-- Why a category was chosen. -/
inductive Reason
  | hint
  /-- The word found, in small letters. -/
  | keyword (word : String)
  | default
  deriving DecidableEq, Repr

structure Classification where
  category : Category
  reason : Reason
  deriving DecidableEq, Repr

namespace Category

def rules : List (Category × List String) := [
  (sales,
    ["price", "prices", "pricing", "quote", "quotes", "cost", "costs", "cheaper", "how much",
      "subscription", "license", "licence", "discount", "trial", "demo", "billing", "invoice"]),
  (technical,
    ["error", "errors", "debug", "debugging", "troubleshoot", "troubleshooting", "bug", "bugs",
      "crash", "crashes", "crashed", "not working", "fail", "fails", "failed", "failing",
      "exception", "stack trace", "broken"]),
  (maintenance,
    ["schedule", "scheduling", "maintenance", "predict", "prediction", "predictive", "forecast",
      "preventive", "downtime", "failure rate", "mtbf", "mttr", "wear",
      "remaining useful life"]),
  (code,
    ["code", "function", "api", "script", "sql", "json", "regex", "compile", "snippet",
      "endpoint", "webhook"])]

/-- The beginning of a text that reads as the given word when case is ignored, and the rest. -/
def matchFolded : List Char → List Char → Option (List Char × List Char)
  | [], rest => some ([], rest)
  | w :: ws, c :: cs =>
    if Text.fold c = Text.fold w then
      (matchFolded ws cs).map fun (span, rest) => (c :: span, rest)
    else none
  | _ :: _, [] => none

/-- The word at the beginning of `cs`, when boundaries stand before and after it. `before` is the
character in front of `cs`. -/
def wordAt (before : Option Char) (cs word : List Char) : Option (List Char) :=
  match matchFolded word cs with
  | some (span, rest) =>
    if Text.isBoundary before cs.head? &&
        Text.isBoundary (span.getLast?.or before) rest.head? then
      some span
    else none
  | none => none

/-- The leftmost place where one of the words stands; at one place the words are tried in
order. -/
def findWord (words : List (List Char)) : Option Char → List Char → Option (List Char)
  | before, [] => words.findSome? (wordAt before [])
  | before, c :: cs =>
    match words.findSome? (wordAt before (c :: cs)) with
    | some span => some span
    | none => findWord words (some c) cs

/-- The span of the message that a rule's words find. -/
def findKeyword (words : List String) (message : String) : Option (List Char) :=
  findWord (words.map String.toList) none message.toList

def classify (message : String) (hint : Option String) : Classification :=
  match hint.bind parse? with
  | some c => ⟨c, .hint⟩
  | none =>
    match rules.findSome? fun (c, words) => (findKeyword words message).map (c, ·) with
    | some (c, span) => ⟨c, .keyword (String.ofList (span.map Text.lower))⟩
    | none => ⟨general, .default⟩

end Category

end Switchboard
