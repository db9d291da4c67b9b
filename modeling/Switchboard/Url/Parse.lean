import Switchboard.Url.Host

/-!
Absolute URLs of the web. Only what a client needs is read: whether a text is such a URL, and the
path and query to ask for.
-/

namespace Switchboard.Url

private def isAlpha (c : Char) : Bool :=
  ('a' ≤ c && c ≤ 'z') || ('A' ≤ c && c ≤ 'Z')

private def isSchemeChar (c : Char) : Bool :=
  isAlpha c || ('0' ≤ c && c ≤ '9') || c == '+' || c == '-' || c == '.'

/-- Control characters and blanks at the two ends are passed over, tabs and line ends anywhere. -/
def clean (cs : List Char) : List Char :=
  let edge (c : Char) : Bool := c.toNat ≤ 0x20
  let cs := ((cs.dropWhile edge).reverse.dropWhile edge).reverse
  cs.filter fun c => c != '\t' && c != '\n' && c != '\r'

/-- The scheme in small letters, and the text after its colon. -/
def scheme? (cs : List Char) : Option (String × List Char) :=
  match cs.head?, cs.dropWhile isSchemeChar with
  | some first, ':' :: rest =>
    if isAlpha first then
      let name := cs.takeWhile isSchemeChar
      some (String.ofList (name.map fun c =>
        if 'A' ≤ c && c ≤ 'Z' then Char.ofNat (c.toNat + 32) else c), rest)
    else none
  | _, _ => none

private def endsAuthority (c : Char) : Bool :=
  c == '/' || c == '\\' || c == '?' || c == '#'

/-- Leave out a user name and a password, which the last at sign ends. -/
def dropUser (authority : List Char) : List Char :=
  (authority.reverse.takeWhile (· != '@')).reverse

/-- The host in front of the first colon outside brackets, and what follows it. -/
def splitHost : Bool → List Char → List Char × List Char
  | _, [] => ([], [])
  | inside, c :: cs =>
    if c == ':' && !inside then ([], c :: cs)
    else
      let inside := if c == '[' then true else if c == ']' then false else inside
      let (host, rest) := splitHost inside cs
      (c :: host, rest)

/-- A port is a number of 16 bits, or nothing at all. -/
def isPort (cs : List Char) : Bool :=
  (cs.all fun c => '0' ≤ c && c ≤ '9') &&
    cs.foldl (fun n c => n * 10 + (c.toNat - 48)) 0 ≤ 65535

def isAuthority (authority : List Char) : Bool :=
  let (host, port) := splitHost false (dropUser authority)
  isHost host && (port.isEmpty || isPort port.tail)

/-- An absolute URL with the scheme `http` or `https`. Any number of slashes may stand between
scheme and host. -/
def isWeb (s : String) : Bool :=
  match scheme? (clean s.toList) with
  | some (scheme, rest) =>
    (scheme == "http" || scheme == "https") &&
      let rest := rest.dropWhile fun c => c == '/' || c == '\\'
      isAuthority (rest.takeWhile fun c => !endsAuthority c)
  | none => false

end Switchboard.Url
