import Switchboard.Url.Address
import Switchboard.Url.DomainChar
import Switchboard.Url.Punycode

/-!
Hosts of a URL.
-/

namespace Switchboard.Url

private def hexByte (c : Char) : Option Nat :=
  if '0' ≤ c && c ≤ '9' then some (c.toNat - 48)
  else if 'a' ≤ c && c ≤ 'f' then some (c.toNat - 87)
  else if 'A' ≤ c && c ≤ 'F' then some (c.toNat - 55)
  else none

/-- The bytes of a text in which a percent sign and two digits stand for one byte. -/
def percentDecode : List Char → List UInt8
  | [] => []
  | '%' :: a :: b :: rest =>
    match hexByte a, hexByte b with
    | some h, some l => (h * 16 + l).toUInt8 :: percentDecode rest
    | _, _ => 37 :: percentDecode (a :: b :: rest)
  | c :: rest => (String.singleton c).toUTF8.toList ++ percentDecode rest

/-- A character that no domain name has. -/
def isForbidden (c : Char) : Bool :=
  c.toNat < 0x20 || c.toNat == 0x7F || " #%/:<>?@[\\]^|".toList.contains c

/-- A domain name in the form in which it is looked up, as far as it is ASCII; other characters
are kept. -/
def domainForm : List Char → Option (List Char)
  | [] => some []
  | c :: cs =>
    match domainChar c with
    | .barred => none
    | .ignored => domainForm cs
    | .ascii a => if isForbidden a then none else (domainForm cs).map (a :: ·)
    | .other => (domainForm cs).map (c :: ·)

/-- A label in ASCII form has to decode to a label that needs that form. -/
def isLabel : List Char → Bool
  | 'x' :: 'n' :: '-' :: '-' :: rest =>
    match Punycode.decode? rest with
    | some cs =>
      (cs.any fun c => 0x80 ≤ c.toNat) &&
        cs.all fun c => c.toNat < 0x80 || domainChar c = .other
    | none => false
  | _ => true

/-- The text between slashes and colons names a host. -/
def isHost (cs : List Char) : Bool :=
  match cs with
  | '[' :: rest => rest.getLast? = some ']' && isIpv6 rest.dropLast
  | _ =>
    match String.fromUTF8? ⟨(percentDecode cs).toArray⟩ with
    | none => false
    | some s =>
      match domainForm s.toList with
      | none | some [] => false
      | some domain =>
        (splitAtChar '.' domain).all isLabel && (!endsInNumber domain || isIpv4 domain)

end Switchboard.Url
