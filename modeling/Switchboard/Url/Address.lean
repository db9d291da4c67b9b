/-!
Numeric hosts: IPv4 addresses in the forms that URLs allow (one to four parts, each decimal, octal
or hexadecimal) and IPv6 addresses.
-/

namespace Switchboard.Url

private def digitIn (base : Nat) (c : Char) : Option Nat :=
  let n :=
    if '0' ≤ c && c ≤ '9' then c.toNat - 48
    else if 'a' ≤ c && c ≤ 'f' then c.toNat - 87
    else if 'A' ≤ c && c ≤ 'F' then c.toNat - 55
    else 16
  if n < base then some n else none

private def numberIn (base : Nat) (cs : List Char) : Option Nat :=
  cs.foldlM (fun n c => (digitIn base c).map (n * base + ·)) 0

/-- A part of an IPv4 address. -/
def ipv4Number (cs : List Char) : Option Nat :=
  match cs with
  | [] => none
  | '0' :: 'x' :: rest | '0' :: 'X' :: rest => numberIn 16 rest
  | ['0'] => some 0
  | '0' :: rest => numberIn 8 rest
  | cs => numberIn 10 cs

/-- Split at a character; there is one part more than there are separators. -/
def splitAtChar (sep : Char) : List Char → List (List Char)
  | [] => [[]]
  | c :: cs =>
    if c == sep then [] :: splitAtChar sep cs
    else
      match splitAtChar sep cs with
      | part :: parts => (c :: part) :: parts
      | [] => [[c]]

/-- The parts of a host between dots, without an empty one at the end. -/
private def hostParts (cs : List Char) : List (List Char) :=
  let parts := splitAtChar '.' cs
  if parts.getLast? = some [] then parts.dropLast else parts

/-- A host whose last part is a number has to be an IPv4 address. -/
def endsInNumber (cs : List Char) : Bool :=
  match (hostParts cs).getLast? with
  | none => false
  | some last =>
    (!last.isEmpty && last.all fun c => '0' ≤ c && c ≤ '9') || (ipv4Number last).isSome

/-- The last number of an IPv4 address fills all bytes that the others leave. -/
def isIpv4 (cs : List Char) : Bool :=
  let parts := hostParts cs
  match parts.mapM ipv4Number with
  | none => false
  | some numbers =>
    match numbers.getLast? with
    | none => false
    | some last =>
      parts.length ≤ 4 && numbers.dropLast.all (· ≤ 255) && last < Nat.pow 256 (5 - numbers.length)

/-- One byte of an IPv4 address inside an IPv6 address: no leading zeros. -/
private def isByte (cs : List Char) : Bool :=
  match numberIn 10 cs with
  | some n => n ≤ 255 && !cs.isEmpty && (cs.length = 1 || cs.head? != some '0')
  | none => false

private def isDottedQuad (cs : List Char) : Bool :=
  let parts := splitAtChar '.' cs
  parts.length = 4 && parts.all isByte

private def isPiece (cs : List Char) : Bool :=
  1 ≤ cs.length && cs.length ≤ 4 && cs.all fun c => (digitIn 16 c).isSome

/-- How many of the eight pieces a sequence between colons fills; an IPv4 address may stand at its
end for two of them. -/
private def pieceCount (ipv4AtEnd : Bool) (cs : List Char) : Option Nat :=
  if cs.isEmpty then some 0
  else
    let parts := splitAtChar ':' cs
    match parts.getLast? with
    | none => none
    | some last =>
      if parts.all isPiece then some parts.length
      else if ipv4AtEnd && parts.dropLast.all isPiece && isDottedQuad last then
        some (parts.length + 1)
      else none

/-- Split at the first pair of colons. -/
private def splitAtGap : List Char → List Char → Option (List Char × List Char)
  | acc, ':' :: ':' :: rest => some (acc.reverse, rest)
  | acc, c :: rest => splitAtGap (c :: acc) rest
  | _, [] => none

/-- An IPv6 address: eight pieces, or fewer with one pair of colons for at least one zero piece. -/
def isIpv6 (cs : List Char) : Bool :=
  match splitAtGap [] cs with
  | none => pieceCount true cs = some 8
  | some (left, right) =>
    match pieceCount false left, pieceCount true right with
    | some a, some b => a + b ≤ 7
    | _, _ => false

end Switchboard.Url
