import DebugTree.FileUrl.Host.Table
import DebugTree.Text.Hexadecimal
import DebugTree.Text.Splitting
import DebugTree.Text.Utf8

/-!
# Hosts of file URLs

A file URL may name a host.  An absent host and `localhost`, however it is spelled, mean this
machine.  Any other host makes the URL a remote one, and a text that is no host at all makes it no
URL.
-/

namespace DebugTree
namespace FileUrl

/-- What stands where a URL has its host. -/
inductive Host where
  /-- This machine. -/
  | here
  /-- Some other machine. -/
  | remote
  /-- Not the name of a machine. -/
  | malformed
  deriving DecidableEq

/-! ## Percent signs -/

/-- The octets of a text in which a percent sign and two hexadecimal digits are one octet.  A
percent sign without two digits stands for itself. -/
def percentDecode : List Char → List UInt8
  | [] => []
  | '%' :: a :: b :: rest =>
    match Text.hexValue? a, Text.hexValue? b with
    | some hi, some lo => UInt8.ofNat (hi * 16 + lo) :: percentDecode rest
    | _, _ => String.utf8EncodeChar '%' ++ percentDecode (a :: b :: rest)
  | c :: rest => String.utf8EncodeChar c ++ percentDecode rest

namespace Host

/-! ## Names -/

/-- Characters that no host name has. -/
def forbidden (c : Char) : Bool :=
  c.toNat ≤ 0x20 || c.toNat = 0x7F || c.toNat = 0xFFFD || "%#/:<>?@[\\]^|".toList.contains c

/-- The plain form of one character of a host name. -/
def plain (c : Char) : List Char :=
  if c.toNat < 128 then [c.toLower]
  else if Text.inRanges ignoredRanges c then []
  else if c = '\uFB05' || c = '\uFB06' then ['s', 't']
  else [Text.moveBy plainRuns c]

/-- A label that claims to be the ASCII form of another label, and claims it of nothing. -/
def hollow (label : List Char) : Bool :=
  match Text.stripPrefix? "xn--".toList label with
  | some [] => true
  | _ => false

/-! ## Addresses -/

/-- A number as it may stand in an address: decimal, octal after `0`, hexadecimal after `0x`. -/
def number? (cs : List Char) : Option Nat :=
  let read (radix : Nat) (ds : List Char) : Option Nat :=
    ds.foldlM (fun n c => (Text.hexValue? c).bind fun d =>
      if d < radix then some (n * radix + d) else none) 0
  match cs with
  | [] => none
  | '0' :: 'x' :: ds => read 16 ds
  | '0' :: ds => read 8 ds
  | ds => read 10 ds

/-- The labels of a name, the empty one after a final dot left out. -/
def labels (name : List Char) : List (List Char) :=
  let parts := Text.splitOn '.' name
  if parts.length > 1 && parts.getLast? = some [] then parts.dropLast else parts

/-- The name has to be an address, because its last label is a number. -/
def endsInNumber (name : List Char) : Bool :=
  match (labels name).getLast? with
  | some last => (!last.isEmpty && last.all Char.isDigit) || (number? last).isSome
  | none => false

/-- The name is an address of four octets, the last ones of which may be written as one number. -/
def isAddress4 (name : List Char) : Bool :=
  let parts := labels name
  match parts.mapM number? with
  | some ns =>
    parts.length ≤ 4 && ns.dropLast.all (· ≤ 255) &&
      ns.getLastD 0 < Nat.pow 256 (4 - (ns.length - 1))
  | none => false

/-- A group of an address of eight groups. -/
def isGroup (cs : List Char) : Bool :=
  1 ≤ cs.length && cs.length ≤ 4 && cs.all fun c => (Text.hexValue? c).isSome

/-- Four decimal octets between dots. -/
def isDottedOctets (cs : List Char) : Bool :=
  let parts := Text.splitOn '.' cs
  parts.length == 4 && parts.all fun p =>
    !p.isEmpty && p.all Char.isDigit && (p.length == 1 || p.head? != some '0') &&
      p.length ≤ 3 && (number? p).any (· ≤ 255)

/-- How many groups a part of an address has, if it is one; the last two may be dotted octets. -/
def groupCount? (cs : List Char) (last : Bool) : Option Nat :=
  if cs.isEmpty then some 0
  else
    let parts := Text.splitOn ':' cs
    if parts.all isGroup then some parts.length
    else if last && parts.dropLast.all isGroup && isDottedOctets (parts.getLastD []) then
      some (parts.length + 1)
    else none

/-- The first place where two colons meet: what stands before and after it. -/
def splitAtGap : List Char → Option (List Char × List Char)
  | ':' :: ':' :: rest => some ([], rest)
  | c :: rest => (splitAtGap rest).map fun (a, b) => (c :: a, b)
  | [] => none

/-- The text is an address of eight groups, a run of zeros being left out at most once. -/
def isAddress6 (cs : List Char) : Bool :=
  match splitAtGap cs with
  | none => groupCount? cs true == some 8
  | some (before, after) =>
    match groupCount? before false, groupCount? after true with
    | some m, some n => m + n ≤ 7
    | _, _ => false

/-! ## Reading a host -/

/-- The host that a text names. -/
def ofText (cs : List Char) : Host :=
  match cs with
  | [] => .here
  | '[' :: rest =>
    if rest.getLast? = some ']' && isAddress6 rest.dropLast then .remote else .malformed
  | _ =>
    match Text.Utf8.decode? (percentDecode cs) with
    | none => .malformed
    | some decoded =>
      let name := decoded.flatMap plain
      if name.isEmpty || name.any forbidden || (Text.splitOn '.' name).any hollow then .malformed
      else if name = "localhost".toList then .here
      else if endsInNumber name && !isAddress4 name then .malformed
      else .remote

end Host
end FileUrl
end DebugTree
