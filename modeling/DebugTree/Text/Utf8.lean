/-!
# UTF-8

Octets are read as characters one character at a time.  Where the octets form none, the longest
beginning of a character is taken together, or one octet if nothing begins there, and counts as
one failure.  A strict reader stops at a failure; a lenient one puts U+FFFD in its place.
-/

namespace DebugTree
namespace Text
namespace Utf8

/-- The octets of a text. -/
def encode (cs : List Char) : List UInt8 :=
  cs.flatMap String.utf8EncodeChar

/-- An octet that continues a character. -/
def isTail (b : UInt8) : Bool :=
  0x80 ≤ b && b ≤ 0xBF

/-- The six bits of an octet that continues a character. -/
def tailBits (b : UInt8) : Nat :=
  b.toNat % 64

/-- The octet may come second after this first octet: this rules out overlong forms, surrogates
and code points past the last one. -/
def isSecond (first second : UInt8) : Bool :=
  if first == 0xE0 then 0xA0 ≤ second && second ≤ 0xBF
  else if first == 0xED then 0x80 ≤ second && second ≤ 0x9F
  else if first == 0xF0 then 0x90 ≤ second && second ≤ 0xBF
  else if first == 0xF4 then 0x80 ≤ second && second ≤ 0x8F
  else isTail second

/-- How many octets a character with this first octet has; none for an octet that begins none. -/
def width (first : UInt8) : Nat :=
  if first < 0x80 then 1
  else if 0xC2 ≤ first && first ≤ 0xDF then 2
  else if 0xE0 ≤ first && first ≤ 0xEF then 3
  else if 0xF0 ≤ first && first ≤ 0xF4 then 4
  else 0

/-- What stands at the front of the octets after a first one: a character or a failure, and how
many further octets belong to it. -/
def next (first : UInt8) (rest : List UInt8) : Option Char × Nat :=
  match width first, rest with
  | 1, _ => (some (Char.ofNat first.toNat), 0)
  | 2, b :: _ =>
    if isTail b then (some (Char.ofNat (first.toNat % 32 * 64 + tailBits b)), 1) else (none, 0)
  | 3, b :: rest =>
    if isSecond first b then
      match rest with
      | c :: _ =>
        if isTail c then
          (some (Char.ofNat (first.toNat % 16 * 4096 + tailBits b * 64 + tailBits c)), 2)
        else (none, 1)
      | [] => (none, 1)
    else (none, 0)
  | 4, b :: rest =>
    if isSecond first b then
      match rest with
      | c :: rest =>
        if isTail c then
          match rest with
          | d :: _ =>
            if isTail d then
              (some (Char.ofNat
                (first.toNat % 8 * 262144 + tailBits b * 4096 + tailBits c * 64 + tailBits d)), 3)
            else (none, 2)
          | [] => (none, 2)
        else (none, 1)
      | [] => (none, 1)
    else (none, 0)
  | _, _ => (none, 0)

/-- The characters of the octets, with an empty place for each failure. -/
def decode : List UInt8 → List (Option Char)
  | [] => []
  | b :: rest =>
    let (c, n) := next b rest
    c :: decode (rest.drop n)
  termination_by bs => bs.length
  decreasing_by simp only [List.length_drop, List.length_cons]; omega

/-- The text of the octets, if there is no failure. -/
def decode? (bs : List UInt8) : Option (List Char) :=
  (decode bs).mapM id

/-- The text of the octets, with U+FFFD for each failure. -/
def decodeLossy (bs : List UInt8) : List Char :=
  (decode bs).map (·.getD '\ufffd')

end Utf8
end Text
end DebugTree
