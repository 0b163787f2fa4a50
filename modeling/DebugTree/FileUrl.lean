import DebugTree.FileUrl.Path
import DebugTree.Text.Blank

/-!
# File URLs

`FileUrl.toPath? url` is the absolute path that a `file:` URL names on this machine, or nothing if
the text is not such a URL.  Blanks and controls at the two ends of the text are dropped, and tabs
and line breaks anywhere in it.  A query and a fragment do not matter.  The path is decoded, with
U+FFFD for octets that are not text, and has forward slashes only.
-/

namespace DebugTree
namespace FileUrl

/-- The characters of a URL that count. -/
def significant (cs : List Char) : List Char :=
  (Text.trimWhere (fun c => c.toNat ≤ 0x20) cs).filter fun c =>
    !(c == '\t' || c == '\n' || c == '\r')

/-- Characters of a scheme after its first letter. -/
def inScheme (c : Char) : Bool :=
  c.isAlphanum || c == '+' || c == '-' || c == '.'

/-- What follows the scheme of a `file:` URL. -/
def afterScheme? (cs : List Char) : Option (List Char) :=
  match cs.dropWhile inScheme with
  | ':' :: rest =>
    if (cs.takeWhile inScheme).map Char.toLower = "file".toList then some rest else none
  | _ => none

/-- The path after two slashes, where the host stands. -/
def pathAfterHost? (cs : List Char) : Option (List Char) :=
  let host := cs.takeWhile fun c => !(isSlash c || endsPath c)
  let rest := cs.drop host.length
  if isDrive host then some (walk ['/'] cs).path
  else match Host.ofText host with
    | .malformed => none
    | .here => some (walk ['/'] rest).path
    | .remote =>
      let rest := match rest with
        | c :: cs => if isSlash c then cs else c :: cs
        | [] => []
      let w := walk ['/'] rest
      if w.drive then some w.path else none

/-- The path after the scheme, percent signs still in it. -/
def rawPath? : List Char → Option (List Char)
  | a :: b :: rest =>
    if isSlash a && isSlash b then pathAfterHost? rest
    else if isSlash a then some (walk [] (a :: b :: rest)).path
    else some (walk ['/'] (a :: b :: rest)).path
  | [a] => if isSlash a then some (walk [] [a]).path else some (walk ['/'] [a]).path
  | [] => some (walk ['/'] []).path

/-- A path that ends in a drive letter ends in a slash after it. -/
def closeDrive (bytes : List UInt8) : List UInt8 :=
  match bytes.reverse with
  | b :: a :: _ :: _ =>
    if isDrive [Char.ofNat a.toNat, Char.ofNat b.toNat] then bytes ++ [0x2F] else bytes
  | _ => bytes

/-- The absolute path on this machine that a URL names. -/
def toPath? (url : String) : Option String := do
  let rest ← afterScheme? (significant url.toList)
  let raw ← rawPath? rest
  let path := Text.Utf8.decodeLossy (closeDrive (percentDecode raw))
  some (String.ofList (Text.replaceChar '\\' '/' path))

end FileUrl
end DebugTree
