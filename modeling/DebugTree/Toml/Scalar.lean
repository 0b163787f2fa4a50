import DebugTree.Text.Hexadecimal
import DebugTree.Text.Splitting
import DebugTree.Toml.Basic

/-!
# Numbers, dates and truth values

A scalar without quotes is a run of characters that has to be spelled in one of a few ways.

* An integer is decimal with an optional sign and no leading zeros, or has no sign and starts
  with `0x`, `0o` or `0b`.
* A fraction has a point, an exponent or both, or is an infinity or not a number.
* A date is a day, a time of day, or both with an optional offset.

Digits of numbers may have single underscores between them.  Integers are read up to 128 bits, and
a fraction that would round to an infinity is out of range.
-/

namespace DebugTree
namespace Toml
namespace Scalar

/-! ## Digits -/

/-- The value of a digit in a radix. -/
def digit? (radix : Nat) (c : Char) : Option Nat :=
  (Text.hexValue? c).filter (· < radix)

/-- Digits with single underscores between them. -/
def digits? (radix : Nat) (cs : List Char) : Option (List Nat) := do
  let groups := Text.splitOn '_' cs
  if groups.any (·.isEmpty) then none
  (groups.flatten).mapM (digit? radix)

/-- The number that digits stand for. -/
def ofDigits (radix : Nat) (ds : List Nat) : Nat :=
  ds.foldl (fun n d => n * radix + d) 0

/-- A sign at the front, and what follows it. -/
def sign : List Char → Bool × List Char
  | '-' :: cs => (true, cs)
  | '+' :: cs => (false, cs)
  | cs => (false, cs)

/-- Decimal digits, of which the first is no zero unless it stands alone. -/
def whole? (cs : List Char) : Option (List Nat) :=
  match digits? 10 cs with
  | some (0 :: _ :: _) => none
  | ds => ds

/-! ## Integers -/

/-- An integer, if it fits into 128 bits with a sign, or without one. -/
def bounded (n : Int) : Toml :=
  if -(Nat.pow 2 127 : Int) ≤ n ∧ n < (Nat.pow 2 128 : Int) then .integer n else .outOfRange

def integer? (cs : List Char) : Option Toml :=
  match cs with
  | '0' :: 'x' :: ds => (digits? 16 ds).map fun d => bounded (ofDigits 16 d)
  | '0' :: 'o' :: ds => (digits? 8 ds).map fun d => bounded (ofDigits 8 d)
  | '0' :: 'b' :: ds => (digits? 2 ds).map fun d => bounded (ofDigits 2 d)
  | _ =>
    let (negative, ds) := sign cs
    (whole? ds).map fun d =>
      bounded (if negative then -(ofDigits 10 d : Int) else (ofDigits 10 d : Int))

/-! ## Fractions -/

/-- The least value that rounds to an infinity, half a step above the largest binary64 value. -/
def overflow : Nat := Nat.pow 2 1024 - Nat.pow 2 970

/-- `m` times ten to the power `e` rounds to an infinity.  A power that decides by its size alone
is not computed. -/
def overflows (m : Nat) (e : Int) : Bool :=
  if m = 0 then false
  else
    let place : Int := (Nat.toDigits 10 m).length + e
    if 310 < place then true
    else if place < 300 then false
    else if 0 ≤ e then decide (overflow ≤ m * Nat.pow 10 e.toNat)
    else decide (overflow * Nat.pow 10 e.natAbs ≤ m)

/-- The exponent after its letter. -/
def exponent? (cs : List Char) : Option Int :=
  let (negative, ds) := sign cs
  (digits? 10 ds).map fun d =>
    if negative then -(ofDigits 10 d : Int) else (ofDigits 10 d : Int)

/-- A mantissa with its exponent. -/
def decimal? (cs : List Char) (e : Int) : Option Toml :=
  match Text.splitOn '.' cs with
  | [w] => (whole? w).map fun d =>
      if overflows (ofDigits 10 d) e then .outOfRange else .fraction
  | [w, f] => do
    let d ← whole? w
    let r ← digits? 10 f
    some (if overflows (ofDigits 10 (d ++ r)) (e - r.length) then .outOfRange else .fraction)
  | _ => none

def fraction? (cs : List Char) : Option Toml :=
  let (_, rest) := sign cs
  if rest = "inf".toList ∨ rest = "nan".toList then some .fraction
  else
    match Text.splitOn 'e' (rest.map fun c => if c = 'E' then 'e' else c) with
    | [m] => if m.contains '.' then decimal? m 0 else none
    | [m, e] => (exponent? e).bind (decimal? m)
    | _ => none

/-! ## Dates -/

/-- A number of exactly so many digits. -/
def field? (count : Nat) (cs : List Char) : Option Nat :=
  if cs.length = count then (cs.mapM (digit? 10)).map (ofDigits 10) else none

def isLeap (year : Nat) : Bool :=
  year % 4 = 0 && (year % 100 != 0 || year % 400 = 0)

def daysIn (year month : Nat) : Nat :=
  if month = 2 then (if isLeap year then 29 else 28)
  else if month ∈ [4, 6, 9, 11] then 30
  else 31

/-- A day such as `1979-05-27`. -/
def isDay (cs : List Char) : Bool :=
  match Text.splitOn '-' cs with
  | [y, m, d] =>
    match field? 4 y, field? 2 m, field? 2 d with
    | some y, some m, some d => 1 ≤ m && m ≤ 12 && 1 ≤ d && d ≤ daysIn y m
    | _, _, _ => false
  | _ => false

/-- Seconds, with a fraction of any length. -/
def isSecond (cs : List Char) : Bool :=
  match Text.splitOn '.' cs with
  | [s] => (field? 2 s).any (· ≤ 60)
  | [s, f] => (field? 2 s).any (· ≤ 60) && !f.isEmpty && f.all Char.isDigit
  | _ => false

/-- A time of day such as `07:32:00.5`. -/
def isTime (cs : List Char) : Bool :=
  match Text.splitOn ':' cs with
  | [h, m, s] => (field? 2 h).any (· ≤ 23) && (field? 2 m).any (· ≤ 59) && isSecond s
  | _ => false

/-- Hours and minutes such as `07:00`. -/
def isOffset (cs : List Char) : Bool :=
  match Text.splitOn ':' cs with
  | [h, m] => (field? 2 h).any (· ≤ 23) && (field? 2 m).any (· ≤ 59)
  | _ => false

/-- A time of day with or without an offset. -/
def isTimeWithOffset (cs : List Char) : Bool :=
  let time := cs.takeWhile fun c => c.isDigit || c == ':' || c == '.'
  isTime time && match cs.drop time.length with
    | [] => true
    | ['Z'] | ['z'] => true
    | '+' :: offset | '-' :: offset => isOffset offset
    | _ => false

/-- A day, a time, or both. -/
def isMoment (cs : List Char) : Bool :=
  let day := cs.take 10
  if isDay day then
    match cs.drop 10 with
    | [] => true
    | c :: rest => (c == 'T' || c == 't' || c == ' ') && isTimeWithOffset rest
  else isTime cs

/-! ## All of them -/

/-- The value of a scalar without quotes. -/
def ofLiteral? (cs : List Char) : Option Toml :=
  if cs = "true".toList then some (.boolean true)
  else if cs = "false".toList then some (.boolean false)
  else if isMoment cs then some .moment
  else (integer? cs).orElse fun _ => fraction? cs

end Scalar
end Toml
end DebugTree
