/-!
# JSON numbers

A number that is written without a fraction and without an exponent, and that fits into 64 bits
with or without a sign, is an exact integer.  Every other number is a binary64 value, kept by its
bits so that equality of numbers is decidable and tells `0.0` from `-0.0`.

## Reading

A decimal is read with at most 64 bits of its digits: digits that no longer fit are counted (left
of the point) or dropped (right of it), and the result is one multiplication or division by a
power of ten.  A number too large for binary64 is refused rather than read as an infinity.

## Writing

A binary64 value is written with the fewest digits that read back as that value.
-/

namespace DebugTree

/-- A JSON number. -/
inductive Json.Number where
  | int (n : Int)
  | float (bits : UInt64)
  deriving DecidableEq

namespace Json
namespace Number

/-! ## Reading a decimal -/

/-- The largest significand that is kept exactly. -/
def significandLimit : Nat := Nat.pow 2 64 - 1

/-- Digits are taken into the significand as long as they fit; the rest is left over. -/
def takeDigits (significand : Nat) : List Nat → Nat × List Nat
  | [] => (significand, [])
  | d :: ds =>
    if significand * 10 + d ≤ significandLimit then takeDigits (significand * 10 + d) ds
    else (significand, d :: ds)

/-- The power of ten as a binary64 value. -/
def powerOfTen (n : Nat) : Float :=
  Float.ofScientific 1 false n

/-- Division by a power of ten that may itself be out of range: it is done in steps. -/
def divideByPower (f : Float) (n : Nat) : Float :=
  if n ≤ 308 then f / powerOfTen n
  else if f == 0.0 then f
  else divideByPower (f / powerOfTen 308) (n - 308)
  termination_by n

/-- A significand times a power of ten, unless that is out of range. -/
def scale? (significand : Nat) (exponent : Int) : Option Float :=
  let f := significand.toUInt64.toFloat
  if exponent < 0 then some (divideByPower f exponent.natAbs)
  else if exponent.natAbs ≤ 308 then
    let g := f * powerOfTen exponent.natAbs
    if g.isInf then none else some g
  else if significand = 0 then some f else none

/-- Exponents beyond this many digits are out of range whatever the significand. -/
def exponentLimit : Int := (Nat.pow 2 31 : Int) - 1

/-- A binary64 value with a sign put before it. -/
def signed (negative : Bool) (f : Float) : Number :=
  .float (if negative then -f else f).toBits

/-- The value of a decimal, given the digits left of the point, the digits right of it and the
exponent where the text has them; nothing if it is out of range. -/
def ofDecimal? (negative : Bool) (whole : List Nat) (fraction : Option (List Nat))
    (exponent : Option Int) : Option Number :=
  let (kept, left) := takeDigits 0 whole
  if fraction.isNone && exponent.isNone && left.isEmpty then
    if !negative then some (.int kept)
    else if 0 < kept && kept ≤ Nat.pow 2 63 then some (.int (-(kept : Int)))
    else some (signed true kept.toUInt64.toFloat)
  else
    let digits := fraction.getD []
    let (significand, dropped) := takeDigits kept digits
    let place : Int := (left.length : Int) - ((digits.length - dropped.length : Nat) : Int)
    match exponent with
    | none => (scale? significand place).map (signed negative)
    | some e =>
      if exponentLimit < e then
        if significand = 0 then some (signed negative 0.0) else none
      else if e < -exponentLimit then some (signed negative 0.0)
      else (scale? significand (place + e)).map (signed negative)

/-! ## Writing a binary64 value -/

/-- The value of a finite binary64, without its sign, as a quotient of two natural numbers. -/
def magnitude (bits : UInt64) : Nat × Nat :=
  let fraction := bits.toNat % Nat.pow 2 52
  let exponent := bits.toNat / Nat.pow 2 52 % Nat.pow 2 11
  let m := if exponent = 0 then fraction else fraction + Nat.pow 2 52
  let e := max exponent 1
  if e < 1075 then (m, Nat.pow 2 (1075 - e)) else (m * Nat.pow 2 (e - 1075), 1)

/-- How many digits a natural number has. -/
def digitCount (n : Nat) : Nat :=
  (Nat.toDigits 10 n).length

/-- How many times a proper fraction has to be multiplied by ten to reach one. -/
def leadingZeros (num den : Nat) : Nat → Nat
  | 0 => 0
  | fuel + 1 => if den ≤ num then 0 else leadingZeros (num * 10) den fuel + 1

/-- The number `p` of places with `10 ^ (p - 1) ≤ num / den < 10 ^ p`. -/
def places (num den : Nat) : Int :=
  if den ≤ num then digitCount (num / den) else 1 - (leadingZeros num den 400 : Int)

/-- `digits` times ten to the power `exponent` is read as the value with these bits. -/
def readsAs (bits : UInt64) (digits : Nat) (exponent : Int) : Bool :=
  (Float.ofScientific digits (decide (exponent < 0)) exponent.natAbs).toBits == bits

/-- The two decimals of `count` digits next to a value, the nearer first. -/
def neighbours (num den : Nat) (count : Nat) : List (Nat × Int) :=
  let exponent : Int := places num den - count
  let (n, d) :=
    if exponent < 0 then (num * Nat.pow 10 exponent.natAbs, den)
    else (num, den * Nat.pow 10 exponent.natAbs)
  let low := n / d
  if 2 * (n % d) ≤ d then [(low, exponent), (low + 1, exponent)]
  else [(low + 1, exponent), (low, exponent)]

/-- The fewest digits that read back as a positive value, with their exponent. -/
def shortest (bits : UInt64) : Nat × Int :=
  let (num, den) := magnitude bits
  let candidates := (List.range 17).flatMap fun i => neighbours num den (i + 1)
  (candidates.find? fun c => readsAs bits c.1 c.2).getD (0, 0)

/-- Digits with a decimal point after the first `point` of them. -/
def positional (digits : List Char) (point : Int) : List Char :=
  if point ≤ 0 then ['0', '.'] ++ List.replicate point.natAbs '0' ++ digits
  else
    let whole := digits.take point.natAbs
    let fraction := digits.drop point.natAbs
    whole ++ List.replicate (point.natAbs - whole.length) '0' ++ ['.'] ++
      (if fraction.isEmpty then ['0'] else fraction)

/-- Digits with a decimal point after the first of them, and a power of ten. -/
def scientific (digits : List Char) (point : Int) : List Char :=
  let rest := digits.drop 1
  digits.take 1 ++ (if rest.isEmpty then [] else '.' :: rest) ++ ['e'] ++
    (toString (point - 1)).toList

/-- The text of a finite binary64 value: positional from `1e-5` up to below `1e16`. -/
def floatText (bits : UInt64) : List Char :=
  let sign := if bits.toNat / Nat.pow 2 63 = 1 then ['-'] else []
  let positive : UInt64 := UInt64.ofNat (bits.toNat % Nat.pow 2 63)
  if positive = 0 then sign ++ ['0', '.', '0']
  else
    let (n, exponent) := shortest positive
    let digits := ((toString n).toList.reverse.dropWhile (· == '0')).reverse
    let point := exponent + (toString n).length
    sign ++ if -5 < point && point ≤ 16 then positional digits point else scientific digits point

/-- The text of a number. -/
def text : Number → List Char
  | .int n => (toString n).toList
  | .float bits => floatText bits

end Number
end Json
end DebugTree
