import CatalogSync.Json.Basic
import CatalogSync.Decimal.Shortest

/-! How numbers are read from and written to JSON text.

Reading keeps integers in `-2 ^ 63 .. 2 ^ 64 - 1` and turns all else into a float: digits are gathered while
they fit into 64 bits, the others only count towards the exponent, and one multiplication or division by a
power of ten gives the value. Writing uses the shortest digits. -/

namespace CatalogSync.Json

/-- The parts of a number as it is spelled. -/
structure Numeral where
  negative : Bool
  whole : List Nat
  fraction : Option (List Nat)
  /-- Sign (true: negative) and digits. -/
  exponent : Option (Bool × List Nat)
  deriving Repr

namespace Numeral

/-! ### Spelling -/

private def digit? (b : UInt8) : Option Nat :=
  if '0'.toUInt8 ≤ b ∧ b ≤ '9'.toUInt8 then some (b - '0'.toUInt8).toNat else none

private def digits (bytes : List UInt8) : List Nat × List UInt8 :=
  ((bytes.takeWhile fun b => (digit? b).isSome).filterMap digit?, bytes.dropWhile fun b => (digit? b).isSome)

private def readExponent (bytes : List UInt8) : Option (Option (Bool × List Nat) × List UInt8) :=
  match bytes with
  | [] => some (none, [])
  | e :: rest =>
    if e = 'e'.toUInt8 ∨ e = 'E'.toUInt8 then
      let (negative, rest) :=
        match rest with
        | s :: more =>
          if s = '-'.toUInt8 then (true, more) else if s = '+'.toUInt8 then (false, more) else (false, rest)
        | [] => (false, [])
      let (ds, rest) := digits rest
      if ds.isEmpty then none else some (some (negative, ds), rest)
    else some (none, bytes)

/-- A minus sign, a whole part without a superfluous zero, a fraction with at least one digit and an exponent
    with at least one digit, and nothing after them. -/
def ofBytes (bytes : List UInt8) : Option Numeral := do
  let (negative, bytes) := if bytes.head? = some '-'.toUInt8 then (true, bytes.tail) else (false, bytes)
  let (whole, rest) := digits bytes
  if whole.isEmpty ∨ (whole.head? = some 0 ∧ whole.length > 1) then none
  let (fraction, rest) ←
    if rest.head? = some '.'.toUInt8 then
      let (ds, rest) := digits rest.tail
      if ds.isEmpty then none else some (some ds, rest)
    else some (none, rest)
  let (exponent, rest) ← readExponent rest
  if rest.isEmpty then some ⟨negative, whole, fraction, exponent⟩ else none

/-! ### Value -/

/-- Takes digits into the significand while it stays below `bound`; also how many digits are left over. -/
private def gather (bound : Nat) (significand : Nat) : List Nat → Nat × List Nat
  | [] => (significand, [])
  | d :: ds =>
    if significand * 10 + d < bound then gather bound (significand * 10 + d) ds else (significand, d :: ds)

private def tenTo (n : Nat) : Float := Float.ofScientific 1 false n

/-- `x / 10 ^ n`, in steps that stay in the range of floats. -/
def shrink (x : Float) (n : Nat) : Float :=
  if n ≤ 308 then x / tenTo n
  else if x == 0.0 then x
  else shrink (x / tenTo 308) (n - 308)
termination_by n

/-- `significand · 10 ^ exponent`, none if it is out of range. -/
def scale? (significand : Nat) (exponent : Int) : Option Float :=
  let x := Float.ofNat significand
  if exponent < 0 then some (shrink x exponent.natAbs)
  else if exponent ≤ 308 then
    let y := x * tenTo exponent.toNat
    if y.isInf then none else some y
  else if x == 0.0 then some x
  else none

/-- Exponents have 31 bits and a sign. -/
private def exponentBound : Nat := Nat.pow 2 31

private def clamp (n : Int) : Int := max (-exponentBound) (min n (exponentBound - 1))

/-- An exponent of more than 31 bits is out of range, or makes the number zero. -/
private def magnitude? (significand : Nat) (exponent : Int) : Option (Bool × List Nat) → Option Float
  | none => scale? significand exponent
  | some (negative, ds) =>
    let (e, rest) := gather exponentBound 0 ds
    if rest.isEmpty then scale? significand (clamp (if negative then exponent - e else exponent + e))
    else if significand ≠ 0 ∧ ¬ negative then none
    else some 0.0

/-- None if the number is beyond the range of floats. -/
def value? (n : Numeral) : Option Number :=
  let (significand, dropped) := gather UInt64.size 0 n.whole
  let signed (x : Float) : Number := .float (if n.negative then -x else x)
  match n.fraction, n.exponent with
  | none, none =>
    if dropped.isEmpty then
      if ¬ n.negative then some (.int significand)
      else if significand ≠ 0 ∧ significand ≤ UInt64.size / 2 then some (.int (-significand))
      else some (signed (Float.ofNat significand))
    else (scale? significand dropped.length).map signed
  | none, some e => (magnitude? significand dropped.length (some e)).map signed
  | some ds, e =>
    let (significand, rest) := gather UInt64.size significand ds
    (magnitude? significand (dropped.length - (ds.length - rest.length : Nat)) e).map signed

end Numeral

/-! ### Writing -/

/-- Positional while the exponent of the first digit is in `-5 .. 15`, with at least one digit after the point;
    else one digit before the point and a signed exponent. -/
def floatText (x : Float) : String :=
  let sign := if x.toBits.toNat ≥ UInt64.size / 2 then "-" else ""
  if x == 0.0 then sign ++ "0.0"
  else
    let d := (Decimal.Binary.ofFloat x).shortest
    let ds := Nat.toDigits 10 d.digits
    let exponent : Int := d.scale + ds.length - 1
    sign ++
      if exponent < -5 ∨ exponent > 15 then
        let fraction := String.ofList (ds.drop 1)
        String.ofList (ds.take 1) ++ (if fraction.isEmpty then "" else "." ++ fraction) ++ "e" ++
          (if exponent < 0 then "-" else "+") ++ toString exponent.natAbs
      else if exponent < 0 then
        "0." ++ String.ofList (List.replicate (exponent.natAbs - 1) '0') ++ String.ofList ds
      else if d.scale ≥ 0 then
        String.ofList ds ++ String.ofList (List.replicate d.scale.toNat '0') ++ ".0"
      else
        String.ofList (ds.take (exponent.toNat + 1)) ++ "." ++ String.ofList (ds.drop (exponent.toNat + 1))

/-- Integers in plain decimal. -/
def Number.text : Number → String
  | .int n => toString n
  | .float x => floatText x

end CatalogSync.Json
