/-! The shortest decimal that reads back as a given binary number.

A number `mantissa · 2 ^ exponent` owns the reals that round to it. Of the decimals `digits · 10 ^ scale` in
that interval those with the fewest digits are wanted, and of those the one nearest to the number. -/

namespace CatalogSync.Decimal

/-- The number `mantissa · 2 ^ exponent`; `lowest` says that the next smaller number is half as far
    away as the next larger one. -/
structure Binary where
  mantissa : Nat
  exponent : Int
  lowest : Bool
  deriving Repr

/-- The decimal `digits · 10 ^ scale`. -/
structure Scientific where
  digits : Nat
  scale : Int
  deriving Repr, DecidableEq

namespace Binary

/-- `quarters · 2 ^ (exponent - 2) / 10 ^ scale` as a fraction. -/
private def scaled (quarters : Nat) (exponent scale : Int) : Nat × Nat :=
  (quarters * Nat.pow 2 (exponent - 2).toNat * Nat.pow 10 (-scale).toNat,
    Nat.pow 2 (2 - exponent).toNat * Nat.pow 10 scale.toNat)

/-- Does `digits · 10 ^ scale` round to this number? The ends of the interval do iff the mantissa is even. -/
def owns (b : Binary) (d : Scientific) : Bool :=
  let (low, den) := scaled (4 * b.mantissa - if b.lowest then 1 else 2) b.exponent d.scale
  let (high, _) := scaled (4 * b.mantissa + 2) b.exponent d.scale
  let at_ := d.digits * den
  if b.mantissa % 2 = 0 then low ≤ at_ && at_ ≤ high else low < at_ && at_ < high

/-- The nearest multiple of `10 ^ scale` that rounds to this number; on a tie the even one. -/
def onGrid? (b : Binary) (scale : Int) : Option Scientific :=
  let (num, den) := scaled (4 * b.mantissa) b.exponent scale
  let below := num / den
  let up := 2 * (num % den) > den || (2 * (num % den) == den && below % 2 == 1)
  let first := if up then below + 1 else below
  let second := if up then below else below + 1
  if b.owns ⟨first, scale⟩ then some ⟨first, scale⟩
  else if b.owns ⟨second, scale⟩ then some ⟨second, scale⟩
  else none

/-- The first of the grids `10 ^ scale`, `10 ^ (scale - 1)`, … with a decimal of this number. -/
private def search (b : Binary) : Nat → Int → Scientific
  | 0, _ => ⟨b.mantissa, 0⟩
  | steps + 1, scale =>
    match b.onGrid? scale with
    | some d => d
    | none => search b steps (scale - 1)

/-- A power of ten above the number: `log₁₀ 2 < 0.30103`. -/
private def topScale (b : Binary) : Int :=
  (b.exponent + (Nat.log2 b.mantissa + 1)) * 30103 / 100000 + 1

/-- For a mantissa of at most 53 bits 17 digits always suffice. -/
def shortest (b : Binary) : Scientific := search b 20 (topScale b)

/-- The magnitude of a finite float. -/
def ofFloat (x : Float) : Binary :=
  let bits := x.toBits.toNat
  let one := Nat.pow 2 52
  let field : Nat := bits / one % 0x800
  let fraction : Nat := bits % one
  if field = 0 then ⟨fraction, -1074, false⟩
  else ⟨one + fraction, (field : Int) - 1075, fraction == 0 && field > 1⟩

end Binary
end CatalogSync.Decimal
