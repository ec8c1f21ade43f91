/-! Spans of time. -/

namespace CatalogSync

structure Duration where
  nanoseconds : Nat
  deriving DecidableEq, Repr, Inhabited

namespace Duration

def perMilli : Nat := Nat.pow 10 6

def perSecond : Nat := Nat.pow 10 9

def ofMillis (n : Nat) : Duration := ⟨n * perMilli⟩

def ofSeconds (seconds nanoseconds : Nat) : Duration := ⟨seconds * perSecond + nanoseconds⟩

/-- Whole milliseconds. -/
def millis (d : Duration) : Nat := d.nanoseconds / perMilli

/-- Whole seconds. -/
def seconds (d : Duration) : Nat := d.nanoseconds / perSecond

/-- What the whole seconds leave over. -/
def remainder (d : Duration) : Nat := d.nanoseconds % perSecond

/-- `n` of the units that divide a unit into `10 ^ places` parts, in that unit and without zeros at the end. -/
def decimal (n places : Nat) : String :=
  let rest := (toString (n % Nat.pow 10 places)).toList
  let digits := (List.replicate (places - rest.length) '0' ++ rest).reverse.dropWhile (· = '0')
  toString (n / Nat.pow 10 places) ++ if digits.isEmpty then "" else "." ++ String.ofList digits.reverse

/-- In the largest unit that it fills, to the nanosecond. -/
def text (d : Duration) : String :=
  let n := d.nanoseconds
  if n ≥ perSecond then decimal n 9 ++ "s"
  else if n ≥ perMilli then decimal n 6 ++ "ms"
  else if n ≥ 1000 then decimal n 3 ++ "µs"
  else decimal n 0 ++ "ns"

end Duration
end CatalogSync
