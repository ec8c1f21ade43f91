/-! Text as UTF-8 bytes.

`decodeLossy` reads any bytes: each maximal part that begins a character but does not complete one, and each
byte that begins none, becomes U+FFFD. -/

namespace CatalogSync.Text

def bytes (s : String) : List UInt8 := s.toUTF8.data.toList

/-- None if the bytes are not UTF-8. -/
def ofBytes? (bs : List UInt8) : Option String := String.fromUTF8? ⟨bs.toArray⟩

theorem bytes_inj {s t : String} (h : bytes s = bytes t) : s = t :=
  String.toByteArray_inj.mp (ByteArray.ext (Array.toList_inj.mp h))

theorem ofBytes?_bytes (s : String) : ofBytes? (bytes s) = some s := dif_pos s.isValidUTF8

theorem bytes_of_ofBytes? {bs : List UInt8} {s : String} (h : ofBytes? bs = some s) : bytes s = bs := by
  unfold ofBytes? String.fromUTF8? at h
  split at h
  · cases h
    rfl
  · cases h

namespace Utf8

/-- A character that has begun: how many bytes are missing, between what bounds the next one is, and the bits so
    far. -/
structure Partial where
  missing : Nat
  low : UInt8
  high : UInt8
  bits : Nat

inductive Start
  | char (c : Char)
  | begun (p : Partial)
  | invalid

/-- Bounds on the second byte keep out overlong forms, surrogates and what is above U+10FFFF. -/
def start (b : UInt8) : Start :=
  let n := b.toNat
  if n < 0x80 then .char (Char.ofNat n)
  else if n < 0xC2 then .invalid
  else if n < 0xE0 then .begun ⟨1, 0x80, 0xBF, n % 0x20⟩
  else if n < 0xF0 then
    .begun ⟨2, if n = 0xE0 then 0xA0 else 0x80, if n = 0xED then 0x9F else 0xBF, n % 0x10⟩
  else if n < 0xF5 then
    .begun ⟨3, if n = 0xF0 then 0x90 else 0x80, if n = 0xF4 then 0x8F else 0xBF, n % 8⟩
  else .invalid

def replacement : Char := Char.ofNat 0xFFFD

/-- The characters complete after `b`, and what has begun. -/
def fresh (b : UInt8) : List Char × Option Partial :=
  match start b with
  | .char c => ([c], none)
  | .begun p => ([], some p)
  | .invalid => ([replacement], none)

def step (b : UInt8) : Option Partial → List Char × Option Partial
  | none => fresh b
  | some p =>
    if p.low ≤ b ∧ b ≤ p.high then
      let bits := p.bits * 0x40 + b.toNat % 0x40
      if p.missing = 1 then ([Char.ofNat bits], none) else ([], some ⟨p.missing - 1, 0x80, 0xBF, bits⟩)
    else
      let (cs, next) := fresh b
      (replacement :: cs, next)

def decodeFrom (p : Option Partial) : List UInt8 → List Char
  | [] => if p.isSome then [replacement] else []
  | b :: bs =>
    let (cs, next) := step b p
    cs ++ decodeFrom next bs

end Utf8

def decodeLossy (bs : List UInt8) : String := String.ofList (Utf8.decodeFrom none bs)

end CatalogSync.Text
