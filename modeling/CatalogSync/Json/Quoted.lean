import CatalogSync.Json.Basic
import CatalogSync.Text.Utf8

/-! Strings in JSON text: what stands between the quotation marks.

`escape` writes `\b`, `\f`, `\n`, `\r`, `\t`, `\"` and `\\`, any other character below U+0020 as `\u` with four
hexadecimal digits, and all else as it is. `wellFormed` is what every reader asks of the raw bytes, even
of those it skips; `unescape?` also asks that they denote characters. -/

namespace CatalogSync.Json.Quoted

/-! ### Writing -/

private def hexDigit (n : Nat) : Char := Nat.digitChar n

def escapeChar (c : Char) : List Char :=
  if c = '"' then ['\\', '"']
  else if c = '\\' then ['\\', '\\']
  else if c = '\x08' then ['\\', 'b']
  else if c = '\x0c' then ['\\', 'f']
  else if c = '\n' then ['\\', 'n']
  else if c = '\r' then ['\\', 'r']
  else if c = '\t' then ['\\', 't']
  else if c.toNat < 0x20 then ['\\', 'u', '0', '0', hexDigit (c.toNat / 16), hexDigit (c.toNat % 16)]
  else [c]

def escape (s : String) : String := String.ofList ('"' :: s.toList.flatMap escapeChar ++ ['"'])

/-! ### Reading -/

private def hexValue? (b : UInt8) : Option Nat :=
  let c := Char.ofNat b.toNat
  if '0' ≤ c ∧ c ≤ '9' then some (c.toNat - '0'.toNat)
  else if 'a' ≤ c ∧ c ≤ 'f' then some (c.toNat - 'a'.toNat + 10)
  else if 'A' ≤ c ∧ c ≤ 'F' then some (c.toNat - 'A'.toNat + 10)
  else none

private def hex4? (a b c d : UInt8) : Option Nat := do
  let a ← hexValue? a
  let b ← hexValue? b
  let c ← hexValue? c
  let d ← hexValue? d
  some (((a * 16 + b) * 16 + c) * 16 + d)

/-- The character of a one-letter escape. -/
private def letter? (b : UInt8) : Option Char :=
  match Char.ofNat b.toNat with
  | '"' => some '"'
  | '\\' => some '\\'
  | '/' => some '/'
  | 'b' => some '\x08'
  | 'f' => some '\x0c'
  | 'n' => some '\n'
  | 'r' => some '\r'
  | 't' => some '\t'
  | _ => none

private def backslash : UInt8 := 0x5C
private def letterU : UInt8 := 0x75

/-- No bare control character, and only known escapes. -/
def wellFormed : List UInt8 → Bool
  | [] => true
  | b :: rest =>
    if b = backslash then
      match rest with
      | [] => false
      | e :: rest =>
        if e = letterU then
          match rest with
          | p :: q :: r :: s :: rest => (hex4? p q r s).isSome && wellFormed rest
          | _ => false
        else (letter? e).isSome && wellFormed rest
    else b ≥ 0x20 && wellFormed rest

private def utf8 (code : Nat) : List UInt8 := Text.bytes (String.singleton (Char.ofNat code))

/-- The bytes denoted by well-formed raw bytes; a surrogate counts only as half of a pair. -/
private def unescapeBytes? : List UInt8 → Option (List UInt8)
  | [] => some []
  | b :: rest =>
    if b = backslash then
      match rest with
      | [] => none
      | e :: rest =>
        if e = letterU then
          match rest with
          | p :: q :: r :: s :: rest => do
            let high ← hex4? p q r s
            if 0xDC00 ≤ high ∧ high < 0xE000 then none
            else if 0xD800 ≤ high ∧ high < 0xDC00 then
              match rest with
              | b₁ :: b₂ :: p :: q :: r :: s :: rest => do
                if b₁ ≠ backslash ∨ b₂ ≠ letterU then none
                let low ← hex4? p q r s
                if low < 0xDC00 ∨ 0xE000 ≤ low then none
                let more ← unescapeBytes? rest
                some (utf8 (0x10000 + (high - 0xD800) * 0x400 + (low - 0xDC00)) ++ more)
              | _ => none
            else do
              let more ← unescapeBytes? rest
              some (utf8 high ++ more)
          | _ => none
        else do
          let c ← letter? e
          let more ← unescapeBytes? rest
          some (utf8 c.toNat ++ more)
    else do
      let more ← unescapeBytes? rest
      some (b :: more)

def unescape? (raw : List UInt8) : Option String := do
  Text.ofBytes? (← unescapeBytes? raw)

end CatalogSync.Json.Quoted
