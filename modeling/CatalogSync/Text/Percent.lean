import CatalogSync.Text.Utf8

/-! Percent-encoding: letters, digits and `-`, `.`, `_`, `~` stand for themselves, and every other byte of the
UTF-8 form is written as `%` with two hexadecimal digits. -/

namespace CatalogSync.Text.Percent

def unreserved (b : UInt8) : Bool :=
  let c := Char.ofNat b.toNat
  c.isAlphanum || c == '-' || c == '.' || c == '_' || c == '~'

def hexDigit (n : Nat) : Char := (Nat.digitChar n).toUpper

def escape (b : UInt8) : List Char := ['%', hexDigit (b.toNat / 16), hexDigit (b.toNat % 16)]

/-- Escapes the bytes that are not plain; those that are stand for ASCII characters. -/
def encodeByte (plain : UInt8 → Bool) (b : UInt8) : List Char :=
  if plain b then [Char.ofNat b.toNat] else escape b

def encodeUnless (plain : UInt8 → Bool) (s : String) : String :=
  String.ofList ((bytes s).flatMap (encodeByte plain))

def encode (s : String) : String := encodeUnless unreserved s

end CatalogSync.Text.Percent
