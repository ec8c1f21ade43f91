import CatalogSync.Json.Codec

/-! Who initiated a change. -/

namespace CatalogSync

inductive Provenance
  | automated
  | userTriggered
  deriving DecidableEq, Repr, Inhabited

namespace Provenance

def text : Provenance → String
  | automated => "automated"
  | userTriggered => "user_triggered"

def ofText? (s : String) : Option Provenance :=
  if s = automated.text then some automated
  else if s = userTriggered.text then some userTriggered
  else none

/-- As a field of a record that was held as a whole. -/
def decodeHeld (j : Json) : Option Provenance := do ofText? (← Codec.word? Codec.isNullOrEmpty j)

instance : Codec Provenance where
  shape := .word
  encode p := .string p.text
  decode j := do ofText? (← Codec.word? Codec.isNull j)

end Provenance
end CatalogSync
