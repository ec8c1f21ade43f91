import CatalogSync.Json.Shape
import CatalogSync.Json.Printer
import CatalogSync.Text.Utf8

/-! Types with a JSON form. -/

namespace CatalogSync

/-- How texts are read as values of a type. -/
structure Reader (α : Type) where
  shape : Json.Shape
  decode : Json → Option α

/-- The value that a text spells; none if it spells none. -/
def Reader.ofBytes? {α : Type} (r : Reader α) (bytes : List UInt8) : Option α := do
  r.decode (← Json.ofBytes? r.shape bytes)

/-- `decode` accepts more than `encode` writes: fields may be missing, come in any order or as an array. -/
class Codec (α : Type) where
  /-- How a text of this type is read. -/
  shape : Json.Shape
  encode : α → Json
  decode : Json → Option α

namespace Codec

def reader (α : Type) [Codec α] : Reader α := ⟨shape α, decode⟩

/-- The value that a text spells; none if it spells none. -/
def ofBytes? (α : Type) [Codec α] (bytes : List UInt8) : Option α := (reader α).ofBytes? bytes

def ofText? (α : Type) [Codec α] (text : String) : Option α := ofBytes? α (Text.bytes text)

def text {α : Type} [Codec α] (x : α) : String := (encode x).compact

/-! ### Simple types -/

instance : Codec Json := ⟨.any, id, some⟩
instance : Codec String := ⟨.any, .string, Json.string?⟩
instance : Codec Bool := ⟨.any, .bool, Json.bool?⟩
instance : Codec UInt16 := ⟨.any, fun n => .nat n.toNat, fun j => (j.below? UInt16.size).map .ofNat⟩
instance : Codec UInt64 := ⟨.any, fun n => .nat n.toNat, fun j => (j.below? UInt64.size).map .ofNat⟩

variable {α : Type} [Codec α]

instance : Codec (Option α) where
  shape := shape α
  encode
    | none => .null
    | some x => encode x
  decode
    | .null => some none
    | j => (decode j).map some

instance : Codec (List α) where
  shape := .list (shape α)
  encode xs := .array (xs.map encode)
  decode j := do (← j.array?).mapM decode

def decodeMembers (members : List (String × Json)) : Option (List (String × α)) :=
  members.mapM fun m => (decode m.2).map (m.1, ·)

instance : Codec (SortedMap String α) where
  shape := .table (shape α)
  encode m := .object (m.entries.map fun e => (e.1, encode e.2))
  decode j := do SortedMap.ofList <$> decodeMembers (← j.object?)

/-! ### Fields of records -/

abbrev Fields := List (String × Json.Shape)

/-- The value of a field, if it is there: by name in an object, by position in an array. -/
def field? (fields : Fields) (j : Json) (name : String) : Option Json :=
  match j with
  | .object members => members.lookup name
  | .array items => ((fields.map (·.1)).zip items).lookup name
  | _ => none

/-- Is this an object, or an array of no more than these fields? -/
def isRecord (fields : Fields) : Json → Bool
  | .object _ => true
  | .array items => items.length ≤ fields.length
  | _ => false

def required (fields : Fields) (j : Json) (name : String) : Option α := do decode (← field? fields j name)

/-- A missing field has the value `default`; one that does not decode is an error. -/
def withDefault (default : α) (fields : Fields) (j : Json) (name : String) : Option α :=
  match field? fields j name with
  | none => some default
  | some v => decode v

/-- A list of values that `reader` decodes; a missing one is empty. -/
def listField {β : Type} (reader : Reader β) (fields : Fields) (j : Json) (name : String) : Option (List β) :=
  match field? fields j name with
  | none => some []
  | some v => do (← v.array?).mapM reader.decode

/-- The word in a string or, if `blank` accepts the value, in an object with one member. -/
def word? (blank : Json → Bool) : Json → Option String
  | .string w => some w
  | .object [(w, v)] => if blank v then some w else none
  | _ => none

def isNull : Json → Bool
  | .null => true
  | _ => false

/-- In a record that was held as a whole an empty object also stands for nothing. -/
def isNullOrEmpty : Json → Bool
  | .null => true
  | .object [] => true
  | _ => false

end Codec
end CatalogSync
