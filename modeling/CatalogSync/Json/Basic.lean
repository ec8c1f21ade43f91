/-! JSON values.

An object keeps its members as they are listed. Readers of free-form values list them by ascending key,
each key once; encoders of records list the fields of the record in their declared order. -/

namespace CatalogSync

/-- Integers keep their exact value; every other number is a 64-bit float, so `1` and `1.0` differ. -/
inductive Json.Number
  | int (value : Int)
  | float (value : Float)
  deriving BEq, Repr, Inhabited

inductive Json
  | null
  | bool (value : Bool)
  | number (value : Json.Number)
  | string (value : String)
  | array (items : List Json)
  | object (members : List (String × Json))
  deriving BEq, Repr, Inhabited

namespace Json

def nat (n : Nat) : Json := .number (.int n)

def strings (texts : List String) : Json := .array (texts.map .string)

/-- The value of a member; none if this is no object or lacks the member. -/
def member? (name : String) : Json → Option Json
  | object members => members.lookup name
  | _ => none

def string? : Json → Option String
  | string s => some s
  | _ => none

def bool? : Json → Option Bool
  | bool b => some b
  | _ => none

def array? : Json → Option (List Json)
  | array items => some items
  | _ => none

def object? : Json → Option (List (String × Json))
  | object members => some members
  | _ => none

def int? : Json → Option Int
  | number (.int n) => some n
  | _ => none

/-- Integers of an unsigned type with `bound` values. -/
def below? (bound : Nat) (j : Json) : Option Nat := do
  let n ← j.int?
  if 0 ≤ n ∧ n < bound then some n.toNat else none

end Json
end CatalogSync
