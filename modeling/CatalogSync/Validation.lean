import CatalogSync.Entity.Basic

/-! Collections that a run accepts: no empty name, no key twice. -/

namespace CatalogSync

inductive NameField
  | identifier
  | blueprint
  deriving DecidableEq, Repr

/-- What is wrong with a collection. -/
inductive Fault
  | emptyField (field : NameField) (index : Nat)
  | duplicate (key : EntityRef)
  deriving DecidableEq, Repr

def NameField.text : NameField → String
  | identifier => "identifier"
  | blueprint => "blueprint"

def Fault.message : Fault → String
  | emptyField field index => "entity at index " ++ toString index ++ " has an empty " ++ field.text
  | duplicate key => "duplicate identity key " ++ key.text

variable {α : Type} [Keyed α]

/-- The first fault among `xs`, which stand at `index` and follow items with the keys `seen`. -/
def faultAmong (seen : List EntityRef) (index : Nat) : List α → Option Fault
  | [] => none
  | x :: xs =>
    if (Keyed.identifier x).isEmpty then some (.emptyField .identifier index)
    else if (Keyed.blueprint x).isEmpty then some (.emptyField .blueprint index)
    else if Keyed.key x ∈ seen then some (.duplicate (Keyed.key x))
    else faultAmong (Keyed.key x :: seen) (index + 1) xs

/-- The first fault of a collection. -/
def fault? (xs : List α) : Option Fault := faultAmong [] 0 xs

end CatalogSync
