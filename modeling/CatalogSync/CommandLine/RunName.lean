import CatalogSync.Text.Percent

/-! Names of runs: random numbers of 128 bits, less the six that tell the kind of number, in the usual form of a
universally unique identifier. -/

namespace CatalogSync.CommandLine.RunName

def hexByte (b : UInt8) : List Char := (Text.Percent.escape b).tail.map Char.toLower

/-- Sets the bits of the kind "random", which stand at the seventh and at the ninth byte. -/
def stamp (bytes : List UInt8) : List UInt8 :=
  (bytes.modify 6 fun b => b % 0x10 + 0x40).modify 8 fun b => b % 0x40 + 0x80

/-- The lists of these lengths, one after the other. -/
def groups : List Nat → List Char → List (List Char)
  | [], _ => []
  | n :: ns, cs => cs.take n :: groups ns (cs.drop n)

def ofBytes (bytes : List UInt8) : String :=
  "-".intercalate ((groups [8, 4, 4, 4, 12] ((stamp bytes).flatMap hexByte)).map String.ofList)

end CatalogSync.CommandLine.RunName
