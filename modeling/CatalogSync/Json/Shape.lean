import CatalogSync.Json.Tree
import CatalogSync.Collections.SortedMap

/-! Reading a text as a value of a known shape.

What the shape does not ask for is skipped, and skipped text has to be grammatical only. What it asks for has
to denote a value, may nest `depthLimit` containers deep, and may not name a field twice. A tagged record is
held as a whole before its fields are known, so of it nothing is skipped. -/

namespace CatalogSync.Json

inductive Shape
  /-- Any value; objects are sorted, and of members with one key the last counts. -/
  | any
  /-- An object with these fields among others, or an array of the fields in this order. -/
  | record (fields : List (String × Shape))
  | list (item : Shape)
  /-- An object with free keys. Repeated keys stay, for the decoder to check each of their values. -/
  | table (value : Shape)
  /-- One of several words: a string, or an object with the word as its only key. -/
  | word
  /-- A record whose fields depend on the string in field `tag`, which comes first in the array form. -/
  | tagged (tag : String) (variants : List (String × List (String × Shape)))
  deriving Inhabited

namespace Shape

/-- The greatest number of containers inside one another. -/
def depthLimit : Nat := 127

def fieldShape (fields : List (String × Shape)) (key : String) : Shape := (fields.lookup key).getD .any

/-- The tag's value, if the tag is there exactly once. -/
def tagOf? (tag : String) (members : List (Option String × Tree)) : Option String :=
  match members.filter fun m => m.1 == some tag with
  | [(_, .string (some name))] => some name
  | _ => none

/-- The fields that the first item of the array form announces. -/
def itemShapes (variants : List (String × List (String × Shape))) : List Tree → Option (List Shape)
  | .string (some name) :: _ => (variants.lookup name).map fun fields => .any :: fields.map (·.2)
  | _ => none

def sortMembers (members : List (String × Json)) : List (String × Json) := (SortedMap.ofList members).entries

def namesOnce (names : List String) (members : List (String × Json)) : Bool :=
  names.all fun name => members.countP (·.1 == name) ≤ 1

end Shape

namespace Tree
open Shape

mutual

/-- The value that `t` denotes as `shape`, inside at most `depth` containers; `whole` says that nothing may be
    skipped unread. -/
def read (whole : Bool) (depth : Nat) (shape : Shape) (t : Tree) : Option Json :=
  match t with
  | .null => some .null
  | .bool b => some (.bool b)
  | .number n => n.map .number
  | .string s => s.map .string
  | .array items =>
    match depth with
    | 0 => none
    | depth + 1 =>
      .array <$>
        match shape with
        | .list item => readList whole depth item items
        | .record fields => readItems whole depth (fields.map (·.2)) items
        | .tagged _ variants => do readItems true depth (← itemShapes variants items) items
        | _ => readList whole depth .any items
  | .object members =>
    match depth with
    | 0 => none
    | depth + 1 =>
      match shape with
      | .record fields => do
        let kept ← readFields whole depth fields members
        if namesOnce (fields.map (·.1)) kept then some (.object kept) else none
      | .table value => .object <$> readTable whole depth value members
      | .word => do
        let kept ← readTable whole depth .any members
        if kept.length = 1 then some (.object kept) else none
      | .tagged tag variants => do
        let name ← tagOf? tag members
        let fields := (tag, .any) :: (← variants.lookup name)
        let kept ← readFields true depth fields members
        if namesOnce (fields.map (·.1)) kept then some (.object kept) else none
      | _ => (fun kept => .object (sortMembers kept)) <$> readTable whole depth .any members

def readList (whole : Bool) (depth : Nat) (item : Shape) : List Tree → Option (List Json)
  | [] => some []
  | t :: ts => do
    let j ← read whole depth item t
    let js ← readList whole depth item ts
    some (j :: js)

def readItems (whole : Bool) (depth : Nat) (shapes : List Shape) : List Tree → Option (List Json)
  | [] => some []
  | t :: ts => do
    let j ← read whole depth (shapes.headD .any) t
    let js ← readItems whole depth shapes.tail ts
    some (j :: js)

def readTable (whole : Bool) (depth : Nat) (value : Shape) :
    List (Option String × Tree) → Option (List (String × Json))
  | [] => some []
  | (key, t) :: ms => do
    let key ← key
    let j ← read whole depth value t
    let rest ← readTable whole depth value ms
    some ((key, j) :: rest)

/-- Of the other members the keys are read, and the values only if nothing may be skipped. -/
def readFields (whole : Bool) (depth : Nat) (fields : List (String × Shape)) :
    List (Option String × Tree) → Option (List (String × Json))
  | [] => some []
  | (key, t) :: ms => do
    let key ← key
    let known := (fields.lookup key).isSome
    let kept ←
      if known || whole then (read whole depth (fieldShape fields key) t).map fun j => if known then [(key, j)] else []
      else some []
    let rest ← readFields whole depth fields ms
    some (kept ++ rest)

end

end Tree

/-- The value of a text as `shape`. -/
def ofBytes? (shape : Shape) (bytes : List UInt8) : Option Json := do
  (← Tree.ofBytes? bytes).read false Shape.depthLimit shape

end CatalogSync.Json
