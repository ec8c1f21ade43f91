import CatalogSync.Json.Number
import CatalogSync.Json.Quoted

/-! What a JSON text spells out, before it is known what of it counts.

A reader that skips part of a text checks only its grammar. So a number out of range and a string that
denotes no characters are grammatical, and become `none` in the tree; nesting has no limit and repeated
members stay.

`Tree.ofBytes?` is a pushdown machine: one step per byte, over a stack of the containers that are not
closed yet. -/

namespace CatalogSync.Json

inductive Tree
  | null
  | bool (value : Bool)
  | number (value : Option Number)
  | string (value : Option String)
  | array (items : List Tree)
  | object (members : List (Option String × Tree))
  deriving Inhabited

namespace Tree

/-- A container that is not closed yet; what it holds is listed latest first. -/
inductive Frame
  | array (items : List Tree)
  | object (members : List (Option String × Tree))
  /-- The value that comes next belongs to `key`. -/
  | member (members : List (Option String × Tree)) (key : Option String)

/-- What the next byte is part of; bytes gathered so far are listed latest first. -/
inductive Expect
  /-- A value; right after an opening bracket also a closing one. -/
  | value (orClose : Bool)
  | key (orClose : Bool)
  | colon
  /-- A comma or a closing bracket; blanks only once all is closed. -/
  | separator
  | literal (rest : List UInt8) (tree : Tree)
  | number (bytes : List UInt8)
  | string (isKey : Bool) (bytes : List UInt8) (escaped : Bool)

structure Machine where
  frames : List Frame := []
  expect : Expect := .value false
  result : Option Tree := none

namespace Machine

/-- A value has come to its end. -/
def complete (m : Machine) (t : Tree) : Option Machine :=
  match m.frames with
  | [] => some ⟨[], .separator, some t⟩
  | .array items :: frames => some ⟨.array (t :: items) :: frames, .separator, none⟩
  | .member members key :: frames => some ⟨.object ((key, t) :: members) :: frames, .separator, none⟩
  | .object _ :: _ => none

def closeArray (m : Machine) : Option Machine :=
  match m.frames with
  | .array items :: frames => { m with frames }.complete (.array items.reverse)
  | _ => none

def closeObject (m : Machine) : Option Machine :=
  match m.frames with
  | .object members :: frames => { m with frames }.complete (.object members.reverse)
  | _ => none

def completeKey (m : Machine) (key : Option String) : Option Machine :=
  match m.frames with
  | .object members :: frames => some { m with frames := .member members key :: frames, expect := .colon }
  | _ => none

def endNumber (m : Machine) (bytes : List UInt8) : Option Machine := do
  m.complete (.number (← Numeral.ofBytes bytes.reverse).value?)

def endString (m : Machine) (isKey : Bool) (bytes : List UInt8) : Option Machine :=
  let raw := bytes.reverse
  if Quoted.wellFormed raw then
    if isKey then m.completeKey (Quoted.unescape? raw) else m.complete (.string (Quoted.unescape? raw))
  else none

def isBlank (b : UInt8) : Bool := b == 0x20 || b == 0x09 || b == 0x0A || b == 0x0D

def inNumber (b : UInt8) : Bool :=
  ('0'.toUInt8 ≤ b && b ≤ '9'.toUInt8) || b == '+'.toUInt8 || b == '-'.toUInt8 || b == '.'.toUInt8 ||
    b == 'e'.toUInt8 || b == 'E'.toUInt8

/-- A value starts with `b`. -/
def startValue (m : Machine) (b : UInt8) : Option Machine :=
  match Char.ofNat b.toNat with
  | '[' => some { m with frames := .array [] :: m.frames, expect := .value true }
  | '{' => some { m with frames := .object [] :: m.frames, expect := .key true }
  | '"' => some { m with expect := .string false [] false }
  | 'n' => some { m with expect := .literal (Text.bytes "ull") .null }
  | 't' => some { m with expect := .literal (Text.bytes "rue") (.bool true) }
  | 'f' => some { m with expect := .literal (Text.bytes "alse") (.bool false) }
  | _ => if inNumber b then some { m with expect := .number [b] } else none

/-- A byte between values. -/
def separate (m : Machine) (b : UInt8) : Option Machine :=
  if isBlank b then some m
  else
    match Char.ofNat b.toNat, m.frames with
    | ',', .array _ :: _ => some { m with expect := .value false }
    | ',', .object _ :: _ => some { m with expect := .key false }
    | ']', _ => m.closeArray
    | '}', _ => m.closeObject
    | _, _ => none

def step (m : Machine) (b : UInt8) : Option Machine :=
  match m.expect with
  | .value orClose =>
    if isBlank b then some m
    else if orClose && b == ']'.toUInt8 then m.closeArray
    else m.startValue b
  | .key orClose =>
    if isBlank b then some m
    else if orClose && b == '}'.toUInt8 then m.closeObject
    else if b == '"'.toUInt8 then some { m with expect := .string true [] false }
    else none
  | .colon =>
    if isBlank b then some m
    else if b == ':'.toUInt8 then some { m with expect := .value false }
    else none
  | .separator => m.separate b
  | .literal [] _ => none
  | .literal (c :: rest) t =>
    if b = c then
      if rest.isEmpty then m.complete t else some { m with expect := .literal rest t }
    else none
  | .number bytes =>
    if inNumber b then some { m with expect := .number (b :: bytes) }
    else do (← m.endNumber bytes).separate b
  | .string isKey bytes escaped =>
    if escaped then some { m with expect := .string isKey (b :: bytes) false }
    else if b == '"'.toUInt8 then m.endString isKey bytes
    else some { m with expect := .string isKey (b :: bytes) (b == '\\'.toUInt8) }

/-- The whole text has been read: all is closed. -/
def finish (m : Machine) : Option Tree := do
  let m ← match m.expect with
    | .number bytes => m.endNumber bytes
    | _ => some m
  match m.expect, m.frames with
  | .separator, [] => m.result
  | _, _ => none

end Machine

/-- None if the bytes are no JSON text. -/
def ofBytes? (bytes : List UInt8) : Option Tree := do
  (← bytes.foldlM Machine.step {}).finish

end Tree
end CatalogSync.Json
