import CatalogSync.Text.Percent

/-! Addresses that requests are sent to, as a URL with the scheme `http` or `https` spells them.

The path of an address has no segment that stands for its own place or for the one above, and both path and query
are in escaped form. A fragment and a user's name address nothing and are left out. -/

namespace CatalogSync.Http

structure Address where
  secure : Bool
  /-- In lower case. -/
  host : String
  port : Nat
  /-- Starts with a slash. -/
  path : String
  query : Option String
  deriving DecidableEq, Repr

namespace Address

/-- The part of a URL that stands in a request line. -/
def target (a : Address) : String :=
  match a.query with
  | none => a.path
  | some q => a.path ++ "?" ++ q

/-! ### Text -/

def isControl (c : Char) : Bool := c.toNat < 0x20

/-- Blanks and controls at both ends do not count, tabs and line ends nowhere. -/
def strip (cs : List Char) : List Char :=
  let outer := fun c => isControl c || c = ' '
  ((cs.dropWhile outer).reverse.dropWhile outer).reverse.filter fun c => c ≠ '\t' ∧ c ≠ '\n' ∧ c ≠ '\r'

def isSlash (c : Char) : Bool := c = '/' || c = '\\'

def endsAuthority (c : Char) : Bool := isSlash c || c = '?' || c = '#'

def lower (cs : List Char) : String := String.ofList (cs.map Char.toLower)

/-! ### Host and port -/

/-- The characters after the last `@`. -/
def afterUser (cs : List Char) : List Char := (cs.reverse.takeWhile (· ≠ '@')).reverse

/-- What comes before the first colon outside brackets, and what comes after it. -/
def splitPort (bracketed : Bool) : List Char → List Char × List Char
  | [] => ([], [])
  | c :: cs =>
    if c = ':' ∧ !bracketed then ([], cs)
    else
      let (host, port) := splitPort (if c = '[' then true else if c = ']' then false else bracketed) cs
      (c :: host, port)

def isHostChar (c : Char) : Bool :=
  0x20 < c.toNat && c.toNat < 0x7F && !"#%/:<>?@[\\]^|".toList.contains c

def isHexChar (c : Char) : Bool := c.isDigit || ('a' ≤ c && c ≤ 'f') || ('A' ≤ c && c ≤ 'F')

/-- A name, or a numeric address in brackets. -/
def host? (cs : List Char) : Option String :=
  match cs with
  | [] => none
  | '[' :: inner =>
    if inner.getLast? = some ']' && inner.dropLast.all fun c => isHexChar c || c = ':' || c = '.' then some (lower cs)
    else none
  | _ => if cs.all isHostChar then some (lower cs) else none

def number (cs : List Char) : Nat := cs.foldl (fun n c => 10 * n + (c.toNat - '0'.toNat)) 0

def port? (secure : Bool) (cs : List Char) : Option Nat :=
  if cs.isEmpty then some (if secure then 443 else 80)
  else if cs.all Char.isDigit && number cs < UInt16.size then some (number cs)
  else none

/-! ### Path and query -/

/-- The lists between the characters that `sep` accepts. -/
def splitAtAll (sep : Char → Bool) : List Char → List (List Char)
  | [] => [[]]
  | c :: cs =>
    match splitAtAll sep cs with
    | [] => [[c]]
    | part :: parts => if sep c then [] :: part :: parts else (c :: part) :: parts

/-- Segments that stand for their own place. -/
def isHere (segment : List Char) : Bool := [".", "%2e"].contains (lower segment)

/-- Segments that stand for the place above. -/
def isAbove (segment : List Char) : Bool := ["..", ".%2e", "%2e.", "%2e%2e"].contains (lower segment)

/-- A letter with a colon or a bar names a drive. -/
def isDrive : List Char → Bool
  | [letter, mark] => letter.isAlpha && (mark = ':' || mark = '|')
  | _ => false

/-- What leads to the place above. There is none above the first place, and no way leads out of a drive. -/
def above : List (List Char) → List (List Char)
  | [] => []
  | s :: kept => if isDrive s then s :: kept else kept

/-- What is kept before the segments `rest`; a place at the end of a path is an empty segment. -/
def placeBefore (rest kept : List (List Char)) : List (List Char) := if rest.isEmpty then [] :: kept else kept

/-- Follows segments from a place; `kept` leads to the place and has its last segment first. -/
def resolve (kept : List (List Char)) : List (List Char) → List (List Char)
  | [] => kept
  | s :: rest =>
    if isAbove s then resolve (placeBefore rest (above kept)) rest
    else if isHere s then resolve (placeBefore rest kept) rest
    else resolve (s :: kept) rest

def isPlain (escaped : String) (b : UInt8) : Bool :=
  0x20 < b && b < 0x7F && !escaped.toList.contains (Char.ofNat b.toNat)

def escapePath (cs : List Char) : String := Text.Percent.encodeUnless (isPlain "\"#<>?\x60\x7b\x7d") (String.ofList cs)

def escapeQuery (cs : List Char) : String := Text.Percent.encodeUnless (isPlain "\"#<>'") (String.ofList cs)

def pathOf (cs : List Char) : String :=
  "/" ++ "/".intercalate ((resolve [] (splitAtAll isSlash cs.tail)).reverse.map escapePath)

/-! ### URLs -/

def scheme? (cs : List Char) : Option Bool :=
  let name := lower cs
  if name = "http" then some false else if name = "https" then some true else none

/-- None if the text is no URL, or has no scheme of the two. -/
def ofUrl? (url : String) : Option Address := do
  let cs := strip url.toList
  let secure ← scheme? (cs.takeWhile (· ≠ ':'))
  let rest := ((cs.dropWhile (· ≠ ':')).drop 1).dropWhile isSlash
  let (host, port) := splitPort false (afterUser (rest.takeWhile fun c => !endsAuthority c))
  let place := (rest.dropWhile fun c => !endsAuthority c).takeWhile (· ≠ '#')
  let query :=
    match place.dropWhile (· ≠ '?') with
    | [] => none
    | _ :: q => some (escapeQuery q)
  some { secure, host := ← host? host, port := ← port? secure port, path := pathOf (place.takeWhile (· ≠ '?')), query }

end Address
end CatalogSync.Http
