import CatalogSync.Consumer.Source
import CatalogSync.Text.Blank
import CatalogSync.Text.Utf8

/-! A source of lines of text: each line is a message on one topic, with its number as offset.

White space around a line does not count, and a line without anything else is no message. A line that is not
UTF-8 fails one poll. A failure to read fails one poll too and, like the end of the text, ends the source. -/

namespace CatalogSync

/-- What a line is worth. -/
inductive Line
  | blank
  | payload (text : String)
  | undecodable
  deriving DecidableEq, Repr

def Line.ofBytes (bytes : List UInt8) : Line :=
  match Text.ofBytes? bytes with
  | none => .undecodable
  | some s =>
    let text := Text.trim s
    if text.isEmpty then .blank else .payload text

structure LineSource where
  topic : String
  /-- What has not been read, without the ends of the lines. -/
  lines : List Line := []
  /-- Why reading fails where the lines end; none if nothing follows there. -/
  failure : Option String := none
  /-- How many lines have been read. -/
  position : Nat := 0
  subscribed : Bool := false
  isExhausted : Bool := false
  committed : Option Int := none
  deriving Inhabited

namespace LineSource

def lineEnd : UInt8 := 10

/-- The lines before each line end, and what follows the last one. -/
def split : List UInt8 → List (List UInt8) × List UInt8
  | [] => ([], [])
  | b :: bs =>
    let (lines, rest) := split bs
    if b = lineEnd then ([] :: lines, rest)
    else
      match lines with
      | [] => ([], b :: rest)
      | line :: lines => ((b :: line) :: lines, rest)

/-- What follows the last line end is a line if it is there and nothing fails; what a failure breaks off is
    lost. -/
def linesOf (bytes : List UInt8) (failure : Option String) : List (List UInt8) :=
  let (lines, rest) := split bytes
  if rest.isEmpty || failure.isSome then lines else lines ++ [rest]

def ofBytes (topic : String) (bytes : List UInt8) (failure : Option String) : LineSource :=
  { topic, lines := (linesOf bytes failure).map Line.ofBytes, failure }

/-! ### Calls -/

def subscribe (s : LineSource) (topics : List String) : Except ConsumerError Unit × LineSource :=
  if topics.contains s.topic then (.ok (), { s with subscribed := true })
  else (.error (.config (.topicMissing s.topic topics)), s)

def atEnd (s : LineSource) : Except ConsumerError (Option Message) :=
  match s.failure with
  | none => .ok none
  | some failure => .error (.io failure)

/-- The first line that is not blank, if any. -/
def advance (s : LineSource) : Except ConsumerError (Option Message) × LineSource :=
  let position := s.position + (s.lines.takeWhile (· = .blank)).length
  match s.lines.dropWhile (· = .blank) with
  | [] => (s.atEnd, { s with lines := [], position, isExhausted := true })
  | line :: lines =>
    let s := { s with lines, position := position + 1 }
    match line with
    | .payload text => (.ok (some { topic := s.topic, offset := s.position, payload := Text.bytes text }), s)
    | _ => (.error (.io "stream did not contain valid UTF-8"), s)

def poll (s : LineSource) : Except ConsumerError (Option Message) × LineSource :=
  if !s.subscribed then (.error (.notReady .notSubscribed), s)
  else if s.isExhausted then (.ok none, s)
  else s.advance

def commit (s : LineSource) (message : Message) : LineSource := { s with committed := some message.offset }

def close (s : LineSource) : LineSource := { s with isExhausted := true, subscribed := false }

/-- As many polls as it takes to read all lines and to see that they have ended. -/
def pollLimit (s : LineSource) : Nat := s.lines.length + 1

end LineSource

/-- The lines that the state holds. -/
def Source.lines {m : Type → Type} [Monad m] [MonadStateOf LineSource m] : Source m where
  subscribe topics := modifyGetThe LineSource fun s => s.subscribe topics
  poll _ := modifyGetThe LineSource fun s => s.poll
  commit message := modifyGetThe LineSource fun s => (.ok (), s.commit message)
  close := modifyGetThe LineSource fun s => (.ok (), s.close)
  isExhausted := do return (← getThe LineSource).isExhausted

end CatalogSync
