import CatalogSync.Json.Number
import CatalogSync.Json.Quoted

/-! JSON text, compact and indented. Members are written in the order in which they are listed. -/

namespace CatalogSync.Json

mutual

/-- Without any blank. -/
def compact : Json → String
  | .null => "null"
  | .bool true => "true"
  | .bool false => "false"
  | .number n => n.text
  | .string s => Quoted.escape s
  | .array items => "[" ++ compactItems items ++ "]"
  | .object members => "\x7b" ++ compactMembers members ++ "\x7d"

def compactItems : List Json → String
  | [] => ""
  | [j] => compact j
  | j :: js => compact j ++ "," ++ compactItems js

def compactMembers : List (String × Json) → String
  | [] => ""
  | [(k, j)] => Quoted.escape k ++ ":" ++ compact j
  | (k, j) :: ms => Quoted.escape k ++ ":" ++ compact j ++ "," ++ compactMembers ms

end

private def indent (depth : Nat) : String := String.ofList (List.replicate (2 * depth) ' ')

mutual

/-- A line for each item and member, two blanks deeper than its container; empty containers stay on one line. -/
def pretty (depth : Nat) : Json → String
  | .array [] => "[]"
  | .object [] => "\x7b\x7d"
  | .array (j :: js) => "[\n" ++ prettyItems (depth + 1) (j :: js) ++ "\n" ++ indent depth ++ "]"
  | .object (m :: ms) => "\x7b\n" ++ prettyMembers (depth + 1) (m :: ms) ++ "\n" ++ indent depth ++ "\x7d"
  | .null => "null"
  | .bool true => "true"
  | .bool false => "false"
  | .number n => n.text
  | .string s => Quoted.escape s

def prettyItems (depth : Nat) : List Json → String
  | [] => ""
  | [j] => indent depth ++ pretty depth j
  | j :: js => indent depth ++ pretty depth j ++ ",\n" ++ prettyItems depth js

def prettyMembers (depth : Nat) : List (String × Json) → String
  | [] => ""
  | [(k, j)] => indent depth ++ Quoted.escape k ++ ": " ++ pretty depth j
  | (k, j) :: ms => indent depth ++ Quoted.escape k ++ ": " ++ pretty depth j ++ ",\n" ++ prettyMembers depth ms

end

end CatalogSync.Json
