import CatalogSync.Consumer.Settings
import CatalogSync.Policy

/-! What can be set in a configuration file. -/

namespace CatalogSync
open Codec

structure Settings where
  /-- Where the catalog is. -/
  baseUrl : Option String := none
  /-- Sent to the catalog with every request. -/
  token : Option String := none
  /-- How many seconds a request may take. -/
  timeout : Option UInt64 := none
  policy : Policy := {}
  consumer : ConsumerSettings := {}
  deriving DecidableEq, Repr, Inhabited

inductive SettingsError
  | unreadable (path : String)
  /-- The file is no JSON, or does not spell settings. -/
  | malformed (path : String)
  | missing (setting : String)
  deriving DecidableEq, Repr

def SettingsError.message : SettingsError → String
  | unreadable path => "failed to read config " ++ Text.quoted path
  | malformed path => "failed to parse config " ++ Text.quoted path
  | missing setting => "missing setting: " ++ setting ++ " (set it in the config file or pass --" ++ setting ++ ")"

namespace Settings

/-- What is given replaces what was set. -/
def override (s : Settings) (baseUrl token : Option String) : Settings :=
  { s with baseUrl := baseUrl.or s.baseUrl, token := token.or s.token }

/-- Turns both modes of the policy off and keeps its options. -/
def sequentially (s : Settings) : Settings :=
  { s with policy := { s.policy with autoCreateRelated := false, cascadeDeletes := false } }

/-- An empty base URL is none. -/
def catalogUrl (s : Settings) : Except SettingsError String :=
  match s.baseUrl with
  | none | some "" => .error (.missing "base-url")
  | some url => .ok url

def fields : Fields :=
  [("base_url", .any), ("token", .any), ("timeout_secs", .any), ("reconcile", shape Policy),
    ("consumer", shape ConsumerSettings)]

instance : Codec Settings where
  shape := .record fields
  encode s := .object [("base_url", encode s.baseUrl), ("token", encode s.token), ("timeout_secs", encode s.timeout),
    ("reconcile", encode s.policy), ("consumer", encode s.consumer)]
  decode j := do
    if isRecord fields j then
      some {
        baseUrl := ← withDefault none fields j "base_url"
        token := ← withDefault none fields j "token"
        timeout := ← withDefault none fields j "timeout_secs"
        policy := ← withDefault {} fields j "reconcile"
        consumer := ← withDefault {} fields j "consumer" }
    else none

/-- The settings that the file at `path` spells; `text` is what it holds, if it can be read. -/
def ofFile (path : String) (text : Option String) : Except SettingsError Settings :=
  match text with
  | none => .error (.unreadable path)
  | some text =>
    match ofText? Settings text with
    | none => .error (.malformed path)
    | some s => .ok s

end Settings
end CatalogSync
