import CatalogSync.Consumer.Error
import CatalogSync.Duration
import CatalogSync.Json.Codec

/-! How messages are consumed: which topics, from which brokers, under which name. -/

namespace CatalogSync
open Codec

structure ConsumerSettings where
  /-- The organization whose topics are consumed. -/
  organization : Option String := none
  /-- Addresses, separated by commas. -/
  brokers : String := "localhost:9092"
  secured : Bool := false
  protocol : String := "SASL_SSL"
  mechanism : String := "SCRAM-SHA-512"
  /-- Also the name of the consumer group. -/
  username : Option String := none
  password : Option String := none
  pollMillis : UInt64 := 1000
  deriving DecidableEq, Repr, Inhabited

namespace ConsumerSettings

def forOrganization (name : String) : ConsumerSettings := { organization := some name }

def withBrokers (c : ConsumerSettings) (brokers : String) : ConsumerSettings := { c with brokers }

/-- Credentials turn security on. -/
def withCredentials (c : ConsumerSettings) (username password : String) : ConsumerSettings :=
  { c with secured := true, username := some username, password := some password }

/-- Parts of a millisecond do not count, and what is too long is cut. -/
def withPollTimeout (c : ConsumerSettings) (d : Duration) : ConsumerSettings :=
  { c with pollMillis := .ofNat (min d.millis (UInt64.size - 1)) }

/-- How long a poll may wait. -/
def pollTimeout (c : ConsumerSettings) : Duration := .ofMillis c.pollMillis.toNat

/-! ### What follows from the settings -/

/-- A topic of the organization; an empty name is none. -/
def ofOrganization (organization : Option String) (topic : String) : String :=
  match organization with
  | none | some "" => topic
  | some name => name ++ "." ++ topic

/-- Changes of the catalog are announced on this topic. -/
def changeLog (c : ConsumerSettings) : String := ofOrganization c.organization "change.log"

def topics (c : ConsumerSettings) : List String := [ofOrganization c.organization "runs", c.changeLog]

/-- The name that unsecured consumers share, else the user's. -/
def groupName (c : ConsumerSettings) : String := if c.secured then c.username.getD "no-security" else "no-security"

/-- Security needs a user's name and a password; the password may be empty. -/
def fault? (c : ConsumerSettings) : Option ConfigFault :=
  if !c.secured then none
  else if (c.username.getD "").isEmpty then some .noUsername
  else if c.password.isNone then some .noPassword
  else none

def property (name : String) (value : Option String) : List (String × String) := value.toList.map (name, ·)

/-- What a client of the brokers is told. -/
def brokerProperties (c : ConsumerSettings) : SortedMap String String :=
  SortedMap.ofList <|
    [("bootstrap.servers", c.brokers), ("group.id", c.groupName), ("enable.auto.commit", "false")] ++
    if c.secured then
      [("security.protocol", c.protocol), ("sasl.mechanism", c.mechanism)] ++
        property "sasl.username" c.username ++ property "sasl.password" c.password
    else []

/-! ### Text forms -/

def quotedOption : Option String → String
  | none => "None"
  | some s => "Some(" ++ Text.quoted s ++ ")"

/-- All settings in one line, but for the password. -/
def text (c : ConsumerSettings) : String :=
  let fields := [("org_id", quotedOption c.organization), ("brokers", Text.quoted c.brokers),
    ("security_enabled", if c.secured then "true" else "false"), ("security_protocol", Text.quoted c.protocol),
    ("authentication_mechanism", Text.quoted c.mechanism), ("username", quotedOption c.username),
    ("password", quotedOption (c.password.map fun _ => "<redacted>")), ("poll_timeout_ms", toString c.pollMillis.toNat)]
  "ConsumerConfig \x7b " ++ ", ".intercalate (fields.map fun f => f.1 ++ ": " ++ f.2) ++ " \x7d"

def fields : Fields :=
  [("org_id", .any), ("brokers", .any), ("security_enabled", .any), ("security_protocol", .any),
    ("authentication_mechanism", .any), ("username", .any), ("password", .any), ("poll_timeout_ms", .any)]

instance : Codec ConsumerSettings where
  shape := .record fields
  encode c := .object [("org_id", encode c.organization), ("brokers", .string c.brokers),
    ("security_enabled", .bool c.secured), ("security_protocol", .string c.protocol),
    ("authentication_mechanism", .string c.mechanism), ("username", encode c.username),
    ("password", encode c.password), ("poll_timeout_ms", encode c.pollMillis)]
  decode j := do
    let unset : ConsumerSettings := {}
    if isRecord fields j then
      some {
        organization := ← withDefault unset.organization fields j "org_id"
        brokers := ← withDefault unset.brokers fields j "brokers"
        secured := ← withDefault unset.secured fields j "security_enabled"
        protocol := ← withDefault unset.protocol fields j "security_protocol"
        mechanism := ← withDefault unset.mechanism fields j "authentication_mechanism"
        username := ← withDefault unset.username fields j "username"
        password := ← withDefault unset.password fields j "password"
        pollMillis := ← withDefault unset.pollMillis fields j "poll_timeout_ms" }
    else none

end ConsumerSettings
end CatalogSync
