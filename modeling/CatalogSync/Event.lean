import CatalogSync.Consumer.Error
import CatalogSync.Http.Message

/-! What a run tells about itself while it goes on. -/

namespace CatalogSync

inductive Level
  | debug
  | info
  | warn
  | error
  deriving DecidableEq, Repr

def Level.text : Level → String
  | debug => "DEBUG"
  | info => "INFO"
  | warn => "WARN"
  | error => "ERROR"

inductive Event
  /- ordering -/
  | cycleBroken (item : EntityRef)
  | cycleBrokenAgain (item : EntityRef)
  /- guard -/
  | keptSpared (item : EntityRef)
  | relatedSpared (item : EntityRef)
  /- runs -/
  | changesFound (created deleted modified : Nat)
  | nothingToDelete
  | candidatesFound (candidates kept : Nat)
  | upserting (count : Nat)
  | orderingForCreation (searched : Nat)
  | upsertFailed (item : EntityRef) (error : StoreError)
  | upsertUnanswered (item : EntityRef)
  | deleting (count : Nat)
  | batchDeleteFailed (count : Nat) (error : StoreError)
  | deleteFailed (item : EntityRef) (error : StoreError)
  | finished (upserted failedUpserts deleted failedDeletes preserved : Nat)
  /- stores -/
  | requested (method : Http.Method) (url : String)
  /- consumers -/
  | consumerStarting (topics : List String)
  | consumerClosing
  | consumerStopped (processed failed committed : Nat)
  | consumerCancelled
  | pollFailed (error : ConsumerError)
  | sourceExhausted
  | sourceExhaustedAfterError
  | messageTaken (topic : String) (partition offset : Int)
  | messageFailed (topic : String) (partition offset : Int) (error : ConsumerError)
  | commitFailed (offset : Int) (error : ConsumerError)
  | messageDropped (topic : String) (offset : Int)
  | commandApplied (topic : String)
  | commandAppliedInPart (topic : String) (failedUpserts failedDeletes : Nat)
  deriving DecidableEq, Repr

namespace Event

def level : Event → Level
  | cycleBroken _ | upsertFailed .. | upsertUnanswered _ | batchDeleteFailed .. | deleteFailed .. |
    commitFailed .. | commandAppliedInPart .. => .warn
  | cycleBrokenAgain _ | keptSpared _ | nothingToDelete | orderingForCreation _ | requested .. |
    sourceExhausted | sourceExhaustedAfterError | messageDropped .. => .debug
  | pollFailed _ | messageFailed .. => .error
  | relatedSpared _ | changesFound .. | candidatesFound .. | upserting _ | deleting _ | finished .. |
    consumerStarting _ | consumerClosing | consumerStopped .. | consumerCancelled | messageTaken .. |
    commandApplied _ => .info

def message : Event → String
  | cycleBroken _ => "dependency cycle detected, breaking it at the earliest input entity"
  | cycleBrokenAgain _ => "breaking dependency cycle again"
  | keptSpared _ => "skipping delete of kept entity"
  | relatedSpared _ =>
    "skipping delete: entity is related to kept entities and missing related entities are auto-created"
  | changesFound .. => "updating entity diff"
  | nothingToDelete => "nothing to delete"
  | candidatesFound .. => "determining entities to delete"
  | upserting _ => "upserting entities"
  | orderingForCreation _ => "ordering entities for creation"
  | upsertFailed .. => "failed to upsert entity"
  | upsertUnanswered _ => "no result for entity in batch upsert"
  | deleting _ => "deleting entities"
  | batchDeleteFailed .. => "batch delete failed"
  | deleteFailed .. => "failed to delete entity"
  | finished .. => "reconciliation finished"
  | requested .. => "store request"
  | consumerStarting _ => "starting consumer"
  | consumerClosing => "closing consumer"
  | consumerStopped .. => "consumer stopped"
  | consumerCancelled => "consumer cancelled"
  | pollFailed _ => "failed to poll message"
  | sourceExhausted => "source exhausted"
  | sourceExhaustedAfterError => "source exhausted after error"
  | messageTaken .. => "processing message"
  | messageFailed .. => "failed to process message"
  | commitFailed .. => "failed to commit offset"
  | messageDropped .. => "dropping message from unsubscribed topic"
  | commandApplied _ => "reconciliation command applied"
  | commandAppliedInPart .. => "reconciliation command applied with failures"

private def entityFields (r : EntityRef) : List (String × Json) :=
  [("identifier", .string r.identifier), ("blueprint", .string r.blueprint)]

private def placeFields (topic : String) (partition offset : Int) : List (String × Json) :=
  [("topic", .string topic), ("partition", .number (.int partition)), ("offset", .number (.int offset))]

/-- Numbers as numbers, all else as text. -/
def fields : Event → List (String × Json)
  | cycleBroken r | cycleBrokenAgain r | keptSpared r | relatedSpared r => entityFields r
  | changesFound created deleted modified =>
    [("created", .nat created), ("deleted", .nat deleted), ("modified", .nat modified)]
  | candidatesFound candidates kept => [("candidates", .nat candidates), ("kept", .nat kept)]
  | upserting n | deleting n => [("count", .nat n)]
  | orderingForCreation n => [("search_identifier", .nat n)]
  | upsertFailed r e | deleteFailed r e => [("entity", .string r.text), ("error", .string e.message)]
  | upsertUnanswered r => [("entity", .string r.text)]
  | batchDeleteFailed n e => [("count", .nat n), ("error", .string e.message)]
  | finished upserted failedUpserts deleted failedDeletes preserved =>
    [("upserted", .nat upserted), ("failed_upserts", .nat failedUpserts), ("deleted", .nat deleted),
      ("failed_deletes", .nat failedDeletes), ("preserved", .nat preserved)]
  | requested method url => [("method", .string method.name), ("url", .string url)]
  | consumerStarting topics => [("topics", .string (Text.quotedList topics))]
  | consumerStopped processed failed committed =>
    [("processed", .nat processed), ("failed", .nat failed), ("committed", .nat committed)]
  | pollFailed e => [("error", .string e.message)]
  | messageTaken topic partition offset => placeFields topic partition offset
  | messageFailed topic partition offset e => placeFields topic partition offset ++ [("error", .string e.message)]
  | commitFailed offset e => [("offset", .number (.int offset)), ("error", .string e.message)]
  | messageDropped topic offset => [("topic", .string topic), ("offset", .number (.int offset))]
  | commandApplied topic => [("topic", .string topic)]
  | commandAppliedInPart topic failedUpserts failedDeletes =>
    [("topic", .string topic), ("failed_upserts", .nat failedUpserts), ("failed_deletes", .nat failedDeletes)]
  | nothingToDelete | consumerClosing | consumerCancelled | sourceExhausted | sourceExhaustedAfterError => []

end Event

/-! ### Who listens -/

/-- Computations that report events. -/
class Reporting (m : Type → Type) where
  report : Event → m Unit

export Reporting (report)

/-- Reports events one after the other. -/
def reportAll {m : Type → Type} [Monad m] [Reporting m] (events : List Event) : m Unit := events.forM report

/-- Nobody listens. -/
instance : Reporting Id := ⟨fun _ => ()⟩

instance {σ : Type} {m : Type → Type} [Monad m] [Reporting m] : Reporting (StateT σ m) where
  report e s := do
    report e
    pure ((), s)

/-- Computations that keep the events they report. -/
def Journal (α : Type) : Type := StateM (Array Event) α

namespace Journal

instance : Monad Journal := inferInstanceAs (Monad (StateM (Array Event)))

instance : Reporting Journal := ⟨fun e events => ((), events.push e)⟩

/-- The result, and the events in the order of their report. -/
def run {α : Type} (x : Journal α) : α × List Event :=
  let (a, events) := (show StateM (Array Event) α from x) #[]
  (a, events.toList)

end Journal
end CatalogSync
