import CatalogSync.Consumer.Handler
import CatalogSync.Consumer.Settings
import CatalogSync.Consumer.Source

/-! Consuming: polls a source, hands each message to a handler and commits it, whatever came of it, until the
source is exhausted or the consumer cancelled.

Nothing that a poll, a handler or a commit fails at stops the loop. Once the subscription was tried, the source is
closed in the end. -/

namespace CatalogSync.Consumer

structure Stats where
  /-- Messages that were handled. -/
  processed : Nat := 0
  /-- Messages that could not be decoded or handled. -/
  failed : Nat := 0
  committed : Nat := 0
  /-- Polls that failed. -/
  sourceErrors : Nat := 0
  deriving DecidableEq, Repr, Inhabited

variable {m : Type → Type} [Monad m] [Reporting m]

/-- Hands the payload to the handler, if it is JSON. -/
def handlePayload (handle : Handler m) (message : Message) : m (Except ConsumerError Unit) :=
  match Codec.ofBytes? Json message.payload with
  | none => return .error .invalidPayload
  | some payload => handle message.topic payload

/-- Deals with one message. -/
def deliver (source : Source m) (handle : Handler m) (stats : Stats) (message : Message) : m Stats := do
  report (.messageTaken message.topic message.partition message.offset)
  let stats ←
    match ← handlePayload handle message with
    | .ok _ => pure { stats with processed := stats.processed + 1 }
    | .error err =>
      report (.messageFailed message.topic message.partition message.offset err)
      pure { stats with failed := stats.failed + 1 }
  match ← source.commit message with
  | .ok _ => return { stats with committed := stats.committed + 1 }
  | .error err =>
    report (.commitFailed message.offset err)
    return stats

/-- Polls at most `limit` times; none if this did not suffice. -/
def pollAtMost (source : Source m) (handle : Handler m) (cancelled : m Bool) (timeout : Duration) :
    Nat → Stats → m (Option Stats)
  | limit, stats => do
    if ← cancelled then return some stats
    match limit with
    | 0 => return none
    | limit + 1 =>
      match ← source.poll timeout with
      | .ok (some message) =>
        let stats ← deliver source handle stats message
        pollAtMost source handle cancelled timeout limit stats
      | .ok none =>
        if ← source.isExhausted then
          report .sourceExhausted
          return some stats
        else pollAtMost source handle cancelled timeout limit stats
      | .error err =>
        report (.pollFailed err)
        let stats := { stats with sourceErrors := stats.sourceErrors + 1 }
        if ← source.isExhausted then
          report .sourceExhaustedAfterError
          return some stats
        else pollAtMost source handle cancelled timeout limit stats

/-- Reports the end of a loop that was cancelled. -/
def reportCancelled (cancelled : m Bool) : m Unit := do
  if ← cancelled then report .consumerCancelled

/-- Consumes until the source is exhausted or the consumer cancelled; none if `limit` polls did not suffice. -/
def run (settings : ConsumerSettings) (source : Source m) (handle : Handler m) (cancelled : m Bool)
    (limit : Nat) : m (Option (Except ConsumerError Stats)) := do
  if let some fault := settings.fault? then return some (.error (.config fault))
  report (.consumerStarting settings.topics)
  match ← source.subscribe settings.topics with
  | .error err =>
    report .consumerClosing
    let _ ← source.close
    return some (.error err)
  | .ok _ =>
    match ← pollAtMost source handle cancelled settings.pollTimeout limit {} with
    | none => return none
    | some stats =>
      reportCancelled cancelled
      report .consumerClosing
      match ← source.close with
      | .error err => return some (.error err)
      | .ok _ =>
        report (.consumerStopped stats.processed stats.failed stats.committed)
        return some (.ok stats)

end CatalogSync.Consumer
