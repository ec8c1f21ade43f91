import CatalogSync.Consumer.Source
import CatalogSync.Event

/-! A source in memory: messages and failures wait in a queue. A poll takes the next failure, or the next message
of a topic subscribed to, with everything before it. -/

namespace CatalogSync

/-- A message, or the failure of a poll. -/
abbrev QueueEntry := Except String Message

structure MessageQueue where
  entries : List QueueEntry := []
  subscribed : List String := []
  /-- First one first. -/
  committed : List Message := []
  closed : Bool := false
  refusesCommits : Bool := false
  deriving Inhabited

namespace MessageQueue

def push (q : MessageQueue) (e : QueueEntry) : MessageQueue := { q with entries := q.entries ++ [e] }

def isExhausted (q : MessageQueue) : Bool := q.entries.isEmpty

/-- Is this a message of another topic? -/
def foreign (topics : List String) : QueueEntry → Bool
  | .ok message => !topics.contains message.topic
  | .error _ => false

/-- Why a poll is refused. -/
def fault? (q : MessageQueue) : Option NotReady :=
  if q.closed then some .closed else if q.subscribed.isEmpty then some .notSubscribed else none

/-! ### Calls -/

/-- Does nothing once the queue is closed. -/
def ifOpen {α : Type} (q : MessageQueue) (act : Except ConsumerError α × MessageQueue) :
    Except ConsumerError α × MessageQueue :=
  if q.closed then (.error (.notReady .closed), q) else act

def subscribe (q : MessageQueue) (topics : List String) : Except ConsumerError Unit × MessageQueue :=
  q.ifOpen (.ok (), { q with subscribed := topics })

/-- The entries that the next poll passes over. -/
def passedOver (q : MessageQueue) : List QueueEntry :=
  if q.fault?.isSome then [] else q.entries.takeWhile (foreign q.subscribed)

def poll (q : MessageQueue) : Except ConsumerError (Option Message) × MessageQueue :=
  match q.fault? with
  | some cause => (.error (.notReady cause), q)
  | none =>
    match q.entries.dropWhile (foreign q.subscribed) with
    | [] => (.ok none, { q with entries := [] })
    | .ok message :: entries => (.ok (some message), { q with entries })
    | .error failure :: entries => (.error (.source failure), { q with entries })

def commit (q : MessageQueue) (message : Message) : Except ConsumerError Unit × MessageQueue :=
  q.ifOpen <|
    if q.refusesCommits then (.error (.source "commit rejected"), q)
    else (.ok (), { q with committed := q.committed ++ [message] })

def close (q : MessageQueue) : MessageQueue := { q with closed := true }

/-- As many polls as it takes to empty the queue and to see that it is empty. -/
def pollLimit (q : MessageQueue) : Nat := q.entries.length + 1

def dropEvent? : QueueEntry → Option Event
  | .ok message => some (.messageDropped message.topic message.offset)
  | .error _ => none

end MessageQueue

/-- The queue that the state holds. -/
def Source.queue {m : Type → Type} [Monad m] [Reporting m] [MonadStateOf MessageQueue m] : Source m where
  subscribe topics := modifyGetThe MessageQueue fun q => q.subscribe topics
  poll _ := do
    reportAll ((← getThe MessageQueue).passedOver.filterMap MessageQueue.dropEvent?)
    modifyGetThe MessageQueue fun q => q.poll
  commit message := modifyGetThe MessageQueue fun q => q.commit message
  close := modifyGetThe MessageQueue fun q => (.ok (), q.close)
  isExhausted := do return (← getThe MessageQueue).isExhausted

end CatalogSync
