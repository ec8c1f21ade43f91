import CatalogSync.Consumer.Error
import CatalogSync.Duration

/-! Sources of messages, and the calls made to them. -/

namespace CatalogSync

structure Message where
  topic : String
  partition : Int := 0
  /-- The place in the partition. -/
  offset : Int
  payload : List UInt8
  deriving DecidableEq, Repr, Inhabited

/-- A stream of messages, as what each call to it does. -/
structure Source (m : Type → Type) where
  /-- Takes the place of earlier subscriptions. -/
  subscribe : List String → m (Except ConsumerError Unit)
  /-- The next message, or none if none came in time. -/
  poll : Duration → m (Except ConsumerError (Option Message))
  /-- Marks a message as dealt with. -/
  commit : Message → m (Except ConsumerError Unit)
  close : m (Except ConsumerError Unit)
  /-- Is it certain that no message will ever come? -/
  isExhausted : m Bool

/-- A call with its answer. -/
inductive SourceCall
  | subscribe (topics : List String) (answer : Except ConsumerError Unit)
  | poll (timeout : Duration) (answer : Except ConsumerError (Option Message))
  | commit (message : Message) (answer : Except ConsumerError Unit)
  | close (answer : Except ConsumerError Unit)

/-- The calls made to a source, first one first. -/
structure SourceLog where
  calls : List SourceCall := []
  deriving Inhabited

namespace Source

variable {m : Type → Type} [Monad m] [MonadStateOf SourceLog m]

private def answering {α : Type} (act : m α) (call : α → SourceCall) : m α := do
  let a ← act
  modifyThe SourceLog fun log => ⟨log.calls ++ [call a]⟩
  return a

/-- The same source, with each call noted once it is answered. -/
def recorded (source : Source m) : Source m where
  subscribe topics := answering (source.subscribe topics) (.subscribe topics)
  poll timeout := answering (source.poll timeout) (.poll timeout)
  commit message := answering (source.commit message) (.commit message)
  close := answering source.close .close
  isExhausted := source.isExhausted

end Source
end CatalogSync
