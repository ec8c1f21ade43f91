import CatalogSync.Consumer.Command
import CatalogSync.Reconcile.Run

/-! What is done with the payloads of messages. -/

namespace CatalogSync

variable {m : Type → Type} [Monad m] [Reporting m]

/-- Handles a payload from a topic. -/
abbrev Handler (m : Type → Type) := String → Json → m (Except ConsumerError Unit)

def Command.execute (store : Store m) (policy : Policy) (c : Command) : m (Except ConsumerError Report) := do
  let result ←
    match c with
    | .apply p d => Reconcile.apply store policy d p
    | .delete p d => Reconcile.delete store policy d p
  return result.mapError .reconcile

namespace Handler

def outcome (topic : String) (r : Report) : Event :=
  if r.isClean then .commandApplied topic
  else .commandAppliedInPart topic r.failedUpserts.length r.failedDeletes.length

/-- Executes the command that a payload spells. A run that was not clean is handled all the same. -/
def reconciling (store : Store m) (policy : Policy) : Handler m := fun topic payload => do
  match (Codec.decode payload : Option Command) with
  | none => return .error .invalidPayload
  | some command =>
    match ← command.execute store policy with
    | .error err => return .error err
    | .ok r =>
      report (outcome topic r)
      return .ok ()

end Handler
end CatalogSync
