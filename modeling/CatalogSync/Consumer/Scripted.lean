import CatalogSync.Consumer.Source

/-! A source with prepared answers. A poll takes the next one; once they are used up, it cancels the consumer. -/

namespace CatalogSync

structure PreparedPoll where
  answer : Except String (Option Message)
  /-- The consumer is cancelled meanwhile. -/
  cancels : Bool := false

structure PreparedSource where
  polls : List PreparedPoll := []
  subscribeFailure : Option String := none
  commitFailure : Option String := none
  closeFailure : Option String := none
  deriving Inhabited

namespace PreparedSource

/-- Fails with the prepared failure, if any. -/
def outcome (failure : Option String) : Except ConsumerError Unit :=
  match failure with
  | none => .ok ()
  | some message => .error (.source message)

def next (s : PreparedSource) : PreparedPoll × PreparedSource :=
  match s.polls with
  | [] => (⟨.ok none, true⟩, s)
  | p :: polls => (p, { s with polls })

/-- As many polls as it takes to use the answers up and to be cancelled. -/
def pollLimit (s : PreparedSource) : Nat := s.polls.length + 1

end PreparedSource

/-- The source that the state holds; `cancel` cancels the consumer. -/
def Source.prepared {m : Type → Type} [Monad m] [MonadStateOf PreparedSource m] (cancel : m Unit) : Source m where
  subscribe _ := do return PreparedSource.outcome (← getThe PreparedSource).subscribeFailure
  poll _ := do
    let p ← modifyGetThe PreparedSource PreparedSource.next
    if p.cancels then cancel
    return p.answer.mapError .source
  commit _ := do return PreparedSource.outcome (← getThe PreparedSource).commitFailure
  close := do return PreparedSource.outcome (← getThe PreparedSource).closeFailure
  isExhausted := pure false

end CatalogSync
