import CatalogSync.Reconcile.Error
import CatalogSync.Text.Quoted

/-! What can go wrong while messages are consumed. -/

namespace CatalogSync

/-- A source was used out of turn. -/
inductive NotReady
  | closed
  | notSubscribed
  deriving DecidableEq, Repr

inductive ConfigFault
  | noUsername
  | noPassword
  /-- The source delivers on `topic` only. -/
  | topicMissing (topic : String) (topics : List String)
  /-- A fault that a source has words for. -/
  | stated (message : String)
  deriving DecidableEq, Repr

inductive ConsumerError
  | source (message : String)
  | notReady (cause : NotReady)
  /-- A payload is no JSON, or no command. -/
  | invalidPayload
  | reconcile (error : ReconcileError)
  | config (fault : ConfigFault)
  | io (message : String)
  deriving DecidableEq, Repr

def NotReady.message : NotReady → String
  | closed => "source is closed"
  | notSubscribed => "poll before subscribe"

def ConfigFault.message : ConfigFault → String
  | noUsername => "security is enabled but no username is set"
  | noPassword => "security is enabled but no password is set"
  | topicMissing topic topics => "input topic " ++ topic ++ " is not among " ++ Text.quotedList topics
  | stated message => message

def ConsumerError.message : ConsumerError → String
  | source m => "source error: " ++ m
  | notReady cause => "source not ready: " ++ cause.message
  | invalidPayload => "invalid payload"
  | reconcile error => "reconcile error: " ++ error.message
  | config fault => "invalid configuration: " ++ fault.message
  | io m => "I/O error: " ++ m

end CatalogSync
