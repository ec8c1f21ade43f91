import CatalogSync.Consumer.Error
import CatalogSync.Settings

/-! Why a command fails. -/

namespace CatalogSync.CommandLine

inductive Failure
  | settings (error : SettingsError)
  | unreadableDiff (path : String)
  | malformedDiff (path : String)
  | unreadableInput (path : String)
  | unknownFormat (format : String)
  | reconcile (error : ReconcileError)
  | consumer (error : ConsumerError)
  /-- The run went to its end, but not all of its writes and deletes succeeded. -/
  | incomplete (upserts deletes : Nat)
  /-- The consumer went on although all lines of the input were read. -/
  | endless
  deriving DecidableEq, Repr

def Failure.message : Failure → String
  | settings error => error.message
  | unreadableDiff path => "failed to read diff " ++ path
  | malformedDiff path => "failed to parse diff " ++ path
  | unreadableInput path => "failed to open " ++ path
  | unknownFormat format => "unknown format: " ++ format
  | reconcile error => error.message
  | consumer error => error.message
  | incomplete upserts deletes => toString upserts ++ " upserts and " ++ toString deletes ++ " deletes failed"
  | endless => "the input does not end"

end CatalogSync.CommandLine
