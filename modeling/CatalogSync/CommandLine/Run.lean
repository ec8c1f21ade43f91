import CatalogSync.CommandLine.Arguments
import CatalogSync.CommandLine.Failure
import CatalogSync.CommandLine.Shell
import CatalogSync.Consumer.Lines
import CatalogSync.Consumer.Loop
import CatalogSync.Plan
import CatalogSync.Store.Catalog

/-! The commands of the command line. -/

namespace CatalogSync.CommandLine

variable {m : Type → Type} [Monad m] [Reporting m]

/-- What commands do: they may fail, and what they have done until then stays done. -/
abbrev Running (m : Type → Type) := ExceptT Failure m

def orFail {ε α : Type} (failure : ε → Failure) (x : m (Except ε α)) : Running m α :=
  ExceptT.mk do return (← x).mapError failure

def printAll (shell : Shell m) (lines : List String) : Running m Unit := lines.forM fun line => shell.printLine line

def loadDiff (shell : Shell m) (α : Type) [Codec α] (path : String) : Running m (Diff α) := do
  match ← shell.readText path with
  | none => throw (.unreadableDiff path)
  | some text =>
    match Codec.ofText? (Diff α) text with
    | none => throw (.malformedDiff path)
    | some d => return d

def loadSettings (shell : Shell m) : Option String → Running m Settings
  | none => return {}
  | some path => do orFail .settings (do return Settings.ofFile path (← shell.readText path))

def catalog (shell : Shell m) (s : Settings) : Running m (Catalog m) :=
  orFail .settings (pure (s.catalogUrl.map fun url => .atUrl url (.overWire shell.wire s.token)))

/-! ### Plan -/

def plan (shell : Shell m) (s : Settings) (path : String) (refs : Bool) (format : String) : Running m Unit := do
  let p ←
    if refs then do
      let d ← loadDiff shell EntityRef path
      orFail .reconcile (Plan.ofRefs d s.policy)
    else do
      let d ← loadDiff shell Entity path
      orFail .reconcile (Plan.ofEntities d s.policy)
  match format with
  | "json" => printAll shell [p.json.pretty 0]
  | "text" => printAll shell (p.lines path)
  | other => throw (.unknownFormat other)

/-! ### Apply -/

def indented (refs : List EntityRef) : List String := refs.map ("    " ++ ·.text)

/-- The lines shown for a run that took some time. -/
def reportLines (name : String) (time : Duration) (r : Report) : List String :=
  let counted := fun (label : String) (refs : List EntityRef) => label ++ toString refs.length
  ["Run " ++ name ++ " (" ++ r.provenance.text ++ ")",
    "  Classified:  " ++ toString r.created ++ " created, " ++ toString r.modified ++ " modified, " ++
      toString r.candidates ++ " deleted",
    counted "  Upserted:    " r.upserted, counted "  Deleted:     " r.deleted,
    counted "  Preserved:   " r.preserved] ++ indented r.preserved ++
  (if r.isClean then []
    else counted "  Failed upserts: " r.failedUpserts :: indented r.failedUpserts ++
      counted "  Failed deletes: " r.failedDeletes :: indented r.failedDeletes) ++
  ["  Duration:    " ++ time.text]

def apply (shell : Shell m) (s : Settings) (path : String) (refs : Bool) (p : Provenance) : Running m Unit := do
  let c ← catalog shell s
  printAll shell ["Applying " ++ path ++ " to " ++ c.baseUrl]
  let store := Store.catalog c
  let (start, r) ←
    if refs then do
      let d ← loadDiff shell EntityRef path
      let start ← shell.clock
      pure (start, ← orFail .reconcile (Reconcile.delete store s.policy d p))
    else do
      let d ← loadDiff shell Entity path
      let start ← shell.clock
      pure (start, ← orFail .reconcile (Reconcile.apply store s.policy d p))
  let stop ← shell.clock
  printAll shell ("" :: reportLines (← shell.runName) ⟨stop.nanoseconds - start.nanoseconds⟩ r)
  if !r.isClean then throw (.incomplete r.failedUpserts.length r.failedDeletes.length)
  printAll shell ["", "✓ Catalog reconciled"]

/-! ### Consume -/

def openInput (shell : Shell m) : Option String → Running m Contents
  | none => shell.standardInput
  | some path => do
    match ← shell.openFile path with
    | none => throw (.unreadableInput path)
    | some contents => return contents

def statsLines (s : Consumer.Stats) : List String :=
  ["Consumer stopped", "  Processed: " ++ toString s.processed, "  Failed:    " ++ toString s.failed,
    "  Committed: " ++ toString s.committed]

/-- Each line of the input is a command on the topic that announces changes. -/
def consume (shell : Shell m) (s : Settings) (input : Option String) : Running m Unit := do
  let contents ← openInput shell input
  let lines := LineSource.ofBytes s.consumer.changeLog contents.bytes contents.failure
  let c ← catalog shell s
  let lifted : Catalog (StateT LineSource m) := ⟨c.baseUrl, ⟨fun r => c.client.send r⟩⟩
  let handle := Handler.reconciling (.catalog lifted) s.policy
  let (result, _) ← (Consumer.run s.consumer .lines handle (pure false) lines.pollLimit).run lines
  match result with
  | none => throw .endless
  | some (.error err) => throw (.consumer err)
  | some (.ok stats) => printAll shell (statsLines stats)

/-! ### All commands -/

def versionLines : List String := ["Recon CLI v0.4.0"]

/-- What the option for the version shows. -/
def programLine : String := "recon 0.4.0"

def execute (shell : Shell m) (i : Invocation) : Running m Unit := do
  let loaded ← loadSettings shell i.config
  let s := if i.sequential then loaded.sequentially else loaded
  match i.action with
  | .plan diff refs format => plan shell s diff refs format
  | .apply diff refs userTriggered baseUrl token =>
    apply shell (s.override baseUrl token) diff refs (if userTriggered then .userTriggered else .automated)
  | .consume input organization baseUrl token =>
    let s := s.override baseUrl token
    consume shell { s with consumer.organization := organization.or s.consumer.organization } input
  | .version => printAll shell versionLines

end CatalogSync.CommandLine
