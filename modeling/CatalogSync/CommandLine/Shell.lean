import CatalogSync.Duration
import CatalogSync.Http.Wire
import CatalogSync.Text.Utf8

/-! What a command needs from outside. -/

namespace CatalogSync.CommandLine

/-- What a file gives: its bytes and, if it cannot be read to its end, why. -/
structure Contents where
  bytes : List UInt8
  failure : Option String := none
  deriving DecidableEq, Repr, Inhabited

/-- None if the file cannot be read to its end, or is not UTF-8. -/
def Contents.text? (c : Contents) : Option String := if c.failure.isSome then none else Text.ofBytes? c.bytes

structure Shell (m : Type → Type) where
  /-- None if the file cannot be opened. -/
  openFile : String → m (Option Contents)
  standardInput : m Contents
  printLine : String → m Unit
  wire : Http.Wire m
  /-- A name for a run that no other run has. -/
  runName : m String
  /-- The time since some fixed moment. -/
  clock : m Duration

def Shell.readText {m : Type → Type} [Monad m] (shell : Shell m) (path : String) : m (Option String) := do
  return (← shell.openFile path) >>= Contents.text?

end CatalogSync.CommandLine
