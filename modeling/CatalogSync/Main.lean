import CatalogSync.CommandLine.Run
import CatalogSync.CommandLine.RunName

/-! The program. It makes no connections: to each request there is no response. -/

namespace CatalogSync.CommandLine

/-- The program writes events to standard error; this says whether it also writes those of the lowest level. -/
abbrev Verbose := Bool

def eventLine (e : Event) : String :=
  e.level.text ++ " " ++ e.message ++ String.join (e.fields.map fun f => " " ++ f.1 ++ "=" ++ f.2.compact)

instance : Reporting (ReaderT Verbose IO) where
  report e := do
    if (← read) || e.level ≠ .debug then IO.eprintln (eventLine e)

def readAll (h : IO.FS.Handle) : IO Contents := do
  try
    return { bytes := (← h.readBinToEnd).toList }
  catch err => return { bytes := [], failure := some (toString err) }

partial def readStream (s : IO.FS.Stream) (bytes : ByteArray) : IO ByteArray := do
  let more ← s.read 65536
  if more.isEmpty then return bytes else readStream s (bytes ++ more)

def shell : Shell (ReaderT Verbose IO) where
  openFile path := do
    try
      return some (← readAll (← IO.FS.Handle.mk path .read))
    catch _ => return none
  standardInput := do
    try
      return { bytes := (← readStream (← IO.getStdin) .empty).toList }
    catch err => return { bytes := [], failure := some (toString err) }
  printLine line := IO.println line
  wire := ⟨fun _ => pure none⟩
  runName := do return RunName.ofBytes (← IO.getRandomBytes 16).toList
  clock := do return ⟨← IO.monoNanosNow⟩

def helpLines : List String :=
  ["Usage: recon [OPTIONS] <COMMAND>", "",
    "  plan <DIFF> [--refs] [-f, --format text|json]    show the calls that a change would make",
    "  apply <DIFF> [--refs] [--base-url <URL>] [--token <TOKEN>] [--user-triggered]    make a change",
    "  consume [-i, --input <FILE>] [--org-id <ID>] [--base-url <URL>] [--token <TOKEN>]    execute commands",
    "  version    show the version", "",
    "Options: -c, --config <FILE>, -v, --verbose, --sequential, -h, --help, -V, --version"]

/-- Does what the arguments say; gives the exit status. -/
def run (args : List String) : IO UInt32 := do
  match Invocation.ofArguments args with
  | .error .usage =>
    helpLines.forM fun line => IO.eprintln line
    return 2
  | .error .helpWanted =>
    helpLines.forM fun line => IO.println line
    return 0
  | .error .versionWanted =>
    IO.println programLine
    return 0
  | .ok i =>
    match ← (execute shell i).run.run i.verbose with
    | .ok _ => return 0
    | .error failure =>
      IO.eprintln ("Error: " ++ failure.message)
      return 1

end CatalogSync.CommandLine

def main (args : List String) : IO UInt32 := CatalogSync.CommandLine.run args
