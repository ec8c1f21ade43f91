/-! The arguments of a command line.

Options may stand before the command and after it; what is given after it counts more. No option may be given twice
in one of the two places. -/

namespace CatalogSync.CommandLine

inductive Action
  /-- Shows the plan of the change in a file. -/
  | plan (diff : String) (refs : Bool) (format : String)
  /-- Makes the change in a file. -/
  | apply (diff : String) (refs userTriggered : Bool) (baseUrl token : Option String)
  /-- Executes the commands in a file, or on standard input. -/
  | consume (input organization baseUrl token : Option String)
  | version
  deriving DecidableEq, Repr

structure Invocation where
  config : Option String := none
  verbose : Bool := false
  sequential : Bool := false
  action : Action
  deriving DecidableEq, Repr

/-- Why there is nothing to do. -/
inductive Refusal
  /-- The arguments are not understood. -/
  | usage
  | helpWanted
  | versionWanted
  deriving DecidableEq, Repr

/-! ### Options -/

inductive OptionKind
  | flag
  | text
  /-- A path is not empty. -/
  | path
  | help
  | version
  deriving DecidableEq, Repr

structure OptionSpec where
  name : String
  short : Option Char := none
  kind : OptionKind

def OptionSpec.takesValue (o : OptionSpec) : Bool := o.kind = .text || o.kind = .path

/-- What may stand in one of the places. -/
structure Level where
  options : List OptionSpec
  commands : List String := []
  /-- How many arguments are no options. -/
  operands : Nat := 0

def shared : List OptionSpec :=
  [⟨"config", 'c', .path⟩, ⟨"verbose", 'v', .flag⟩, ⟨"sequential", none, .flag⟩, ⟨"help", 'h', .help⟩]

def commands : List String := ["plan", "apply", "consume", "version", "help"]

def beforeCommand : Level := ⟨⟨"version", 'V', .version⟩ :: shared, commands, 0⟩

def catalogOptions : List OptionSpec := [⟨"base-url", none, .text⟩, ⟨"token", none, .text⟩]

def afterCommand : String → Level
  | "plan" => ⟨[⟨"refs", none, .flag⟩, ⟨"format", 'f', .text⟩] ++ shared, [], 1⟩
  | "apply" => ⟨[⟨"refs", none, .flag⟩, ⟨"user-triggered", none, .flag⟩] ++ catalogOptions ++ shared, [], 1⟩
  | "consume" => ⟨[⟨"input", 'i', .path⟩, ⟨"org-id", none, .text⟩] ++ catalogOptions ++ shared, [], 0⟩
  | _ => ⟨shared, [], 0⟩

/-! ### Reading one place -/

structure Found where
  /-- Options by name. -/
  values : List (String × String) := []
  operands : List String := []

namespace Found

def value? (f : Found) (name : String) : Option String := f.values.lookup name

def flag (f : Found) (name : String) : Bool := (f.value? name).isSome

def addValue (f : Found) (o : OptionSpec) (value : String) : Except Refusal Found :=
  match o.kind with
  | .help => .error .helpWanted
  | .version => .error .versionWanted
  | kind =>
    if f.flag o.name || (kind = .path && value.isEmpty) then .error .usage
    else .ok { f with values := f.values ++ [(o.name, value)] }

/-- A diff is the only operand, and a path. -/
def addOperand (f : Found) (limit : Nat) (operand : String) : Except Refusal Found :=
  if f.operands.length < limit && !operand.isEmpty then .ok { f with operands := f.operands ++ [operand] }
  else .error .usage

end Found

/-- What is found with an argument, and the option that waits for its value. -/
abbrev Reading := Except Refusal (Found × Option OptionSpec)

/-- An option by name, with its value after `=` or in the next argument. -/
def readLong (level : Level) (f : Found) (text : List Char) : Reading :=
  let name := String.ofList (text.takeWhile (· ≠ '='))
  match level.options.find? (·.name = name), text.dropWhile (· ≠ '=') with
  | none, _ => .error .usage
  | some o, [] => if o.takesValue then .ok (f, some o) else (·, none) <$> f.addValue o ""
  | some o, _ :: value => if o.takesValue then (·, none) <$> f.addValue o (String.ofList value) else .error .usage

/-- Options by letter; the first one with a value takes all that follows. -/
def readShort (level : Level) (f : Found) : List Char → Reading
  | [] => .ok (f, none)
  | c :: cs =>
    match level.options.find? (·.short = some c), cs with
    | none, _ => .error .usage
    | some o, cs =>
      if o.takesValue then
        match cs with
        | [] => .ok (f, some o)
        | '=' :: value => (·, none) <$> f.addValue o (String.ofList value)
        | value => (·, none) <$> f.addValue o (String.ofList value)
      else do readShort level (← f.addValue o "") cs

/-- May the argument be the value of an option that stands before it? -/
def isValue (arg : String) : Bool := !arg.startsWith "-" || arg = "-"

/-- Reads up to the command, if one may follow. -/
def readLevel (level : Level) (f : Found) (waiting : Option OptionSpec) :
    List String → Except Refusal (Found × List String)
  | [] => if waiting.isSome then .error .usage else .ok (f, [])
  | arg :: args =>
    match waiting with
    | some o => if isValue arg then do readLevel level (← f.addValue o arg) none args else .error .usage
    | none =>
      if level.commands.contains arg then .ok (f, arg :: args)
      else if arg = "--" then (·, []) <$> args.foldlM (·.addOperand level.operands) f
      else
        match arg.toList with
        | '-' :: '-' :: text => do
          let (f, waiting) ← readLong level f text
          readLevel level f waiting args
        | '-' :: c :: text => do
          let (f, waiting) ← readShort level f (c :: text)
          readLevel level f waiting args
        | _ => do readLevel level (← f.addOperand level.operands arg) none args

/-! ### Reading all -/

def Action.ofFound (command : String) (f : Found) : Except Refusal Action :=
  match command, f.operands with
  | "plan", [diff] => .ok (.plan diff (f.flag "refs") ((f.value? "format").getD "text"))
  | "apply", [diff] =>
    .ok (.apply diff (f.flag "refs") (f.flag "user-triggered") (f.value? "base-url") (f.value? "token"))
  | "consume", [] => .ok (.consume (f.value? "input") (f.value? "org-id") (f.value? "base-url") (f.value? "token"))
  | "version", [] => .ok .version
  | _, _ => .error .usage

/-- Help is about all commands, or about a single one that is named. -/
def helpAbout : List String → Refusal
  | [] => .helpWanted
  | [command] => if commands.contains command then .helpWanted else .usage
  | _ => .usage

def Invocation.ofArguments (args : List String) : Except Refusal Invocation := do
  match ← readLevel beforeCommand {} none args with
  | (_, []) => throw .usage
  | (_, "help" :: about) => throw (helpAbout about)
  | (outer, command :: args) =>
    let (inner, _) ← readLevel (afterCommand command) {} none args
    return {
      config := (inner.value? "config").or (outer.value? "config")
      verbose := inner.flag "verbose" || outer.flag "verbose"
      sequential := inner.flag "sequential" || outer.flag "sequential"
      action := ← Action.ofFound command inner }

end CatalogSync.CommandLine
