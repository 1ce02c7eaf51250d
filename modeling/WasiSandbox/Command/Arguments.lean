import WasiSandbox.Command.Pair
import WasiSandbox.Outside.Stem

/-! # The command line

The command runs one module. Options stand before or behind the module, with their value behind `=` or
as the next argument; behind `--` come the arguments of the guest. An option that has been named waits
for its value, and a value that has been given is looked at when the next argument is understood, so an
argument that means nothing is complained about first. -/

namespace WasiSandbox.Command

/-- Why a command line is not carried out. -/
inductive UsageError where
  /-- Help was asked for. -/
  | displayHelp
  /-- The version was asked for. -/
  | displayVersion
  /-- No module is named. -/
  | missingRequiredArgument
  /-- An option that does not exist, or a second module. -/
  | unknownArgument
  /-- A value is missing or empty. -/
  | invalidValue
  /-- A value is no pair. -/
  | valueValidation
  /-- An option that stands once stands twice. -/
  | argumentConflict
  /-- A value for an option that takes none. -/
  | tooManyValues
  deriving DecidableEq, Repr

/-- What the command is to do. -/
structure Arguments where
  modulePath : String
  env : List (String × String) := []
  /-- Files to copy into the sandbox: the path there and the path outside. -/
  files : List (String × String) := []
  /-- Files to copy out of the sandbox: the path there and the path outside. -/
  dumps : List (String × String) := []
  stdin : Option String := none
  entry : String := "_start"
  strictImports : Bool := false
  /-- The arguments of the guest, without its name. -/
  args : List String := []
  deriving DecidableEq, Repr

/-- The arguments that the guest sees: the stem of the module, or all of its path if it has none, and
then its own. -/
def Arguments.guestArgs (a : Arguments) : List String :=
  (Outside.stem? a.modulePath).getD a.modulePath :: a.args

/-! ### Options -/

/-- What takes a value. -/
inductive Slot where
  | modulePath
  | env
  | file
  | dump
  | stdin
  | entry
  deriving DecidableEq, Repr

/-- What the name of a long option means. -/
inductive OptionName where
  | valued (slot : Slot)
  | strictImports
  | help
  | version
  deriving DecidableEq, Repr

def optionNames : List (String × OptionName) := [
  ("env", .valued .env), ("file", .valued .file), ("dump", .valued .dump),
  ("stdin", .valued .stdin), ("entry", .valued .entry), ("strict-imports", .strictImports),
  ("help", .help), ("version", .version)]

/-- What an argument before `--` looks like. -/
inductive Word where
  | divider
  /-- `--name` or `--name=value`. -/
  | long (name : String) (value : Option String)
  /-- A single dash and more behind it, of which the first counts. -/
  | short (letter : Char)
  | plain (text : String)
  deriving DecidableEq, Repr

def Word.of (arg : String) : Word :=
  match arg.toList with
  | ['-', '-'] => .divider
  | '-' :: '-' :: rest =>
    match splitAtEquals rest with
    | some (name, value) => .long (String.ofList name) (some (String.ofList value))
    | none => .long (String.ofList rest) none
  | '-' :: c :: _ => .short c
  | _ => .plain arg

/-! ### Reading -/

/-- What has been read so far. -/
structure Reading where
  modulePath : Option String
  stdin : Option String
  entry : Option String
  /-- Everything that can be repeated; the module, the input and the entry are kept apart. -/
  arguments : Arguments
  /-- What waits for its value, or has one that was not looked at yet. -/
  pending : Option (Slot × Option String)
  /-- The divider has been passed. -/
  trailing : Bool

def Reading.start : Reading := ⟨none, none, none, { modulePath := "" }, none, false⟩

/-- A pair for an option that can be repeated. -/
def addPair (value : String) (add : String × String → Reading) : Except UsageError Reading :=
  match parsePair value with
  | .ok pair => .ok (add pair)
  | .error _ => .error .valueValidation

/-- Looks at a value. -/
def assign (r : Reading) (slot : Slot) (value : String) : Except UsageError Reading :=
  let a := r.arguments
  match slot with
  | .env => addPair value fun p => { r with arguments := { a with env := a.env ++ [p] } }
  | .file => addPair value fun p => { r with arguments := { a with files := a.files ++ [p] } }
  | .dump => addPair value fun p => { r with arguments := { a with dumps := a.dumps ++ [p] } }
  | .modulePath =>
    if value = "" then .error .invalidValue else .ok { r with modulePath := some value }
  | .stdin =>
    if r.stdin.isSome then .error .argumentConflict
    else if value = "" then .error .invalidValue
    else .ok { r with stdin := some value }
  | .entry =>
    if r.entry.isSome then .error .argumentConflict else .ok { r with entry := some value }

/-- Looks at the value that is there, if anything waits for one. -/
def settle (r : Reading) : Except UsageError Reading :=
  match r.pending with
  | none => .ok r
  | some (_, none) => .error .invalidValue
  | some (slot, some value) => assign { r with pending := none } slot value

/-- Reads a long option. -/
def readLong (r : Reading) (name : String) (value : Option String) : Except UsageError Reading :=
  match optionNames.lookup name, value with
  | none, _ => .error .unknownArgument
  | some (.valued slot), none => do return { ← settle r with pending := some (slot, none) }
  | some (.valued slot), some v => do assign (← settle r) slot v
  | some _, some _ => .error .tooManyValues
  | some .help, none => do let _ ← settle r; throw .displayHelp
  | some .version, none => do let _ ← settle r; throw .displayVersion
  | some .strictImports, none => do
    let r ← settle r
    if r.arguments.strictImports then throw .argumentConflict
    else return { r with arguments := { r.arguments with strictImports := true } }

/-- Reads a short option. -/
def readShort (r : Reading) (letter : Char) : Except UsageError Reading := do
  if letter = 'h' then let _ ← settle r; throw .displayHelp
  else if letter = 'V' then let _ ← settle r; throw .displayVersion
  else throw .unknownArgument

/-- Reads an argument that is no option: a value that is waited for, or the module. -/
def readPlain (r : Reading) (arg : String) : Except UsageError Reading :=
  match r.pending with
  | some (slot, none) => .ok { r with pending := some (slot, some arg) }
  | some (.modulePath, some _) => .error .unknownArgument
  | _ =>
    if r.modulePath.isSome then .error .unknownArgument
    else do return { ← settle r with pending := some (.modulePath, some arg) }

/-- Reads one argument. -/
def readArgument (r : Reading) (arg : String) : Except UsageError Reading :=
  if r.trailing then do
    let r ← settle r
    return { r with arguments := { r.arguments with args := r.arguments.args ++ [arg] } }
  else
    match Word.of arg with
    | .divider => .ok { r with trailing := true }
    | .long name value => readLong r name value
    | .short letter => readShort r letter
    | .plain arg => readPlain r arg

/-- What the arguments, without the name of the command, ask for. -/
def parse (args : List String) : Except UsageError Arguments := do
  let r ← settle (← args.foldlM readArgument .start)
  match r.modulePath with
  | none => throw .missingRequiredArgument
  | some path =>
    return { r.arguments with
      modulePath := path
      stdin := r.stdin
      entry := r.entry.getD "_start" }

/-! ### Texts -/

/-- The wording of the error; asking for help or the version is none. -/
def UsageError.message : UsageError → String
  | displayHelp | displayVersion => ""
  | missingRequiredArgument => "the module to run is missing"
  | unknownArgument => "unexpected argument"
  | invalidValue => "a value is required but none was supplied"
  | valueValidation => "a value is not of the form LEFT=RIGHT"
  | argumentConflict => "an argument cannot be used multiple times"
  | tooManyValues => "a value was supplied to an option that takes none"

def versionText : String := "wasirun 0.1.0\n"

def usageText : String := "Usage: wasirun [OPTIONS] <MODULE> [-- <ARGS>...]"

def helpText : String := String.intercalate "\n" [
  "Runs a WASI preview1 module against an in-memory filesystem",
  "",
  usageText,
  "",
  "Arguments:",
  "  <MODULE>   Module to run, binary or WAT text",
  "  [ARGS]...  Arguments passed to the guest after its program name",
  "",
  "Options:",
  "      --env <KEY=VALUE>    Environment variable for the guest. Repeatable",
  "      --file <GUEST=HOST>  Host file copied into the guest filesystem before the run. Repeatable",
  "      --dump <GUEST=HOST>  Guest file copied back to the host after the run. Repeatable",
  "      --stdin <STDIN>      Host file fed to the guest's standard input",
  "      --entry <ENTRY>      Exported function to run [default: _start]",
  "      --strict-imports     Fail at link time on imports no provider supplies",
  "  -h, --help               Print help",
  "  -V, --version            Print version",
  ""]

end WasiSandbox.Command
