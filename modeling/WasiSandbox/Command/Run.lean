import WasiSandbox.Command.Arguments
import WasiSandbox.Script.Run

/-! # Carrying out a command

The files named on the command line are copied into a fresh tree, the module is run against it, and
the files asked for are copied back out. What the guest writes to its output streams is the output of
the command. The first step that fails ends the command with a message and the code one; a file that is
to be copied out but does not exist in the sandbox is passed over. -/

namespace WasiSandbox.Command

/-- What stopped the command. -/
inductive Failure where
  /-- A file to be copied in cannot be read. -/
  | copyIn (guest host : String) (e : OutsideError)
  /-- A file to be copied in has no place in the tree. -/
  | place (guest : String) (e : FsError)
  /-- The input cannot be read. -/
  | input (path : String) (e : OutsideError)
  | build (e : HostError)
  | instantiate (e : InstantiateError)
  | run (e : RunError)
  /-- A file to be copied out cannot be written. -/
  | copyOut (guest host : String) (e : OutsideError)
  /-- A defect of the program. -/
  | defect
  deriving DecidableEq, Repr

def Failure.message : Failure → String
  | copyIn guest host e => "Failed to read --file " ++ guest ++ "=" ++ host ++ ": " ++ e.message
  | place guest e => "Failed to place " ++ guest ++ " in the guest filesystem: " ++ e.message
  | input path e => "Failed to read --stdin " ++ path ++ ": " ++ e.message
  | build e => e.message
  | instantiate e => e.message
  | run e => e.message
  | copyOut guest host e => "Failed to write --dump " ++ guest ++ "=" ++ host ++ ": " ++ e.message
  | defect => "defect of the program"

/-- What a command has come to. -/
structure Report where
  code : Nat
  stdout : String
  stderr : String
  deriving DecidableEq, Repr

/-- The code for the guest's own code, which counts if it fits an octet. -/
def processExitCode (code : Int32) : Nat :=
  if 0 ≤ code.toInt ∧ code.toInt ≤ 255 then code.toInt.toNat else 1

/-- All text in the journal that went to the channel. -/
def outputOf (channel : Channel) (journal : Journal) : String :=
  String.join (journal.filterMap fun
    | .output c text => if c = channel then some text else none
    | _ => none)

/-- The report on a command whose host kept this journal. -/
def report (journal : Journal) (outcome : Except Failure Int32) : Report :=
  let stderr := outputOf .stderr journal
  match outcome with
  | .ok code => ⟨processExitCode code, outputOf .stdout journal, stderr⟩
  | .error e => ⟨1, outputOf .stdout journal, stderr ++ "wasirun: " ++ e.message ++ "\n"⟩

/-- The report on a command line that is not carried out. -/
def UsageError.report : UsageError → Report
  | displayHelp => ⟨0, helpText, ""⟩
  | displayVersion => ⟨0, versionText, ""⟩
  | e => ⟨2, "", "error: " ++ e.message ++ "\n\n" ++ usageText ++
      "\n\nFor more information, try '--help'.\n"⟩

/-! ### Before the run -/

/-- Files outside, as they are read by path. -/
abbrev Reader := String → Except OutsideError Bytes

/-- Copies a file into the tree. -/
def placeFile (read : Reader) (t : FileTree) (file : String × String) :
    Except Failure FileTree := do
  let (guest, host) := file
  let content ← (read host).mapError (.copyIn guest host)
  match FileTree.addFile guest content t with
  | .ok _ t => return t
  | .error (.reported e) _ => throw (.place guest e)
  | .error (.defect _) _ => throw .defect

/-- The input of the guest. -/
def readInput (read : Reader) : Option String → Except Failure Bytes
  | none => .ok []
  | some path => (read path).mapError (.input path)

/-- The host for the command. -/
def prepare (read : Reader) (a : Arguments) : Except Failure ComposedHost := do
  let tree ← a.files.foldlM (placeFile read) .empty
  let stdin ← readInput read a.stdin
  let setup : HostSetup := {
    args := a.guestArgs
    env := a.env
    tree := tree
    stdin := stdin
    entry := a.entry
    trapUnknown := !a.strictImports }
  setup.build.mapError .build

/-! ### The run -/

/-- Runs the module in the host: the guest's code, and the host afterwards. -/
def runModule (h : ComposedHost) (surroundings : Surroundings) (limits : Limits) (read : Reader)
    (location : String) : Except Failure Int32 × Host :=
  match h.instantiateScript surroundings limits false (.files read none) location with
  | (.error e, host) => (.error (.instantiate e), host)
  | (.ok i, _) =>
    let (outcome, i) := i.start limits
    ((outcome.map (·.code)).mapError .run, i.machine.host)

/-- The files to be copied out, with where they go and what is in them. -/
def dumpsOf (a : Arguments) (t : FileTree) : List (String × String × Bytes) :=
  a.dumps.filterMap fun (guest, host) => (t.contentAt guest).map fun content => (guest, host, content)

/-- What a run has come to: the journal of its host, the guest's code, and the files to be copied out
if it went well. -/
structure Finished where
  journal : Journal
  outcome : Except Failure Int32
  dumps : List (String × String × Bytes)

/-- Carries out a command up to the point where files are copied out. -/
def execute (surroundings : Surroundings) (limits : Limits) (read : Reader) (a : Arguments) :
    Finished :=
  match prepare read a with
  | .error e => ⟨[], .error e, []⟩
  | .ok h =>
    match runModule h surroundings limits read a.modulePath with
    | (.error e, host) => ⟨host.journal, .error e, []⟩
    | (.ok code, host) => ⟨host.journal, .ok code, dumpsOf a host.tree⟩

/-! ### After the run -/

/-- Copies files out, up to the first failure. -/
def copyOut (outside : OutsideFiles) :
    List (String × String × Bytes) → Except Failure Unit × OutsideFiles
  | [] => (.ok (), outside)
  | (guest, host, content) :: rest =>
    match outside.write host content with
    | .ok outside => copyOut outside rest
    | .error e => (.error (.copyOut guest host e), outside)

/-- Carries out a command line among the files outside: the report, and the files afterwards. -/
def runLine (surroundings : Surroundings) (limits : Limits) (outside : OutsideFiles)
    (args : List String) : Report × OutsideFiles :=
  match parse args with
  | .error e => (e.report, outside)
  | .ok a =>
    let done := execute surroundings limits outside.read a
    match done.outcome with
    | .error e => (report done.journal (.error e), outside)
    | .ok code =>
      let (copied, outside) := copyOut outside done.dumps
      (report done.journal (copied.map fun _ => code), outside)

end WasiSandbox.Command
