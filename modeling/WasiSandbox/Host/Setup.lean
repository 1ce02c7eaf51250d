import WasiSandbox.Host.Environment
import WasiSandbox.Syscall.Files
import WasiSandbox.Syscall.Process
import WasiSandbox.Suspend.Config

/-! # Setting up a host

A host is set up from the arguments, the environment, the tree and the input that its guest is to
see, and from the imports that are to be there besides the system calls. All imports together form one
flat namespace: the system calls first, then the providers in order, then the single imports. Building
the host refuses a namespace in which two imports share their names, or in which a signature names a
type that is not numeric; it reports the first import that is at fault, and of both faults the first. -/

namespace WasiSandbox

/-- Why a host cannot be built. -/
inductive HostError where
  /-- Two providers offer the import. -/
  | duplicateImport (id : ImportId) (first second : String)
  /-- The signature of the import names a type that is not numeric. -/
  | unsupportedType (id : ImportId) (type : String)
  deriving DecidableEq, Repr

/-- The wording of the error. -/
def HostError.message : HostError → String
  | duplicateImport id first second =>
    "Duplicate import " ++ id.text ++ ": provided by both `" ++ first ++ "` and `" ++ second ++ "`"
  | unsupportedType id type => "Import " ++ id.text ++ " uses unsupported value type " ++ type

/-! ### The namespace -/

/-- The first type in the signature that is not numeric. -/
def Signature.unsupported? (s : Signature) : Option ValueType :=
  (s.params ++ s.results).find? fun type => !type.isNumeric

/-- The imports with the names of their providers, in order. -/
def Provider.offers (providers : List Provider) : List (String × Import) :=
  providers.flatMap fun p => p.imports.map (p.name, ·)

/-- The imports in order, if none is at fault; `owners` are the imports that are there already, with
the names of their providers. -/
def composeFrom (owners : List (ImportId × String)) :
    List (String × Import) → Except HostError (List Import)
  | [] => .ok []
  | (owner, i) :: rest =>
    match owners.lookup i.id with
    | some first => .error (.duplicateImport i.id first owner)
    | none =>
      match i.signature.unsupported? with
      | some type => .error (.unsupportedType i.id type.text)
      | none => (composeFrom (owners ++ [(i.id, owner)]) rest).map (i :: ·)

/-- The namespace that the providers form. -/
def compose (providers : List Provider) : Except HostError (List Import) :=
  composeFrom [] (Provider.offers providers)

/-! ### The setup -/

/-- What a host is built from. -/
structure HostSetup where
  args : List String := []
  /-- The variables in the order in which they are set. -/
  env : List (String × String) := []
  tree : FileTree := .empty
  stdin : Bytes := []
  /-- The function that a run starts with. -/
  entry : String := "_start"
  providers : List Provider := []
  /-- The imports outside all providers. -/
  custom : List Import := []
  /-- A guest with an import that nobody provides is linked, and stops when it calls it. -/
  trapUnknown : Bool := true
  suspend : SuspendConfig := .default

namespace HostSetup

/-- The providers of the system calls. -/
def builtins (s : HostSetup) : List Provider := [
  Syscall.arguments (.ofList s.args),
  Syscall.environment (.ofList (Environment.strings s.env)),
  Syscall.randomness,
  Syscall.clocks,
  Syscall.process,
  Syscall.files]

/-- All providers, that of the single imports last. -/
def allProviders (s : HostSetup) : List Provider :=
  s.builtins ++ s.providers ++ if s.custom.isEmpty then [] else [⟨"custom", s.custom⟩]

end HostSetup

/-- A host that is ready for a guest. -/
structure ComposedHost where
  setup : HostSetup
  imports : List Import

/-- Builds the host. -/
def HostSetup.build (s : HostSetup) : Except HostError ComposedHost :=
  (compose s.allProviders).map fun imports => ⟨s, imports⟩

/-- The state in which the host meets its guest. -/
def ComposedHost.initial (h : ComposedHost) (surroundings : Surroundings) : Host :=
  .new h.setup.tree h.setup.stdin surroundings

end WasiSandbox
