import WasiSandbox.Import.Basic

/-! # System calls

A system call is an import whose one result is an error number. Its body decodes its arguments, reads
and writes the memory of the guest, and works on the host; a failure of the body is an answer, not an
abort. A guest that exports no memory gets a fault from every call that looks at memory. -/

namespace WasiSandbox

/-- The body of a system call. -/
abbrev SyscallM := EStateM SysFailure Caller

namespace Syscall

/-- The module name under which all system calls are found. -/
def moduleName : String := "wasi_snapshot_preview1"

def fail {α : Type} (e : Errno) : SyscallM α := throw (.reported e)

/-- An operation on the memory of the guest. -/
def onMemory {α : Type} (op : MemoryM α) : SyscallM α := fun c =>
  match c.memory with
  | none => .error (.reported .fault) c
  | some m =>
    match op m with
    | .ok a m => .ok a { c with memory := some m }
    | .error e m => .error e { c with memory := some m }

/-- An operation on the host. -/
def onHost {α : Type} (op : HostM α) : SyscallM α := fun c =>
  match op c.host with
  | .ok a h => .ok a { c with host := h }
  | .error e h => .error e { c with host := h }

/-- Fails with a fault if the guest exports no memory. -/
def requireMemory : SyscallM Unit := onMemory (pure ())

/-! ### Arguments -/

/-- The argument as a word of 32 bits. -/
def word (args : List Value) (i : Nat) : SyscallM UInt32 :=
  match args[i]? with
  | some (.i32 w) => pure w
  | _ => fail .inval

/-- The argument as a handle. -/
def handle (args : List Value) (i : Nat) : SyscallM Nat := return (← word args i).toNat

/-- The argument as flags, of which the lower half counts. -/
def halfWord (args : List Value) (i : Nat) : SyscallM UInt16 := return (← word args i).toUInt16

/-- The argument as a word of 64 bits. -/
def longWord (args : List Value) (i : Nat) : SyscallM UInt64 :=
  match args[i]? with
  | some (.i64 w) => pure w
  | _ => fail .inval

/-! ### As imports -/

/-- The error number as the result of an import. -/
def answer (e : Errno) : Outcome := .ready [.i32 (.ofNat e.code)]

/-- Runs the body and answers with its error number. -/
def run (body : List Value → SyscallM Unit) (args : List Value) : ImportM Outcome := fun c =>
  match body args c with
  | .ok _ c => .ok (answer .success) c
  | .error (.reported e) c => .ok (answer e) c
  | .error (.defect d) c => .error (.defect d) c

/-- The system call of that name. -/
def define (name : String) (params : List ValueType) (body : List Value → SyscallM Unit) :
    Import where
  id := ⟨moduleName, name⟩
  signature := ⟨params, [.i32]⟩
  body := run body

end Syscall

end WasiSandbox
