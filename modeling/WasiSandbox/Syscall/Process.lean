import WasiSandbox.Abi.StringTable
import WasiSandbox.Syscall.Basic

/-! # Arguments, environment, randomness, clocks and the process

The system calls that have nothing to do with files. -/

namespace WasiSandbox.Syscall

/-! ### String tables -/

/-- The two calls that hand over a table of strings. -/
def tableCalls (sizesName getName : String) (t : StringTable) : List Import := [
  define sizesName [.i32, .i32] fun args => do
    requireMemory
    onMemory (t.writeSizes (← word args 0) (← word args 1)),
  define getName [.i32, .i32] fun args => do
    requireMemory
    onMemory (t.write (← word args 0) (← word args 1))]

/-- The arguments of the guest, its own name first. -/
def arguments (t : StringTable) : Provider := ⟨"args", tableCalls "args_sizes_get" "args_get" t⟩

/-- The environment of the guest. -/
def environment (t : StringTable) : Provider :=
  ⟨"environ", tableCalls "environ_sizes_get" "environ_get" t⟩

/-! ### Randomness -/

/-- Takes so many random octets, or those that come before the source fails. -/
def draw (count : Nat) : HostM Bytes := modifyGet fun h =>
  let s := h.surroundings
  let given := ((List.range count).map (s.drawn + ·)).takeWhile fun i => !s.randomFails i
  (given.map s.random,
    { h with surroundings := { s with drawn := s.drawn + min count (given.length + 1) } })

/-- Fills a buffer with random octets. When the source fails, what came before stays in it. -/
def randomGet (args : List Value) : SyscallM Unit := do
  let ptr ← word args 0
  let length ← word args 1
  requireMemory
  onMemory (Memory.requireRange ptr length)
  let data ← onHost (draw length.toNat)
  onMemory (Memory.store ptr (.ofNat data.length) data)
  if data.length < length.toNat then fail .io else pure ()

/-- Random octets. -/
def randomness : Provider := ⟨"random", [define "random_get" [.i32, .i32] randomGet]⟩

/-! ### Clocks -/

/-- The resolution that all clocks report, in nanoseconds. -/
def clockResolution : UInt64 := 1000

/-- Reads the clock. -/
def readClock (id : ClockId) : HostM UInt64 := do
  let s ← modifyGet fun h =>
    let s := h.surroundings
    (s, { h with surroundings := { s with readings := s.readings + 1 } })
  match s.clock id s.readings with
  | some now => pure now
  | none => Host.fail .io

/-- The argument as a clock. -/
def clockId (args : List Value) (i : Nat) : SyscallM ClockId := do
  match ClockId.ofCode? (← word args i) with
  | some id => pure id
  | none => fail .inval

def clockTimeGet (args : List Value) : SyscallM Unit := do
  let now ← onHost (readClock (← clockId args 0))
  let out ← word args 2
  requireMemory
  onMemory (Memory.writeU64 out now)

def clockResGet (args : List Value) : SyscallM Unit := do
  let _ ← clockId args 0
  let out ← word args 1
  requireMemory
  onMemory (Memory.writeU64 out clockResolution)

/-- The clocks. -/
def clocks : Provider := ⟨"clock", [
  define "clock_time_get" [.i32, .i64, .i32] clockTimeGet,
  define "clock_res_get" [.i32, .i32] clockResGet]⟩

/-! ### The process -/

/-- The code that the guest wants to end with. -/
def exitCode : List Value → Int32
  | .i32 w :: _ => w.toInt32
  | _ => 0

/-- Ending, and giving way to others, which does nothing. -/
def process : Provider := ⟨"process", [
  { id := ⟨moduleName, "proc_exit"⟩
    signature := ⟨[.i32], []⟩
    body := fun args => throw (.exit (exitCode args)) },
  define "sched_yield" [] fun _ => pure ()]⟩

end WasiSandbox.Syscall
