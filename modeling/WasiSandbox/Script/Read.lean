import WasiSandbox.Script.Basic
import WasiSandbox.Syscall.Basic

/-! # Reading scripts

A script is an object with the fields `memory`, `functions`, `init`, `imports_global` and `asyncify`.
A step names the import that it calls by a pair of names, or by one name if it is a system call. -/

namespace WasiSandbox.Script

open Json (asListOf? optional?)

def readType? (j : Json) : Option ValueType := do
  match ← j.asString? with
  | "i32" => some .i32
  | "i64" => some .i64
  | "f32" => some .f32
  | "f64" => some .f64
  | "v128" => some .v128
  | "externref" => some .externref
  | "funcref" => some .funcref
  | _ => none

def readSignature? (j : Json) : Option Signature := do
  let (params, results) ← j.asPair?
  return ⟨← params.asListOf? readType?, ← results.asListOf? readType?⟩

def readOperand? (j : Json) : Option Operand :=
  match j with
  | .object [("param", i)] => do return .param (← i.asNat?)
  | .object [("res", at?)] => do
    let (step, index) ← at?.asPair?
    return .result (← step.asNat?) (← index.asNat?)
  | .object [("load", ptr)] => do return .load (← ptr.asWord?)
  | j => do return .constant (← j.asInt?)

def readCallee? (j : Json) : Option ImportId :=
  match j with
  | .string name => some ⟨Syscall.moduleName, name⟩
  | .array [.string moduleName, .string name] => some ⟨moduleName, name⟩
  | _ => none

def readPoke? (j : Json) : Option (UInt32 × Bytes) := do
  let (ptr, data) ← j.asPair?
  return (← ptr.asWord?, ← data.asBytes?)

def readRange? (j : Json) : Option (UInt32 × UInt32) := do
  let (ptr, length) ← j.asPair?
  return (← ptr.asWord?, ← length.asWord?)

def readAction? (j : Json) : Option StepAction := do
  if ← (j.field "trap").asFlag? then return .trap
  else
    let id ← readCallee? (j.field "call")
    let args ← (j.field "args").asListOf? readOperand?
    return .call id args (← (j.field "sig").optional? readSignature?)

def readStep? (j : Json) : Option ScriptStep := do
  return {
    action := ← readAction? j
    pokes := ← (j.field "poke").asListOf? readPoke?
    shown := ← (j.field "peek").optional? (asListOf? readRange?)
    tested := ← (j.field "nonzero").optional? (asListOf? readRange?)
    states := ← (j.field "when").optional? (asListOf? Json.asWord?)
    once := ← (j.field "once").asFlag? }

def readFunction? (j : Json) : Option ScriptFunction := do
  return {
    name := ← (j.field "name").asString?
    signature := ⟨← (j.field "params").asListOf? readType?, ← (j.field "results").asListOf? readType?⟩
    steps := ← (j.field "steps").asListOf? readStep?
    returns := ← (j.field "ret").optional? (asListOf? readOperand?)
    raw := ← (j.field "raw").asFlag? }

def readControl? (j : Json) : Option Control := do Control.ofScriptName? (← j.asString?)

def readHooks? (j : Json) : Option (List (Control × List ScriptStep)) :=
  match j with
  | .null => some []
  | .object fields => fields.mapM fun (name, steps) => do
    return (← Control.ofScriptName? name, ← steps.asListOf? readStep?)
  | _ => none

def readControls? (j : Json) : Option ScriptControls := do
  return {
    exports := ← (j.field "exports").asListOf? readControl?
    mistyped := ← (j.field "badsig").asListOf? readControl?
    hooks := ← readHooks? (j.field "hooks") }

/-- The pages of the exported memory; the word `global` stands for an export of that name that is no
memory. -/
def readPages? (j : Json) : Option (Option Nat) :=
  match j with
  | .null => some none
  | .string "global" => some none
  | j => j.asNat?.map some

/-- The script that the value describes. -/
def ofJson? (j : Json) : Option Script :=
  match j with
  | .object _ => do
    return {
      pages := ← readPages? (j.field "memory")
      functions := ← (j.field "functions").asListOf? readFunction?
      init := ← (j.field "init").asListOf? readStep?
      importsGlobal := ← (j.field "imports_global").asFlag?
      controls := ← (j.field "asyncify").optional? readControls? }
  | _ => none

/-- The script that the text describes. -/
def parse? (text : String) : Option Script := do ofJson? (← Json.parse? text)

end WasiSandbox.Script
