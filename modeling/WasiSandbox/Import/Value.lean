import WasiSandbox.Checked

/-! # Values and import names

The values that cross the border between guest and host are four numeric types; floating-point
numbers cross as their bits. Signatures may name other types, which no import can have. An import is
named by two strings, that of its module and its own. -/

namespace WasiSandbox

/-- The type of a parameter or a result. -/
inductive ValueType where
  | i32
  | i64
  | f32
  | f64
  | v128
  /-- A reference, perhaps to nothing, to what the named heap holds. -/
  | reference (nullable : Bool) (heap : String)
  deriving DecidableEq, Repr

namespace ValueType

/-- A reference to a thing of the host. -/
def externref : ValueType := .reference true "extern"

/-- A reference to a function. -/
def funcref : ValueType := .reference true "func"

/-- The written form of a type. -/
def text : ValueType → String
  | i32 => "i32"
  | i64 => "i64"
  | f32 => "f32"
  | f64 => "f64"
  | v128 => "v128"
  | reference nullable heap => "(ref " ++ (if nullable then "null " else "") ++ heap ++ ")"

/-- Values of the type are plain numbers. -/
def isNumeric : ValueType → Bool
  | i32 | i64 | f32 | f64 => true
  | v128 | reference .. => false

end ValueType

/-- A value that crosses the border; floating-point numbers are their bits. -/
inductive Value where
  | i32 (word : UInt32)
  | i64 (word : UInt64)
  | f32 (bits : UInt32)
  | f64 (bits : UInt64)
  deriving DecidableEq, Repr

def Value.type : Value → ValueType
  | i32 _ => .i32
  | i64 _ => .i64
  | f32 _ => .f32
  | f64 _ => .f64

/-- The zero of a numeric type. -/
def ValueType.zero : ValueType → Value
  | i64 => .i64 0
  | f32 => .f32 0
  | f64 => .f64 0
  | _ => .i32 0

/-- The parameters and results of a function. -/
structure Signature where
  params : List ValueType
  results : List ValueType
  deriving DecidableEq, Repr

/-- The two names of an import. -/
structure ImportId where
  moduleName : String
  name : String
  deriving DecidableEq, Repr

/-- The written form of the two names. -/
def ImportId.text (id : ImportId) : String := id.moduleName ++ "::" ++ id.name

end WasiSandbox
