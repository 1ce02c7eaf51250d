import WasiSandbox.Tree.Basic

/-! # Codes and flag sets

The numbers that stand for file types, seek bases and clocks, and the words whose bits are rights or
flags. Bits without a meaning here are kept as they come. -/

namespace WasiSandbox

/-! ### Enumerations -/

/-- The type of a descriptor or a node, as the guest sees it. -/
inductive Filetype where
  | unknown
  | characterDevice
  | directory
  | regularFile
  deriving DecidableEq, Repr

def Filetype.code : Filetype → UInt8
  | unknown => 0
  | characterDevice => 2
  | directory => 3
  | regularFile => 4

def NodeKind.filetype : NodeKind → Filetype
  | .file => .regularFile
  | .directory => .directory

/-- What a seek counts from. -/
inductive Whence where
  | set
  | cur
  | endOfFile
  deriving DecidableEq, Repr

def Whence.ofCode? (code : UInt8) : Option Whence :=
  if code = 0 then some .set
  else if code = 1 then some .cur
  else if code = 2 then some .endOfFile
  else none

/-- The clocks that a guest may ask for. -/
inductive ClockId where
  | realtime
  | monotonic
  | processCputime
  | threadCputime
  deriving DecidableEq, Repr

def ClockId.ofCode? (code : UInt32) : Option ClockId :=
  if code = 0 then some .realtime
  else if code = 1 then some .monotonic
  else if code = 2 then some .processCputime
  else if code = 3 then some .threadCputime
  else none

/-! ### Rights -/

/-- A set of rights, one bit each. -/
structure Rights where
  bits : UInt64
  deriving DecidableEq, Repr

namespace Rights

def none : Rights := ⟨0⟩

/-- The right to read from the descriptor. -/
def fdRead : Rights := ⟨0x2⟩

/-- The right to write to the descriptor. -/
def fdWrite : Rights := ⟨0x40⟩

/-- The right to wait for the descriptor. -/
def pollFdReadwrite : Rights := ⟨0x8000000⟩

/-- Every right there is. -/
def all : Rights := ⟨0x1fffffff⟩

/-- All of the other rights are among these. -/
def contains (r other : Rights) : Bool := r.bits &&& other.bits == other.bits

def union (r other : Rights) : Rights := ⟨r.bits ||| other.bits⟩

end Rights

/-! ### Flags -/

/-- How a path is to be opened. -/
structure OpenFlags where
  bits : UInt16
  deriving DecidableEq, Repr

namespace OpenFlags

/-- Make the file if it is missing. -/
def creates (f : OpenFlags) : Bool := f.bits &&& 1 != 0

/-- Open nothing but a directory. -/
def wantsDirectory (f : OpenFlags) : Bool := f.bits &&& 2 != 0

/-- Refuse a file that exists, if it were to be made. -/
def exclusive (f : OpenFlags) : Bool := f.bits &&& 4 != 0

/-- Empty the file. -/
def truncates (f : OpenFlags) : Bool := f.bits &&& 8 != 0

end OpenFlags

/-- How an open descriptor behaves. -/
structure DescriptorFlags where
  bits : UInt16
  deriving DecidableEq, Repr

/-- Every write goes to the end of the file. -/
def DescriptorFlags.appends (f : DescriptorFlags) : Bool := f.bits &&& 1 != 0

end WasiSandbox
