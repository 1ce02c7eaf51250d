import WasiSandbox.Abi.Codes
import WasiSandbox.Memory.Basic

/-! # Attribute records

The records that describe a file, a descriptor, a directory opened in advance, and an entry of a
directory, as they stand in linear memory. A record is cleared as a whole before its fields are
written, so what has no field here is zero. -/

namespace WasiSandbox

/-- The attributes of a file: 64 octets, with the number of links always one. -/
structure Filestat where
  filetype : Filetype
  size : Nat
  deriving DecidableEq, Repr

def Filestat.write (s : Filestat) (ptr : UInt32) : MemoryM Unit := do
  Memory.clear ptr 64
  Memory.writeU8 (← Memory.offset ptr 16) s.filetype.code
  Memory.writeU64 (← Memory.offset ptr 24) 1
  Memory.writeU64 (← Memory.offset ptr 32) (.ofNat s.size)

/-- The attributes of a descriptor: 24 octets. -/
structure Fdstat where
  filetype : Filetype
  flags : DescriptorFlags
  rights : Rights
  inheriting : Rights
  deriving DecidableEq, Repr

def Fdstat.write (s : Fdstat) (ptr : UInt32) : MemoryM Unit := do
  Memory.clear ptr 24
  Memory.writeU8 ptr s.filetype.code
  Memory.writeU16 (← Memory.offset ptr 2) s.flags.bits
  Memory.writeU64 (← Memory.offset ptr 8) s.rights.bits
  Memory.writeU64 (← Memory.offset ptr 16) s.inheriting.bits

/-- A directory opened in advance, by the length of its name: 8 octets. -/
structure Prestat where
  nameLength : UInt32
  deriving DecidableEq, Repr

def Prestat.write (s : Prestat) (ptr : UInt32) : MemoryM Unit := do
  Memory.clear ptr 8
  Memory.writeU32 (← Memory.offset ptr 4) s.nameLength

/-- An entry of a directory: 24 octets and the name behind them. -/
structure Dirent where
  /-- Where a listing that stops behind this entry goes on. -/
  next : UInt64
  inode : UInt64
  name : String
  filetype : Filetype
  deriving DecidableEq, Repr

def Dirent.encode (d : Dirent) : Bytes :=
  let name := Text.utf8 d.name
  littleEndian 8 d.next.toNat ++ littleEndian 8 d.inode.toNat ++ littleEndian 4 name.length
    ++ [d.filetype.code, 0, 0, 0] ++ name

end WasiSandbox
