import WasiSandbox.Descriptor.Attributes
import WasiSandbox.Descriptor.Transfer
import WasiSandbox.Memory.IoVec
import WasiSandbox.Syscall.Basic

/-! # Descriptors and files

The system calls on handles and paths. Each decodes the memory of the guest, runs one operation of the
host, and writes what it answers back to memory. -/

namespace WasiSandbox.Syscall

/-- The text in memory that two arguments describe by pointer and length. -/
def textAt (args : List Value) (ptr length : Nat) : SyscallM String := do
  onMemory (Memory.readText (← word args ptr) (← word args length))

/-- The buffers in memory that two arguments describe by pointer and count. -/
def buffersAt (args : List Value) (ptr count : Nat) : SyscallM (List IoVec) := do
  onMemory (Memory.iovecs (← word args ptr) (← word args count))

/-! ### Paths -/

/-- `(dirfd, lookup flags, path, path length, open flags, rights, inheriting, flags, handle out)` -/
def pathOpen (args : List Value) : SyscallM Unit := do
  let dirfd ← handle args 0
  let flags : OpenFlags := ⟨← halfWord args 4⟩
  let rights : Rights := ⟨← longWord args 5⟩
  let inheriting : Rights := ⟨← longWord args 6⟩
  let descriptorFlags : DescriptorFlags := ⟨← halfWord args 7⟩
  let out ← word args 8
  requireMemory
  let path ← textAt args 2 3
  let fd ← onHost (Host.openPath dirfd path flags rights inheriting descriptorFlags)
  onMemory (Memory.writeU32 out (.ofNat fd))

/-- `(dirfd, lookup flags, path, path length, record out)` -/
def pathFilestatGet (args : List Value) : SyscallM Unit := do
  let dirfd ← handle args 0
  requireMemory
  let path ← textAt args 2 3
  let stat ← onHost (Host.pathFilestat dirfd path)
  onMemory (stat.write (← word args 4))

/-- `(dirfd, path, path length)` -/
def pathCreateDirectory (args : List Value) : SyscallM Unit := do
  let dirfd ← handle args 0
  requireMemory
  let path ← textAt args 1 2
  onHost (Host.makeDirectory dirfd path)

/-! ### Transfers -/

/-- Spreads what was read over the buffers and writes the count. -/
def deliver (args : List Value) (iovs : List IoVec) (data : Bytes) (count : Nat) :
    SyscallM Unit := do
  onMemory (Memory.scatter iovs data)
  onMemory (Memory.writeU32 (← word args count) (.ofNat data.length))

/-- `(fd, buffers, buffer count, count out)` -/
def fdRead (args : List Value) : SyscallM Unit := do
  let fd ← handle args 0
  requireMemory
  let iovs ← buffersAt args 1 2
  onMemory (Memory.requireIovecs iovs)
  let data ← onHost (Host.read fd (IoVec.capacity iovs))
  deliver args iovs data 3

/-- `(fd, buffers, buffer count, offset, count out)` -/
def fdPread (args : List Value) : SyscallM Unit := do
  let fd ← handle args 0
  let offset ← longWord args 3
  requireMemory
  let iovs ← buffersAt args 1 2
  onMemory (Memory.requireIovecs iovs)
  let data ← onHost (Host.readAt fd (IoVec.capacity iovs) offset.toNat)
  deliver args iovs data 4

/-- `(fd, buffers, buffer count, count out)` -/
def fdWrite (args : List Value) : SyscallM Unit := do
  let fd ← handle args 0
  requireMemory
  let iovs ← buffersAt args 1 2
  let data ← onMemory (Memory.gather iovs)
  let n ← onHost (Host.write fd data)
  onMemory (Memory.writeU32 (← word args 3) (.ofNat n))

/-- `(fd, buffers, buffer count, offset, count out)` -/
def fdPwrite (args : List Value) : SyscallM Unit := do
  let fd ← handle args 0
  let offset ← longWord args 3
  requireMemory
  let iovs ← buffersAt args 1 2
  let data ← onMemory (Memory.gather iovs)
  let n ← onHost (Host.writeAt fd data offset.toNat)
  onMemory (Memory.writeU32 (← word args 4) (.ofNat n))

/-! ### Handles -/

/-- `(fd, offset, base, cursor out)` -/
def fdSeek (args : List Value) : SyscallM Unit := do
  let fd ← handle args 0
  let offset ← longWord args 1
  match Whence.ofCode? (← word args 2).toUInt8 with
  | none => fail .inval
  | some whence =>
    requireMemory
    let cursor ← onHost (Host.seek fd offset.toInt64.toInt whence)
    onMemory (Memory.writeU64 (← word args 3) (.ofNat cursor))

/-- `(fd, cursor out)` -/
def fdTell (args : List Value) : SyscallM Unit := do
  let fd ← handle args 0
  requireMemory
  let cursor ← onHost (Host.tell fd)
  onMemory (Memory.writeU64 (← word args 1) (.ofNat cursor))

/-- `(fd)` -/
def fdClose (args : List Value) : SyscallM Unit := do
  let fd ← handle args 0
  requireMemory
  onHost (Host.close fd)

/-- `(fd, record out)` -/
def fdFilestatGet (args : List Value) : SyscallM Unit := do
  let fd ← handle args 0
  requireMemory
  let stat ← onHost (Host.filestat fd)
  onMemory (stat.write (← word args 1))

/-- `(fd, record out)` -/
def fdFdstatGet (args : List Value) : SyscallM Unit := do
  let fd ← handle args 0
  requireMemory
  let stat ← onHost (Host.fdstat fd)
  onMemory (stat.write (← word args 1))

/-- `(fd, flags)` -/
def fdFdstatSetFlags (args : List Value) : SyscallM Unit := do
  let fd ← handle args 0
  let flags : DescriptorFlags := ⟨← halfWord args 1⟩
  requireMemory
  onHost (Host.setFlags fd flags)

/-- `(fd, record out)` -/
def fdPrestatGet (args : List Value) : SyscallM Unit := do
  let fd ← handle args 0
  requireMemory
  let path ← onHost (Host.prestat fd)
  let stat : Prestat := ⟨.ofNat (Text.utf8 path).length⟩
  onMemory (stat.write (← word args 1))

/-- `(fd, name out, room)` -/
def fdPrestatDirName (args : List Value) : SyscallM Unit := do
  let fd ← handle args 0
  let ptr ← word args 1
  let room ← word args 2
  requireMemory
  let name := Text.utf8 (← onHost (Host.prestat fd))
  if room.toNat < name.length then fail .inval
  else onMemory (Memory.store ptr (.ofNat name.length) name)

/-! ### Listings -/

/-- The record of the entry at the index; a listing that stops behind it goes on at the next. -/
def entryRecord (index : Nat) (entry : String × NodeKind) : Bytes :=
  Dirent.encode ⟨.ofNat (index + 1), .ofNat (index + 1), entry.1, entry.2.filetype⟩

/-- Puts the records of the entries behind one another, those before `cookie` left out, until `room`
octets are full; `index` is that of the first entry. -/
def fillPage (cookie room : Nat) : Nat → Bytes → List (String × NodeKind) → Bytes
  | _, page, [] => page
  | index, page, entry :: rest =>
    if index < cookie then fillPage cookie room (index + 1) page rest
    else
      let page := page ++ entryRecord index entry
      if room ≤ page.length then page else fillPage cookie room (index + 1) page rest

/-- `(fd, page out, room, cookie, length out)` -/
def fdReaddir (args : List Value) : SyscallM Unit := do
  let fd ← handle args 0
  let ptr ← word args 1
  let room ← word args 2
  let cookie ← longWord args 3
  requireMemory
  let entries ← onHost (Host.readDirectory fd)
  let page := (fillPage cookie.toNat room.toNat 0 [] entries).take room.toNat
  onMemory (Memory.store ptr (.ofNat page.length) page)
  onMemory (Memory.writeU32 (← word args 4) (.ofNat page.length))

/-- All calls on handles and paths. -/
def files : Provider := ⟨"fs", [
  define "path_open" [.i32, .i32, .i32, .i32, .i32, .i64, .i64, .i32, .i32] pathOpen,
  define "fd_read" [.i32, .i32, .i32, .i32] fdRead,
  define "fd_pread" [.i32, .i32, .i32, .i64, .i32] fdPread,
  define "fd_write" [.i32, .i32, .i32, .i32] fdWrite,
  define "fd_pwrite" [.i32, .i32, .i32, .i64, .i32] fdPwrite,
  define "fd_seek" [.i32, .i64, .i32, .i32] fdSeek,
  define "fd_tell" [.i32, .i32] fdTell,
  define "fd_close" [.i32] fdClose,
  define "fd_filestat_get" [.i32, .i32] fdFilestatGet,
  define "path_filestat_get" [.i32, .i32, .i32, .i32, .i32] pathFilestatGet,
  define "fd_fdstat_get" [.i32, .i32] fdFdstatGet,
  define "fd_fdstat_set_flags" [.i32, .i32] fdFdstatSetFlags,
  define "fd_prestat_get" [.i32, .i32] fdPrestatGet,
  define "fd_prestat_dir_name" [.i32, .i32, .i32] fdPrestatDirName,
  define "fd_readdir" [.i32, .i32, .i32, .i64, .i32] fdReaddir,
  define "path_create_directory" [.i32, .i32, .i32] pathCreateDirectory]⟩

end WasiSandbox.Syscall
