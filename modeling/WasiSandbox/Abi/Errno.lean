import WasiSandbox.Checked
import WasiSandbox.Tree.Path

/-! # Error numbers

What a system call answers to the guest: zero for success, or the number of one of the errors that
this host reports. Every error of the file tree has a number of its own. -/

namespace WasiSandbox

/-- The answer of a system call. -/
inductive Errno where
  | success
  /-- Permission denied. -/
  | acces
  /-- Bad file descriptor. -/
  | badf
  /-- File exists. -/
  | exist
  /-- A guest pointer leaves linear memory. -/
  | fault
  /-- File too large. -/
  | fbig
  /-- Invalid argument. -/
  | inval
  | io
  /-- Is a directory. -/
  | isdir
  /-- No such file or directory. -/
  | noent
  /-- Function not supported. -/
  | nosys
  /-- Not a directory. -/
  | notdir
  /-- Invalid seek on a stream. -/
  | spipe
  /-- The descriptor lacks the right for the operation. -/
  | notcapable
  deriving DecidableEq, Repr

namespace Errno

/-- The number that the guest sees. -/
def code : Errno → Nat
  | success => 0
  | acces => 2
  | badf => 8
  | exist => 20
  | fault => 21
  | fbig => 22
  | inval => 28
  | io => 29
  | isdir => 31
  | noent => 44
  | nosys => 52
  | notdir => 54
  | spipe => 70
  | notcapable => 76

/-- The wording of the error. -/
def message : Errno → String
  | success => "success"
  | acces => "permission denied"
  | badf => "bad file descriptor"
  | exist => "file exists"
  | fault => "bad address"
  | fbig => "file too large"
  | inval => "invalid argument"
  | io => "I/O error"
  | isdir => "is a directory"
  | noent => "no such file or directory"
  | nosys => "function not supported"
  | notdir => "not a directory"
  | spipe => "invalid seek"
  | notcapable => "capabilities insufficient"

end Errno

/-- The number under which an error of the file tree reaches the guest. -/
def FsError.errno : FsError → Errno
  | .malformedPath _ => .inval
  | .notADirectory _ => .notdir
  | .isADirectory _ => .isdir
  | .notFound _ => .noent
  | .alreadyExists _ => .exist
  | .fileTooLarge _ => .fbig

/-- A failure with an error number. -/
abbrev SysFailure := Failure Errno

end WasiSandbox
