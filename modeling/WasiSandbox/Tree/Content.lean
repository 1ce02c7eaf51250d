import WasiSandbox.Checked
import WasiSandbox.Tree.Path

/-! # The content of a file

A file's content is a string of octets of at most `maxFileSize`. It is read into a buffer from an
offset, overwritten from an offset, extended at its end, and cut or padded to a length. A write that
starts past the end fills the gap with zeros. What would outgrow the largest size is refused before
anything is touched. -/

namespace WasiSandbox.Content

/-- The largest size that a file may grow to. -/
def maxFileSize : Nat := 1 <<< 30

/-- Cut or padded with zeros to the length. -/
def resize (content : Bytes) (length : Nat) : Bytes :=
  content.take length ++ List.replicate (length - content.length) 0

/-- Where `length` octets from `offset` on end, in a file called `name`. -/
def checkedEnd (name : String) (offset length : Nat) : Except (Failure FsError) Nat :=
  if UInt64.size ≤ offset + length then .error (.reported (.fileTooLarge name))
  else if maxFileSize < offset + length then .error (.reported (.fileTooLarge name))
  else .ok (offset + length)

/-- Copies the octets from `offset` on to the front of the buffer, as many as there are and as fit:
how many, and the buffer after it. -/
def readInto (content : Bytes) (offset : Nat) (buffer : Bytes) : Checked (Nat × Bytes) := do
  if content.length ≤ offset then return (0, buffer)
  let available ← Checked.sub content.length offset
  let n := min buffer.length available
  let stop ← Checked.add 64 offset n
  let data ← Checked.slice content offset stop
  return (n, ← Checked.paste buffer 0 n data)

/-- The content with `data` written over it from `offset` on. -/
def overwrite (name : String) (content : Bytes) (offset : Nat) (data : Bytes) :
    Except (Failure FsError) Bytes := do
  let stop ← checkedEnd name offset data.length
  let checked : Checked Bytes := do
    let start ← Checked.sub stop data.length
    let grown := if content.length < stop then resize content stop else content
    Checked.paste grown start stop data
  checked.mapError .defect

/-- The content with `data` behind it, and the new length. -/
def append (name : String) (content data : Bytes) : Except (Failure FsError) (Nat × Bytes) := do
  let stop ← checkedEnd name content.length data.length
  return (stop, content ++ data)

/-- The content cut or padded with zeros to the length. -/
def setLength (name : String) (content : Bytes) (length : Nat) : Except (Failure FsError) Bytes := do
  let length ← checkedEnd name length 0
  return resize content length

end WasiSandbox.Content
