import WasiSandbox.Descriptor.Open

/-! # Reading, writing and seeking

Transfers at the cursor move it by what was transferred; transfers at an offset leave it alone. A
descriptor that appends writes at the end of its file and moves the cursor there. Streams have no
offsets: standard input is read from its cursor, the output streams are written line by line. -/

namespace WasiSandbox.Host

/-! ### Reading -/

/-- At most `length` octets of a file from the offset on. -/
def readContent (content : Bytes) (offset length : Nat) : Checked Bytes := do
  let room := min length (content.length - offset)
  let (n, buffer) ← Content.readInto content offset (List.replicate room 0)
  return buffer.take n

/-- At most `length` octets of an input from the cursor on. -/
def readInput (input : Bytes) (cursor length : Nat) : Checked Bytes := do
  let start := min cursor input.length
  let left ← Checked.sub input.length start
  let stop ← Checked.add 64 start (min length left)
  Checked.slice input start stop

/-- At most `length` octets of the file behind a node. -/
def readNode (n : NodeId) (offset length : Nat) : HostM Bytes := do
  requireAlive n
  match (← get).tree.content? n with
  | some content => ofChecked (readContent content offset length)
  | none => fail .isdir

/-- Reads at the cursor. -/
def read (fd length : Nat) : HostM Bytes := do
  let d ← descriptor fd
  requireRight d .fdRead
  let data ← match d.target with
    | .stdin => do ofChecked (readInput (← get).table.stdin d.cursor length)
    | .stdout | .stderr => fail .badf
    | .directory .. => fail .isdir
    | .file _ n => readNode n d.cursor length
  let cursor ← ofChecked (Checked.add 64 d.cursor data.length)
  setDescriptor fd { d with cursor := cursor }
  return data

/-- Reads at an offset. -/
def readAt (fd length offset : Nat) : HostM Bytes := do
  let d ← descriptor fd
  requireRight d .fdRead
  match d.target with
  | .file _ n => readNode n offset length
  | .directory .. => fail .isdir
  | _ => fail .spipe

/-! ### Writing -/

/-- Runs an operation on the content of the file behind a node. -/
def onContent {α : Type} (n : NodeId) (op : TreeM (Option α)) : HostM α := do
  requireAlive n
  match ← onTree op with
  | some a => pure a
  | none => fail .isdir

/-- Writes to standard output. -/
def writeOutput (data : Bytes) : HostM Unit := modify fun h =>
  let (texts, stream) := h.table.stdout.write data
  h.handOn .stdout texts { h.table with stdout := stream }

/-- Writes to standard error. -/
def writeError (data : Bytes) : HostM Unit := modify fun h =>
  let (texts, stream) := h.table.stderr.write data
  h.handOn .stderr texts { h.table with stderr := stream }

/-- Writes at the cursor, at the end, or to an output stream: how many octets. -/
def write (fd : Nat) (data : Bytes) : HostM Nat := do
  let d ← descriptor fd
  requireRight d .fdWrite
  match d.target with
  | .stdout => writeOutput data
  | .stderr => writeError data
  | .stdin => fail .badf
  | .directory .. => fail .isdir
  | .file _ n =>
    if d.flags.appends then
      let length ← onContent n (FileTree.append n data)
      setDescriptor fd { d with cursor := length }
    else
      let _ ← onContent n (FileTree.writeAt n d.cursor data)
      let cursor ← ofChecked (Checked.add 64 d.cursor data.length)
      setDescriptor fd { d with cursor := cursor }
  return data.length

/-- Writes at an offset: how many octets. -/
def writeAt (fd : Nat) (data : Bytes) (offset : Nat) : HostM Nat := do
  let d ← descriptor fd
  requireRight d .fdWrite
  match d.target with
  | .file _ n => onContent n (FileTree.writeAt n offset data)
  | .directory .. => fail .isdir
  | _ => fail .spipe

/-- Hands on what waits on standard output, then on standard error. -/
def flush : HostM Unit := modify fun h =>
  let (texts, stream) := h.table.stdout.flush
  let h := h.handOn .stdout texts { h.table with stdout := stream }
  let (texts, stream) := h.table.stderr.flush
  h.handOn .stderr texts { h.table with stderr := stream }

/-! ### Seeking -/

/-- The largest offset that a signed word of 64 bits can hold. -/
def maxOffset : Nat := (1 <<< 63) - 1

/-- Where a seek ends up, if it stays within the offsets that can be expressed. -/
def seekTarget (base : Nat) (offset : Int) : Option Nat :=
  if maxOffset < base then none
  else if (maxOffset : Int) < base + offset then none
  else if base + offset < 0 then none
  else some (base + offset).toNat

/-- Moves the cursor: where it is then. -/
def seek (fd : Nat) (offset : Int) (whence : Whence) : HostM Nat := do
  let d ← descriptor fd
  let size ← match d.target with
    | .file _ n => do
      requireAlive n
      pure ((← get).tree.size n)
    | .directory .. => fail .isdir
    | _ => fail .spipe
  let base := match whence with
    | .set => 0
    | .cur => d.cursor
    | .endOfFile => size
  match seekTarget base offset with
  | none => fail .inval
  | some cursor =>
    setDescriptor fd { d with cursor := cursor }
    return cursor

/-- Where the cursor is. -/
def tell (fd : Nat) : HostM Nat := do
  let d ← descriptor fd
  match d.target with
  | .file .. => return d.cursor
  | .directory .. => fail .isdir
  | _ => fail .spipe

end WasiSandbox.Host
