import WasiSandbox.Proofs.Descriptor.Transfer
import WasiSandbox.Proofs.Tree.Counted

/-! # What an operation on descriptors can change

There are six ways in which an operation changes the tree or the table: it makes a node where nothing
was, it changes the content of a file, it opens the node at a path under the lowest free handle, it
puts a descriptor with the same target in the place of another, it closes a handle, and it leaves both
alone (`Change`). Every operation on descriptors is a chain of those, whatever comes of it
(`perform_changes`), so what each of the six keeps up, every run of operations does (`run_keeps`). -/

namespace WasiSandbox

/-! ### The table -/

namespace DescriptorTable

variable {t : DescriptorTable} {fd k : Nat} {d : Descriptor}

theorem get?_eq_some_iff : t.get? fd = some d ↔ t.slots[fd]? = some (some d) := by
  unfold get?
  exact Option.join_eq_some_iff

theorem get?_put : (t.put fd d).get? k = if k = fd then some d else t.get? k := by
  unfold get? put
  dsimp only
  have hlen : fd < (t.slots ++ List.replicate (fd + 1 - t.slots.length) none).length := by
    simp only [List.length_append, List.length_replicate]
    omega
  split
  · next heq => rw [heq, List.getElem?_set_self hlen, Option.join_some]
  · next hne =>
    rw [List.getElem?_set_ne (Ne.symm hne)]
    by_cases hk : k < t.slots.length
    · rw [List.getElem?_append_left hk]
    · rw [List.getElem?_append_right (Nat.le_of_not_lt hk), List.getElem?_replicate,
        List.getElem?_eq_none (Nat.le_of_not_lt hk)]
      split <;> rfl

theorem get?_clear : (t.clear fd).get? k = if k = fd then none else t.get? k := by
  unfold get? clear
  dsimp only
  rw [List.getElem?_set]
  by_cases hk : fd = k
  · rw [if_pos hk, if_pos hk.symm]
    split <;> rfl
  · rw [if_neg hk, if_neg (Ne.symm hk)]

/-- The last descriptor counts. -/
theorem put_put (t : DescriptorTable) (fd : Nat) (d d' : Descriptor) :
    (t.put fd d).put fd d' = t.put fd d' := by
  have hlen : fd + 1 -
      ((t.slots ++ List.replicate (fd + 1 - t.slots.length) none).set fd (some d)).length = 0 := by
    rw [List.length_set, List.length_append, List.length_replicate]
    omega
  unfold put
  dsimp only
  rw [hlen, List.replicate_zero, List.append_nil, List.set_set]

/-- A descriptor in its own slot changes nothing. -/
theorem put_get (h : t.get? fd = some d) : t.put fd d = t := by
  obtain ⟨hlt, heq⟩ := List.getElem?_eq_some_iff.mp (get?_eq_some_iff.mp h)
  unfold put
  rw [Nat.sub_eq_zero_of_le hlt, List.replicate_zero, List.append_nil, ← heq, List.set_getElem_self]

end DescriptorTable

/-- The path, the node and the kind that a target has; a stream has none. -/
def DescriptorTarget.node? : DescriptorTarget → Option (String × NodeId × NodeKind)
  | .directory path n _ => some (path, n, .directory)
  | .file path n => some (path, n, .file)
  | .stdin | .stdout | .stderr => none

/-- What is open from the start: its cursor is at the start, and if there is a node behind it, it is the
root. -/
theorem DescriptorTable.get?_new {root : NodeId} {stdin : Bytes} {fd : Nat} {d : Descriptor}
    (h : (new root stdin).get? fd = some d) :
    d.cursor = 0 ∧ ∀ x, d.target.node? = some x → x = ("/", root, .directory) := by
  have hlt : fd < 4 := by
    by_contra hge
    have hnone : (new root stdin).get? fd = none := by
      rw [get?, new, List.getElem?_eq_none (by simpa using hge)]
      rfl
    cases hnone.symm.trans h
  match fd, hlt with
  | 0, _ | 1, _ | 2, _ =>
    cases h
    exact ⟨rfl, fun _ hx => nomatch hx⟩
  | 3, _ =>
    cases h
    exact ⟨rfl, fun _ hx => (Option.some.inj hx).symm⟩

/-- The path from the root of what the path names in the directory at `base`. -/
def Path.under (base path : String) : String :=
  if isAbsolute path then path else if path = "." then base else join base path

namespace Host

variable {h h' h'' : Host} {fd dirfd : Nat} {d d' : Descriptor} {path full : String} {n : NodeId}

/-! ### Paths -/

theorem resolve_eq {base : String} {preopen : Bool} (hget : h.table.get? dirfd = some d)
    (htarget : d.target = .directory base n preopen) (hpath : path ≠ "") :
    resolve dirfd path h = .ok (Path.under base path) h := by
  obtain ⟨target, cursor, rights, inheriting, flags⟩ := d
  cases htarget
  unfold resolve
  rw [run_bind_ok (descriptor_run hget)]
  dsimp only
  rw [if_neg hpath]
  unfold Path.under
  split
  · rfl
  · split <;> rfl

theorem resolve_ok (hr : resolve dirfd path h = .ok full h') :
    path ≠ "" ∧ ∃ d base n preopen, h.table.get? dirfd = some d ∧
      d.target = .directory base n preopen ∧ full = Path.under base path := by
  obtain ⟨⟨target, cursor, rights, inheriting, flags⟩, h₁, hd, hrest⟩ := run_bind_eq_ok hr
  obtain ⟨hget, rfl⟩ := descriptor_ok hd
  cases target with
  | stdin | stdout | stderr | file => cases hrest
  | directory base n preopen =>
    by_cases hpath : path = ""
    · dsimp only at hrest
      rw [if_pos hpath] at hrest
      cases hrest
    · rw [resolve_eq hget rfl hpath] at hr
      cases hr
      exact ⟨hpath, _, base, n, preopen, hget, rfl, rfl⟩

/-! ### Changes -/

/-- Where the cursor of a descriptor may come to: it stays, or it lies within what the descriptor
refers to or, in a file, within the offsets that can be expressed. -/
def Lands (h : Host) (d : Descriptor) (cursor : Nat) : Prop :=
  cursor = d.cursor ∨ match d.target with
    | .stdin => cursor ≤ h.table.stdin.length
    | .file _ n => cursor ≤ maxOffset ∨ h.tree.alive n = true ∧
        ∃ content, h.tree.content? n = some content ∧ cursor ≤ content.length
    | _ => False

/-- One thing that an operation on descriptors does to the tree or to the table. -/
inductive Change : Host → Host → Prop where
  /-- Neither the tree nor a descriptor changes. -/
  | aside {h h' : Host} : h'.tree = h.tree → h'.kept = h.kept → h'.table.slots = h.table.slots →
      h'.table.stdin = h.table.stdin → Change h h'
  /-- A directory or an empty file is made where nothing was. -/
  | made {h : Host} {full : String} {body : NodeBody} {n : NodeId} {t : FileTree} :
      body = .directory ∨ body = .file [] → FileTree.createAt full body h.tree = .ok n t →
      Change h { h with tree := t }
  /-- A file gets another content, which is longer than before only within the largest size. -/
  | filled {h : Host} {n : NodeId} {old content : Bytes} : h.tree.content? n = some old →
      content.length ≤ max old.length Content.maxFileSize →
      Change h { h with tree := h.tree.withContent n content }
  /-- What is at a path is opened. -/
  | opened {h : Host} {dirfd : Nat} {path full : String} {n : NodeId} {kind : NodeKind}
      {d : Descriptor} : resolve dirfd path h = .ok full h → h.tree.lookup full = some n →
      h.tree.kind? n = some kind → d.target.node? = some (full, n, kind) → d.cursor = 0 →
      Change h { h with table := h.table.put h.table.lowestFree d }
  /-- A descriptor changes, but for its target. -/
  | updated {h : Host} {fd : Nat} {d d' : Descriptor} : h.table.get? fd = some d →
      d'.target = d.target → h.Lands d d'.cursor → Change h { h with table := h.table.put fd d' }
  /-- A handle is closed. -/
  | closed {h : Host} (fd : Nat) : Change h { h with table := h.table.clear fd }

/-- The cursor moves. -/
theorem Change.moved {cursor : Nat} (hget : h.table.get? fd = some d) (hc : h.Lands d cursor) :
    Change h { h with table := h.table.put fd { d with cursor := cursor } } :=
  .updated hget rfl hc

/-- The one host comes from the other by changes. -/
def Changes : Host → Host → Prop := Relation.ReflTransGen Change

theorem Changes.refl (h : Host) : Changes h h := Relation.ReflTransGen.refl

theorem Change.changes (hc : Change h h') : Changes h h' := Relation.ReflTransGen.single hc

theorem Changes.trans (hc : Changes h h') (hc' : Changes h' h'') : Changes h h'' :=
  Relation.ReflTransGen.trans hc hc'

/-- **What each change keeps up**, all of them do. -/
theorem Changes.keeps {p : Host → Prop} (hp : ∀ h h', Change h h' → p h → p h')
    (hc : Changes h h') (hh : p h) : p h' := by
  induction hc with
  | refl => exact hh
  | tail _ hstep ih => exact hp _ _ hstep ih

variable {α β : Type} {x : HostM α} {f : α → HostM β}

theorem changes_bind (hx : Changes h (left (x h)))
    (hf : ∀ a h', x h = .ok a h' → Changes h' (left (f a h'))) : Changes h (left ((x >>= f) h)) := by
  cases hrun : x h with
  | ok a h' =>
    rw [hrun] at hx
    rw [run_bind_ok hrun]
    exact hx.trans (hf a h' hrun)
  | error e h' =>
    rw [hrun] at hx
    rwa [run_bind_error hrun]

/-- The operation changes the host so, whatever comes of it. -/
def Alters (x : HostM α) : Prop := ∀ h, h.tree.WellFormed → Changes h (left (x h))

theorem changes_of_keeps (hx : Keeps id x) (h : Host) : Changes h (left (x h)) := by
  rw [show left (x h) = h from hx h]
  exact .refl h

theorem alters_of_keeps (hx : Keeps id x) : Alters x := fun h _ => changes_of_keeps hx h

/-- An operation that leaves no trace when it fails has to be looked at where it succeeds. -/
theorem changes_of_atomic (hx : Atomic x) (hok : ∀ a h', x h = .ok a h' → Changes h h') :
    Changes h (left (x h)) := by
  cases hrun : x h with
  | ok a h' => exact hok a h' hrun
  | error e h' =>
    rw [hx h e h' hrun]
    exact .refl h

theorem alters_of_atomic (hx : Atomic x) (hok : ∀ h a h', x h = .ok a h' → Changes h h') :
    Alters x := fun h _ => changes_of_atomic hx (hok h)

/-! ### Transfers -/

theorem alters_read (fd length : Nat) : Alters (read fd length) := by
  refine alters_of_atomic (atomic_read fd length) fun h data h' hok => ?_
  obtain ⟨d, ahead, hget, -, hahead, -, hdata, rfl⟩ := read_ok hok
  refine (Change.moved hget ?_).changes
  have hlen : data.length ≤ ahead.length := by
    rw [hdata, List.length_take]
    exact Nat.min_le_right ..
  -- If anything is read, the cursor lies before the end.
  by_cases hzero : data.length = 0
  · exact Or.inl (by rw [hzero]; rfl)
  · cases hahead with
    | input htarget =>
      right
      rw [htarget]
      rw [List.length_drop] at hlen
      show d.cursor + data.length ≤ h.table.stdin.length
      omega
    | file htarget hn hcontent =>
      right
      rw [htarget]
      rw [List.length_drop] at hlen
      refine Or.inr ⟨hn, _, hcontent, ?_⟩
      show d.cursor + data.length ≤ _
      omega

theorem alters_write (fd : Nat) (data : Bytes) : Alters (write fd data) := by
  refine alters_of_atomic (atomic_write fd data) fun h k h' hok => ?_
  obtain ⟨-, hw⟩ := write_ok hok
  cases hw with
  | stream htree hkept hslots hstdin => exact (Change.aside htree hkept hslots hstdin).changes
  | @file d path n old content cursor hget htarget hn hold hwritten hfit =>
    have hgrown : content.length ≤ max old.length Content.maxFileSize := by
      unfold Descriptor.written at hwritten
      split at hwritten <;> cases hwritten
      · rw [List.length_append]
        omega
      · rw [Content.length_overwritten]
        omega
    refine (Change.filled hold hgrown).changes.trans
      (Change.moved (h := { h with tree := h.tree.withContent n content }) hget ?_).changes
    right
    rw [htarget]
    exact Or.inl (Nat.le_trans hfit (by decide))

theorem alters_writeAt (fd : Nat) (data : Bytes) (offset : Nat) : Alters (writeAt fd data offset) := by
  refine alters_of_atomic (atomic_writeAt fd data offset) fun h k h' hok => ?_
  obtain ⟨d, path, n, old, -, -, hold, hfit, rfl⟩ := writeAt_ok hok
  refine (Change.filled hold ?_).changes
  rw [Content.length_overwritten]
  omega

theorem alters_seek (fd : Nat) (offset : Int) (whence : Whence) : Alters (seek fd offset whence) := by
  refine alters_of_atomic (atomic_seek fd offset whence) fun h k h' hok => ?_
  obtain ⟨d, path, n, hget, htarget, hk, -, rfl⟩ := seek_ok hok
  refine (Change.moved hget ?_).changes
  right
  rw [htarget]
  exact Or.inl hk

theorem alters_setFlags (fd : Nat) (flags : DescriptorFlags) : Alters (setFlags fd flags) := by
  refine alters_of_atomic (atomic_setFlags fd flags) fun h u h' hok => ?_
  obtain ⟨d, h₁, hd, hset⟩ := run_bind_eq_ok hok
  obtain ⟨hget, rfl⟩ := descriptor_ok hd
  cases hset
  have hc : Change h₁ { h₁ with table := h₁.table.put fd { d with flags := flags } } :=
    .updated hget rfl (Or.inl rfl)
  exact hc.changes

theorem alters_flush : Alters flush := fun h _ =>
  (Change.aside rfl rfl rfl rfl : Change h (left (flush h))).changes

/-! ### Opening and closing -/

theorem alters_close (fd : Nat) : Alters (close fd) := by
  refine alters_of_atomic (atomic_close fd) fun h u h' hok => ?_
  obtain ⟨d, h₁, hd, hclear⟩ := run_bind_eq_ok hok
  obtain ⟨-, rfl⟩ := descriptor_ok hd
  cases hclear
  exact (Change.closed fd).changes

theorem changes_create {body : NodeBody} (hbody : body = .directory ∨ body = .file []) (h : Host) :
    Changes h (left (onTree (FileTree.createAt full body) h)) := by
  refine changes_of_atomic (atomic_onTree (FileTree.atomic_createAt full body)) fun n h' hok => ?_
  obtain ⟨t, ht, rfl⟩ := onTree_ok hok
  exact (Change.made hbody ht).changes

theorem alters_makeDirectory (dirfd : Nat) (path : String) : Alters (makeDirectory dirfd path) := by
  refine fun h _ => changes_bind (changes_of_keeps (keeps_resolve dirfd path) h) fun full h' _ => ?_
  exact changes_bind (changes_create (Or.inl rfl) h') fun _ h'' _ => .refl h''

/-- What a path stands for depends on the open handles only. -/
theorem resolve_congr (htable : h'.table = h.table) (hr : resolve dirfd path h = .ok full h) :
    resolve dirfd path h' = .ok full h' := by
  obtain ⟨hpath, d, base, n, preopen, hget, htarget, rfl⟩ := resolve_ok hr
  exact resolve_eq (by rw [htable, hget]) htarget hpath

variable {flags : OpenFlags} {target : DescriptorTarget}

/-- **The node to open** is at the path then. -/
theorem nodeToOpen_finds (ht : h.tree.WellFormed) (hok : nodeToOpen full flags h = .ok n h') :
    Changes h h' ∧ h'.tree.WellFormed ∧ h'.table = h.table ∧ h'.tree.lookup full = some n := by
  rcases nodeToOpen_ok hok with ⟨rfl, hlookup⟩ | ⟨-, -, hcreate, honly⟩
  · exact ⟨.refl h', ht, rfl, hlookup⟩
  · obtain ⟨hwell, hlookup, -⟩ := (ht.createAt_refines full _).ok hcreate
    refine ⟨?_, hwell, by rw [honly], hlookup⟩
    rw [honly]
    exact (Change.made (Or.inr rfl) hcreate).changes

/-- A node is made into a target of its kind, and a file may be emptied. -/
theorem targetToOpen_finds (ht : h.tree.WellFormed) (hn : h.tree.lookup full = some n)
    (hok : targetToOpen full n flags h = .ok target h') :
    Changes h h' ∧ h'.table = h.table ∧ h'.tree.lookup full = some n ∧
      ∃ kind, h'.tree.kind? n = some kind ∧ target.node? = some (full, n, kind) := by
  unfold targetToOpen at hok
  rw [run_get_bind] at hok
  split at hok
  · next hdir =>
    split at hok <;> cases hok
    exact ⟨.refl h, rfl, hn, .directory, FileTree.isDirectory_iff_kind?.mp hdir, rfl⟩
  · next hdir =>
    have hfile : h.tree.isDirectory n = false := Bool.eq_false_iff.mpr hdir
    split at hok
    · cases hok
    · split at hok
      · obtain ⟨r, h₁, htree, hpure⟩ := run_bind_eq_ok hok
        cases hpure
        obtain ⟨t, hset, rfl⟩ := onTree_ok htree
        cases r with
        | none =>
          rw [FileTree.updateContent_none hset]
          exact ⟨.refl h, rfl, hn, .file, ht.kind?_file hn hfile, rfl⟩
        | some u =>
          obtain ⟨name, old, content, hold, hcut, rfl⟩ := FileTree.updateContent_some hset
          cases hcut
          have hlookup := (ht.lookup_withContent hfile (Content.resize old 0) full).trans hn
          refine ⟨(Change.filled (by rw [FileTree.content?, hold, Option.map_some]) ?_).changes, rfl,
            hlookup, .file, (ht.withContent hfile).kind?_file hlookup ?_, rfl⟩
          · rw [Content.length_resize]
            exact Nat.zero_le _
          · rw [FileTree.isDirectory_withContent hfile, hfile]
      · cases hok
        exact ⟨.refl h, rfl, hn, .file, ht.kind?_file hn hfile, rfl⟩

theorem insert_ok {k : Nat} (hi : insert d h = .ok k h') :
    k = h.table.lowestFree ∧ h' = { h with table := h.table.put h.table.lowestFree d } := by
  unfold insert at hi
  rw [run_get_bind] at hi
  split at hi
  · cases hi
  · rw [run_bind_ok (setDescriptor_run ..)] at hi
    cases hi
    exact ⟨rfl, rfl⟩

theorem atomic_insert (d : Descriptor) : Atomic (insert d) := by
  refine Atomic.after keeps_get fun h => ?_
  exact atomic_ite (keeps_ofChecked _).atomic (atomic_setDescriptor _ d _)

theorem alters_openPath (dirfd : Nat) (path : String) (flags : OpenFlags)
    (rights inheriting : Rights) (descriptorFlags : DescriptorFlags) :
    Alters (openPath dirfd path flags rights inheriting descriptorFlags) := by
  intro h ht
  -- Each part is looked at in the host that the part before it leaves.
  refine changes_bind (changes_of_keeps (keeps_resolve dirfd path) h) fun full h₁ hresolve => ?_
  obtain rfl : h₁ = h := (keeps_resolve dirfd path).ok hresolve
  refine changes_bind (changes_of_atomic (atomic_nodeToOpen full flags)
    fun n h₂ hnode => (nodeToOpen_finds ht hnode).1) fun n h₂ hnode => ?_
  obtain ⟨-, hwell, htable, hlookup⟩ := nodeToOpen_finds ht hnode
  refine changes_bind (changes_of_atomic (fun h e h' hfail => (targetToOpen_error hfail).1)
    fun target h₃ htarget => (targetToOpen_finds hwell hlookup htarget).1) fun target h₃ htarget => ?_
  obtain ⟨-, htable', hlookup', kind, hkind, hnode?⟩ := targetToOpen_finds hwell hlookup htarget
  refine changes_of_atomic (atomic_insert _) fun k h₄ hinsert => ?_
  obtain ⟨-, rfl⟩ := insert_ok hinsert
  exact (Change.opened (resolve_congr (htable'.trans htable) hresolve) hlookup' hkind hnode? rfl).changes

end Host

/-! ### All operations -/

/-- An operation on descriptors, with its arguments. -/
inductive DescriptorOperation where
  | openPath (dirfd : Nat) (path : String) (flags : OpenFlags) (rights inheriting : Rights)
      (descriptorFlags : DescriptorFlags)
  | makeDirectory (dirfd : Nat) (path : String)
  | pathFilestat (dirfd : Nat) (path : String)
  | close (fd : Nat)
  | read (fd length : Nat)
  | readAt (fd length offset : Nat)
  | write (fd : Nat) (data : Bytes)
  | writeAt (fd : Nat) (data : Bytes) (offset : Nat)
  | seek (fd : Nat) (offset : Int) (whence : Whence)
  | tell (fd : Nat)
  | filestat (fd : Nat)
  | fdstat (fd : Nat)
  | setFlags (fd : Nat) (flags : DescriptorFlags)
  | prestat (fd : Nat)
  | readDirectory (fd : Nat)
  | flush

/-- Runs the operation, and takes no notice of its answer. -/
def DescriptorOperation.act : DescriptorOperation → HostM Unit
  | openPath dirfd path flags rights inheriting descriptorFlags =>
    discard (Host.openPath dirfd path flags rights inheriting descriptorFlags)
  | makeDirectory dirfd path => Host.makeDirectory dirfd path
  | pathFilestat dirfd path => discard (Host.pathFilestat dirfd path)
  | close fd => Host.close fd
  | read fd length => discard (Host.read fd length)
  | readAt fd length offset => discard (Host.readAt fd length offset)
  | write fd data => discard (Host.write fd data)
  | writeAt fd data offset => discard (Host.writeAt fd data offset)
  | seek fd offset whence => discard (Host.seek fd offset whence)
  | tell fd => discard (Host.tell fd)
  | filestat fd => discard (Host.filestat fd)
  | fdstat fd => discard (Host.fdstat fd)
  | setFlags fd flags => Host.setFlags fd flags
  | prestat fd => discard (Host.prestat fd)
  | readDirectory fd => discard (Host.readDirectory fd)
  | flush => Host.flush

namespace Host

/-- The host that the operation leaves, whether it succeeds or fails. -/
def perform (h : Host) (op : DescriptorOperation) : Host := left (op.act h)

section Perform

variable (h : Host)

theorem perform_openPath (dirfd : Nat) (path : String) (flags : OpenFlags) (rights inheriting : Rights)
    (descriptorFlags : DescriptorFlags) :
    h.perform (.openPath dirfd path flags rights inheriting descriptorFlags) =
      left (openPath dirfd path flags rights inheriting descriptorFlags h) := left_discard _ h

theorem perform_read (fd length : Nat) : h.perform (.read fd length) = left (read fd length h) :=
  left_discard _ h

theorem perform_write (fd : Nat) (data : Bytes) : h.perform (.write fd data) = left (write fd data h) :=
  left_discard _ h

theorem perform_writeAt (fd : Nat) (data : Bytes) (offset : Nat) :
    h.perform (.writeAt fd data offset) = left (writeAt fd data offset h) := left_discard _ h

theorem perform_seek (fd : Nat) (offset : Int) (whence : Whence) :
    h.perform (.seek fd offset whence) = left (seek fd offset whence h) := left_discard _ h

end Perform

/-- The host that the operations leave, one after the other. -/
def run (h : Host) (ops : List DescriptorOperation) : Host := ops.foldl perform h

theorem Alters.discard {α : Type} {x : HostM α} (hx : Alters x) : Alters (discard x) := by
  intro h ht
  rw [left_discard]
  exact hx h ht

/-- **An operation changes a host** in these ways only, whatever comes of it. -/
theorem perform_changes {h : Host} (ht : h.tree.WellFormed) (op : DescriptorOperation) :
    Changes h (h.perform op) := by
  refine (?_ : Alters op.act) h ht
  cases op with
  | openPath dirfd path flags rights inheriting descriptorFlags =>
    exact (alters_openPath dirfd path flags rights inheriting descriptorFlags).discard
  | makeDirectory dirfd path => exact alters_makeDirectory dirfd path
  | pathFilestat dirfd path => exact (alters_of_keeps (keeps_pathFilestat dirfd path)).discard
  | close fd => exact alters_close fd
  | read fd length => exact (alters_read fd length).discard
  | readAt fd length offset => exact (alters_of_keeps (keeps_readAt fd length offset)).discard
  | write fd data => exact (alters_write fd data).discard
  | writeAt fd data offset => exact (alters_writeAt fd data offset).discard
  | seek fd offset whence => exact (alters_seek fd offset whence).discard
  | tell fd => exact (alters_of_keeps (keeps_tell fd)).discard
  | filestat fd => exact (alters_of_keeps (keeps_filestat fd)).discard
  | fdstat fd => exact (alters_of_keeps (keeps_fdstat fd)).discard
  | setFlags fd flags => exact alters_setFlags fd flags
  | prestat fd => exact (alters_of_keeps (keeps_prestat fd)).discard
  | readDirectory fd => exact (alters_of_keeps (keeps_readDirectory fd)).discard
  | flush => exact alters_flush

/-- No content of a file comes from outside. -/
theorem Change.edits {h h' : Host} (hc : Change h h') : FileTree.Edits [] h.tree h'.tree := by
  cases hc with
  | aside htree => rw [htree]; exact .refl h.tree
  | @made full body n t hbody hcreate =>
    have hempty : ∀ content, body = .file content → content = [] ∨ content ∈ ([] : List Bytes) := by
      rintro content rfl
      rcases hbody with hbody | hbody <;> cases hbody
      exact Or.inl rfl
    have hedits := FileTree.createAt_edits full hempty h.tree
    rwa [hcreate] at hedits
  | filled hold hle => exact (FileTree.Edit.filled hold hle).edits
  | opened | updated | closed => exact .refl h.tree

/-- A change keeps every node where it is. -/
theorem Change.retains {kinds : NodeKind → Prop} {h h' : Host} (hc : Change h h') :
    h.tree.Retains kinds h'.tree := hc.edits.retains

theorem Change.wellFormed {h h' : Host} (hc : Change h h') (ht : h.tree.WellFormed) :
    h'.tree.WellFormed := by
  cases hc with
  | aside htree => rwa [htree]
  | @made full body n t hbody hcreate => exact ((ht.createAt_refines full body).ok hcreate).1
  | filled hold => exact ht.withContent (FileTree.content?_not_directory hold)
  | opened | updated | closed => exact ht

/-- All handles on nodes of the tree are counted: its own on the root, those of its directories, and those
of others. -/
def Counted (h : Host) : Prop := h.tree.Counted (h.tree.root :: h.kept)

theorem counted_new (ops : List TreeOperation) (stdin : Bytes) (surroundings : Surroundings) :
    Counted (.new (FileTree.empty.run ops) stdin surroundings) := FileTree.counted_empty.run ops

theorem Counted.wellFormed {h : Host} (hc : h.Counted) : h.tree.WellFormed := hc.toWellFormed

theorem Change.counted_after {h h' : Host} (hc : Change h h') (hh : h.Counted) : h'.Counted := by
  cases hc with
  | aside htree hkept =>
    unfold Counted
    rwa [htree, hkept]
  | @made full body n t hbody hcreate =>
    obtain ⟨-, dir, x, rfl⟩ := FileTree.createAt_ok hcreate
    have hleft := FileTree.Counted.createAt hh full body
    rwa [hcreate] at hleft
  | filled hold => exact FileTree.Counted.withContent hh (FileTree.content?_not_directory hold) _
  | opened | updated | closed => exact hh

/-- The guest takes no handles on nodes. -/
theorem Change.kept_eq {h h' : Host} (hc : Change h h') : h'.kept = h.kept := by
  cases hc with
  | aside _ hkept => exact hkept
  | made | filled | opened | updated | closed => rfl

theorem Changes.kept_eq {h h' : Host} (hc : Changes h h') : h'.kept = h.kept :=
  hc.keeps (p := fun h' => h'.kept = h.kept) (fun _ _ hc hsame => hc.kept_eq.trans hsame) rfl

theorem Changes.counted_after {h h' : Host} (hc : Changes h h') (hh : h.Counted) : h'.Counted :=
  hc.keeps (fun _ _ hc hh => hc.counted_after hh) hh

theorem Changes.wellFormed {h h' : Host} (hc : Changes h h') (ht : h.tree.WellFormed) : h'.tree.WellFormed :=
  hc.keeps (p := fun h => h.tree.WellFormed) (fun _ _ hc ht => hc.wellFormed ht) ht

theorem Changes.retains {kinds : NodeKind → Prop} {h h' : Host} (hc : Changes h h') :
    h.tree.Retains kinds h'.tree :=
  hc.keeps (p := fun h' => h.tree.Retains kinds h'.tree) (fun _ _ hc hr => hr.trans hc.retains)
    (.refl h.tree)

/-- **What each change keeps up**, every run of operations does. -/
theorem run_keeps {p : Host → Prop}
    (hp : ∀ h h', Change h h' → h.tree.WellFormed → p h → p h') {h : Host} (ht : h.tree.WellFormed)
    (hh : p h) (ops : List DescriptorOperation) : (h.run ops).tree.WellFormed ∧ p (h.run ops) := by
  induction ops generalizing h with
  | nil => exact ⟨ht, hh⟩
  | cons op ops ih =>
    obtain ⟨ht', hh'⟩ := (perform_changes ht op).keeps (p := fun h => h.tree.WellFormed ∧ p h)
      (fun h h' hc hh => ⟨hc.wellFormed hh.1, hp h h' hc hh.1 hh.2⟩) ⟨ht, hh⟩
    exact ih ht' hh'

end Host

end WasiSandbox
