import WasiSandbox.Command.Pair
import WasiSandbox.Proofs.Host.Composition
import WasiSandbox.Proofs.Memory.Tables

/-! # Variables reach the guest as they were given

A variable on the command line is a text that is parted at its first `=` (`parsePair_eq_ok_iff`), and its two
sides make the same text again. So the strings that the guest sees are texts of the command line: for each key
the one that was given last, in the order of the keys (`lastGiven_strings`). They stand in the table that
the host hands out, each with its terminator (`environment_verbatim`). -/

namespace WasiSandbox

namespace Command

variable {cs left right : List Char} {raw key value : String} {raws : List String}
  {vars : List (String × String)}

/-! ### Parting at the first `=` -/

theorem splitAtEquals_eq_some_iff :
    splitAtEquals cs = some (left, right) ↔ cs = left ++ '=' :: right ∧ '=' ∉ left := by
  induction cs generalizing left with
  | nil => simp [splitAtEquals]
  | cons c cs ih =>
    unfold splitAtEquals
    split
    · next heq =>
      subst heq
      cases left with
      | nil => simp [eq_comm]
      | cons d left =>
        constructor
        · intro h
          cases h
        · rintro ⟨h, hleft⟩
          cases h
          exact absurd List.mem_cons_self hleft
    · next hne =>
      rw [Option.map_eq_some_iff]
      cases left with
      | nil =>
        constructor
        · rintro ⟨_, -, h⟩
          cases h
        · rintro ⟨h, -⟩
          cases h
          exact absurd rfl hne
      | cons d left =>
        constructor
        · rintro ⟨_, hsplit, h⟩
          cases h
          obtain ⟨rfl, hleft⟩ := ih.mp hsplit
          exact ⟨rfl, List.not_mem_cons_of_ne_of_not_mem (Ne.symm hne) hleft⟩
        · rintro ⟨h, hleft⟩
          cases h
          exact ⟨_, ih.mpr ⟨rfl, List.not_mem_of_not_mem_cons hleft⟩, rfl⟩

/-- The two sides with `=` between them. -/
def joined (pair : String × String) : String := pair.1 ++ "=" ++ pair.2

theorem toList_joined (pair : String × String) :
    (joined pair).toList = pair.1.toList ++ '=' :: pair.2.toList := by
  simp [joined]

/-- **A text is a pair** if it is parted by its first `=` and does not begin with it. -/
theorem parsePair_eq_ok_iff : parsePair raw = .ok (key, value) ↔
    raw = joined (key, value) ∧ key ≠ "" ∧ '=' ∉ key.toList := by
  constructor
  · intro h
    unfold parsePair at h
    split at h
    · next left right hsplit =>
      obtain ⟨hparts, hleft⟩ := splitAtEquals_eq_some_iff.mp hsplit
      split at h
      · cases h
      · next hne =>
        cases h
        refine ⟨?_, fun hempty => hne ?_, by rwa [String.toList_ofList]⟩
        · rw [← String.toList_inj, toList_joined, hparts, String.toList_ofList, String.toList_ofList]
        · rw [← String.toList_ofList (l := left), hempty]
          rfl
    · cases h
  · rintro ⟨rfl, hne, hkey⟩
    have hnonempty : key.toList ≠ [] := fun hnil => hne (String.toList_inj.mp hnil)
    unfold parsePair
    rw [splitAtEquals_eq_some_iff.mpr ⟨toList_joined (key, value), hkey⟩]
    dsimp only
    rw [if_neg hnonempty, String.ofList_toList, String.ofList_toList]

/-- It contains `=` and does not begin with it. -/
def IsPair (raw : String) : Prop := '=' ∈ raw.toList ∧ raw.toList.head? ≠ some '='

instance (raw : String) : Decidable (IsPair raw) :=
  inferInstanceAs (Decidable ('=' ∈ raw.toList ∧ raw.toList.head? ≠ some '='))

theorem exists_parsePair_iff : (∃ pair, parsePair raw = .ok pair) ↔ IsPair raw := by
  constructor
  · rintro ⟨⟨key, value⟩, h⟩
    obtain ⟨rfl, hne, hkey⟩ := parsePair_eq_ok_iff.mp h
    unfold IsPair
    rw [toList_joined]
    refine ⟨List.mem_append_right _ List.mem_cons_self, fun hhead => ?_⟩
    cases hlist : key.toList with
    | nil => exact hne (String.toList_inj.mp hlist)
    | cons c cs =>
      rw [hlist] at hhead hkey
      cases hhead
      exact hkey List.mem_cons_self
  · rintro ⟨hmem, hhead⟩
    obtain ⟨left, right, hparts, hleft⟩ := List.eq_append_cons_of_mem hmem
    refine ⟨(String.ofList left, String.ofList right), parsePair_eq_ok_iff.mpr ⟨?_, fun hempty => hhead ?_, ?_⟩⟩
    · rw [← String.toList_inj, toList_joined, hparts, String.toList_ofList, String.toList_ofList]
    · rw [hparts, ← String.toList_ofList (l := left), hempty]
      rfl
    · rwa [String.toList_ofList]

/-- Texts that are pairs can all be parted. -/
theorem exists_mapM_parsePair (h : ∀ raw ∈ raws, IsPair raw) : ∃ vars, raws.mapM parsePair = .ok vars := by
  induction raws with
  | nil => exact ⟨[], rfl⟩
  | cons raw raws ih =>
    obtain ⟨hraw, hraws⟩ := List.forall_mem_cons.mp h
    obtain ⟨var, hvar⟩ := exists_parsePair_iff.mpr hraw
    obtain ⟨vars, hvars⟩ := ih hraws
    refine ⟨var :: vars, ?_⟩
    rw [List.mapM_cons, hvar, hvars]
    rfl

/-- Nothing is lost where texts are parted. -/
theorem mapM_parsePair_ok (h : raws.mapM parsePair = .ok vars) :
    raws = vars.map joined ∧ ∀ var ∈ vars, '=' ∉ var.1.toList := by
  induction raws generalizing vars with
  | nil =>
    cases h
    exact ⟨rfl, fun var hvar => absurd hvar List.not_mem_nil⟩
  | cons raw raws ih =>
    rw [List.mapM_cons] at h
    obtain ⟨var, hvar, hothers⟩ := Checked.bind_eq_ok h
    obtain ⟨rest, hrest, hpure⟩ := Checked.bind_eq_ok hothers
    cases hpure
    obtain ⟨rfl, -, hkey⟩ := parsePair_eq_ok_iff.mp hvar
    obtain ⟨rfl, hkeys⟩ := ih hrest
    exact ⟨rfl, List.forall_mem_cons.mpr ⟨hkey, hkeys⟩⟩

/-! ### The texts that were given last -/

/-- What is left of the first `=`. -/
def keyOf (raw : String) : String := String.ofList (raw.toList.takeWhile (· ≠ '='))

theorem keyOf_joined {pair : String × String} (h : '=' ∉ pair.1.toList) : keyOf (joined pair) = pair.1 := by
  have hbefore : ∀ c ∈ pair.1.toList, decide (c ≠ '=') = true := fun c hc => by
    refine decide_eq_true fun heq => h ?_
    rwa [← heq]
  unfold keyOf
  rw [toList_joined, List.takeWhile_append_of_pos hbefore, List.takeWhile_cons_of_neg (by decide),
    List.append_nil, String.ofList_toList]

/-- The strings are texts of the command line: of those with one key the last, in the order of the keys. -/
structure LastGiven (raws strings : List String) : Prop where
  /-- Every key that was given has a string, and no other has. -/
  keys : ∀ key, key ∈ strings.map keyOf ↔ key ∈ raws.map keyOf
  /-- The keys stand in increasing order, each once. -/
  ordered : (strings.map keyOf).Pairwise fun a b => Text.nameLe a b = true ∧ a ≠ b
  /-- Each string was given as it is, and behind it no other with its key. -/
  last : ∀ string ∈ strings, ∃ before after, raws = before ++ string :: after ∧
    keyOf string ∉ after.map keyOf

theorem map_keyOf_joined (h : ∀ var ∈ vars, '=' ∉ var.1.toList) :
    (vars.map joined).map keyOf = vars.map (·.1) := by
  rw [List.map_map]
  exact List.map_congr_left fun var hvar => keyOf_joined (h var hvar)

/-- **The guest sees the texts that were given last.** -/
theorem lastGiven_strings (h : ∀ var ∈ vars, '=' ∉ var.1.toList) :
    LastGiven (vars.map joined) (Environment.strings vars) := by
  obtain ⟨env, hstrings, hsorted, hlookup⟩ := Environment.rendered_strings vars
  -- What was given last for a key is found from the end.
  have hlast : ∀ var ∈ env, ∃ before after, vars = before ++ var :: after ∧ var.1 ∉ after.map (·.1) := by
    intro var hvar
    obtain ⟨behind, front, hsplit, hnew⟩ :=
      List.lookup_eq_some_iff.mp ((hlookup var.1).symm.trans (hsorted.lookup_of_mem hvar))
    refine ⟨front.reverse, behind.reverse, ?_, fun hkey => ?_⟩
    · rw [← List.reverse_reverse vars, hsplit]
      simp
    · obtain ⟨other, hother, heq⟩ := List.mem_map.mp hkey
      exact bne_iff_ne.mp (hnew other (List.mem_reverse.mp hother)) heq.symm
  have henv : ∀ var ∈ env, '=' ∉ var.1.toList := fun var hvar => by
    obtain ⟨before, after, rfl, -⟩ := hlast var hvar
    exact h var (List.mem_append_right _ List.mem_cons_self)
  have hkeys := map_keyOf_joined henv
  have hgiven := map_keyOf_joined h
  rw [show Environment.strings vars = env.map joined from hstrings]
  refine ⟨fun key => ?_, ?_, fun string hstring => ?_⟩
  · rw [hkeys, hgiven, Environment.mem_keys_iff, hlookup, ← Environment.mem_keys_iff, List.map_reverse,
      List.mem_reverse]
  · rw [hkeys]
    exact hsorted
  · obtain ⟨var, hvar, rfl⟩ := List.mem_map.mp hstring
    obtain ⟨before, after, rfl, hnew⟩ := hlast var hvar
    have hafter : ∀ v ∈ after, '=' ∉ v.1.toList := fun v hv =>
      h v (List.mem_append_right _ (List.mem_cons_of_mem _ hv))
    refine ⟨before.map joined, after.map joined, by simp, ?_⟩
    rwa [keyOf_joined (henv var hvar), map_keyOf_joined hafter]

end Command

/-! ### The table -/

/-- The table is made of these strings. -/
structure StringTable.MadeOf (t : StringTable) (items : List String) : Prop where
  /-- They stand in its block one after the other, each with one terminator. -/
  block : t.block = items.flatMap fun item => Text.utf8 item ++ [0]
  /-- Each of them begins where those before it have ended. -/
  starts : t.offsets = (List.range items.length).map fun i => .ofNat (total (items.take i))
  /-- The number and the size that the guest is told are theirs, as words. -/
  count : t.count = .ofNat items.length
  size : t.blockSize = .ofNat (total items)
  /-- They are exact if the words can hold them. -/
  exact : total items < UInt32.size → t.count.toNat = items.length ∧ t.blockSize.toNat = total items

theorem StringTable.madeOf_ofList (items : List String) : (ofList items).MadeOf items := by
  have hcount : (ofList items).count = .ofNat items.length := congrArg UInt32.ofNat (length_offsets items)
  have hsize : (ofList items).blockSize = .ofNat (total items) := congrArg UInt32.ofNat (size_ofList items)
  refine ⟨block_ofList items, offsets_ofList items, hcount, hsize, fun hfits => ?_⟩
  rw [hcount, hsize]
  exact ⟨UInt32.toNat_ofNat_of_lt' (Nat.lt_of_le_of_lt (length_le_total items) hfits),
    UInt32.toNat_ofNat_of_lt' hfits⟩

/-- A call of the import does to memory what the operation does at the two words that it is given, and answers
with its error number; it does nothing to the host. -/
structure Import.WritesBy (i : Import) (op : UInt32 → UInt32 → MemoryM Unit) : Prop where
  signature : i.signature = ⟨[.i32, .i32], [.i32]⟩
  succeeds : ∀ p q m m' host, op p q m = .ok () m' →
    i.body [.i32 p, .i32 q] ⟨some m, host⟩ = .ok (Syscall.answer .success) ⟨some m', host⟩
  fails : ∀ p q m m' host e, op p q m = .error (.reported e) m' →
    i.body [.i32 p, .i32 q] ⟨some m, host⟩ = .ok (Syscall.answer e) ⟨some m', host⟩
  /-- A guest without memory is told so. -/
  homeless : ∀ p q host,
    i.body [.i32 p, .i32 q] ⟨none, host⟩ = .ok (Syscall.answer .fault) ⟨none, host⟩

/-- Whatever guest is linked to the host, what it calls by the names `environ_sizes_get` and `environ_get` are
imports that write the sizes of this table to its memory, and the table itself. -/
structure ComposedHost.HandsOut (h : ComposedHost) (t : StringTable) : Prop where
  sizes : ∃ call : Import, call.WritesBy t.writeSizes ∧ ∀ (σ φ : Type) (g : Guest σ φ),
    (⟨g, h.imports⟩ : Linked σ φ).import? ⟨"wasi_snapshot_preview1", "environ_sizes_get"⟩ = some call
  strings : ∃ call : Import, call.WritesBy t.write ∧ ∀ (σ φ : Type) (g : Guest σ φ),
    (⟨g, h.imports⟩ : Linked σ φ).import? ⟨"wasi_snapshot_preview1", "environ_get"⟩ = some call

/-- A system call that works on memory at its two arguments. -/
theorem Syscall.define_writesBy (name : String) (op : UInt32 → UInt32 → MemoryM Unit) :
    (define name [.i32, .i32] fun args => do
      requireMemory
      onMemory (op (← word args 0) (← word args 1))).WritesBy op where
  signature := rfl
  succeeds p q m m' host hop := by
    show run (fun _ => onMemory (op p q)) [] ⟨some m, host⟩ = _
    simp only [run, onMemory, hop]
  fails p q m m' host e hop := by
    show run (fun _ => onMemory (op p q)) [] ⟨some m, host⟩ = _
    simp only [run, onMemory, hop]
  homeless p q host := rfl

/-- A table does not bear on the names and signatures of the calls that hand it over. -/
theorem Syscall.map_tableCalls (sizesName getName : String) (t : StringTable) :
    (tableCalls sizesName getName t).map (fun i => (i.id, i.signature)) =
      [(⟨moduleName, sizesName⟩, ⟨[.i32, .i32], [.i32]⟩),
        (⟨moduleName, getName⟩, ⟨[.i32, .i32], [.i32]⟩)] := by
  simp only [tableCalls, define, List.map_cons, List.map_nil]

namespace HostSetup

variable {s : HostSetup} {h : ComposedHost}

theorem handsOut (hbuild : s.build = .ok h) :
    h.HandsOut (.ofList (Environment.strings s.env)) := by
  obtain ⟨hfaultless, rfl⟩ := build_ok_iff.mp hbuild
  have hfound : ∀ call ∈ (Syscall.environment (.ofList (Environment.strings s.env))).imports,
      ∀ (σ φ : Type) (g : Guest σ φ), (⟨g, s.definitions⟩ : Linked σ φ).import? call.id = some call := by
    intro call hcall σ φ g
    refine import?_of_nodup (faultless_offered_iff.mp hfaultless).1 ?_ g
    have hprovider : Syscall.environment (.ofList (Environment.strings s.env)) ∈ s.builtins :=
      List.mem_cons_of_mem _ List.mem_cons_self
    exact List.mem_append_left _ (List.mem_append_left _ (List.mem_flatMap.mpr ⟨_, hprovider, hcall⟩))
  exact ⟨⟨_, Syscall.define_writesBy _ _, hfound _ List.mem_cons_self⟩,
    ⟨_, Syscall.define_writesBy _ _, hfound _ (List.mem_cons_of_mem _ List.mem_cons_self)⟩⟩

/-- The names and signatures of the system calls are the same in every setup. -/
theorem map_builtins (s s' : HostSetup) :
    (s.builtins.flatMap (·.imports)).map (fun i => (i.id, i.signature)) =
      (s'.builtins.flatMap (·.imports)).map fun i => (i.id, i.signature) := by
  unfold builtins Syscall.arguments Syscall.environment
  simp only [List.flatMap_cons, List.map_append, Syscall.map_tableCalls]

/-- With nothing but system calls, a host can be built. -/
theorem exists_build (hproviders : s.providers = []) (hcustom : s.custom = []) : ∃ h, s.build = .ok h := by
  have hdefinitions : s.definitions = s.builtins.flatMap (·.imports) := by
    unfold definitions
    rw [hproviders, hcustom, List.flatMap_nil, List.append_nil, List.append_nil]
  have hnames : ((s.builtins.flatMap (·.imports)).map fun i => (i.id, i.signature)) = _ :=
    map_builtins s {}
  have hdistinct : (s.definitions.map (·.id)).Nodup := by
    rw [hdefinitions, show (fun i : Import => i.id) = Prod.fst ∘ fun i => (i.id, i.signature) from rfl,
      ← List.map_map, hnames]
    decide +kernel
  have hnumeric : ∀ i ∈ s.definitions, i.signature.IsNumeric := by
    intro i hi
    rw [hdefinitions] at hi
    have hmem := List.mem_map_of_mem (f := fun i : Import => (i.id, i.signature)) hi
    rw [hnames] at hmem
    have hall : ∀ call ∈ (({} : HostSetup).builtins.flatMap (·.imports)).map fun i => (i.id, i.signature),
        ∀ type ∈ call.2.params ++ call.2.results, type.isNumeric = true := by decide +kernel
    exact hall _ hmem
  exact ⟨_, build_ok_iff.mpr ⟨faultless_offered_iff.mpr ⟨hdistinct, hnumeric⟩, rfl⟩⟩

end HostSetup

/-! ### From the command line to the guest -/

/-- **Variables reach the guest as they were given on the command line.** A text is accepted just if it has a
`=` and does not begin with it. Of texts that are accepted those that were given last are the strings of the
table that the host hands out, in the order of their keys: the guest is told its sizes by
`environ_sizes_get`, and `environ_get` writes it to memory. The order of the keys is not that of the texts:
`A` comes before `A-`, and `A-=` before `A=`. -/
theorem environment_verbatim :
    (∀ raw, (∃ pair, Command.parsePair raw = .ok pair) ↔ Command.IsPair raw) ∧
    (∀ raws : List String, (∀ raw ∈ raws, Command.IsPair raw) →
      ∃ vars, raws.mapM Command.parsePair = .ok vars ∧
        Command.LastGiven raws (Environment.strings vars) ∧
        (StringTable.ofList (Environment.strings vars)).MadeOf (Environment.strings vars) ∧
        ∀ s : HostSetup, s.env = vars →
          (s.providers = [] → s.custom = [] → ∃ h, s.build = .ok h) ∧
          ∀ h, s.build = .ok h → h.HandsOut (.ofList (Environment.strings vars))) ∧
    ∃ raws : List String, ∃ vars, raws.mapM Command.parsePair = .ok vars ∧
      ¬ (Environment.strings vars).Pairwise fun a b => Text.nameLe a b = true := by
  refine ⟨fun raw => Command.exists_parsePair_iff, fun raws hpairs => ?_,
    ["A-=", "A="], [("A-", ""), ("A", "")], by decide +kernel, by decide +kernel⟩
  obtain ⟨vars, hvars⟩ := Command.exists_mapM_parsePair hpairs
  obtain ⟨rfl, hkeys⟩ := Command.mapM_parsePair_ok hvars
  refine ⟨vars, hvars, Command.lastGiven_strings hkeys, StringTable.madeOf_ofList _, ?_⟩
  rintro s rfl
  exact ⟨HostSetup.exists_build, fun h => HostSetup.handsOut⟩

/-- Of two texts for one key the later one is seen, with the `=` in its value, and it is before a text that is
less than it. A guest that asks is told that there are three texts and fourteen octets. -/
theorem later_value_verbatim :
    (∀ raw ∈ ["A-=1", "A=2", "B=", "A=x=y"], Command.IsPair raw) ∧
    ∃ vars, ["A-=1", "A=2", "B=", "A=x=y"].mapM Command.parsePair = .ok vars ∧
      Environment.strings vars = ["A=x=y", "A-=1", "B="] ∧
      ∃ h, ({ env := vars } : HostSetup).build = .ok h ∧
        h.HandsOut (.ofList ["A=x=y", "A-=1", "B="]) ∧
        ∃ call : Import, (∀ (σ φ : Type) (g : Guest σ φ), (⟨g, h.imports⟩ : Linked σ φ).import?
            ⟨"wasi_snapshot_preview1", "environ_sizes_get"⟩ = some call) ∧
          ∀ host, ∃ m', call.body [.i32 0, .i32 4] ⟨some (Memory.filled 8 0), host⟩ =
              .ok (Syscall.answer .success) ⟨some m', host⟩ ∧
            m'.octets = #[3, 0, 0, 0, 14, 0, 0, 0] := by
  have hpairs : ∀ raw ∈ ["A-=1", "A=2", "B=", "A=x=y"], Command.IsPair raw := by decide +kernel
  obtain ⟨vars, hvars, -, -, hhosts⟩ := environment_verbatim.2.1 _ hpairs
  have hgiven : ["A-=1", "A=2", "B=", "A=x=y"].mapM Command.parsePair =
      .ok [("A-", "1"), ("A", "2"), ("B", ""), ("A", "x=y")] := by decide +kernel
  have hstrings : Environment.strings vars = ["A=x=y", "A-=1", "B="] := by
    cases hvars.symm.trans hgiven
    decide +kernel
  obtain ⟨hbuilt, hout⟩ := hhosts { env := vars } rfl
  obtain ⟨h, hbuild⟩ := hbuilt rfl rfl
  have hhands : h.HandsOut (.ofList ["A=x=y", "A-=1", "B="]) := hstrings ▸ hout h hbuild
  obtain ⟨call, hcall, hfound⟩ := hhands.sizes
  obtain ⟨m', hsizes, hoctets⟩ : ∃ m', (StringTable.ofList ["A=x=y", "A-=1", "B="]).writeSizes 0 4
      (Memory.filled 8 0) = .ok () m' ∧ m'.octets = #[3, 0, 0, 0, 14, 0, 0, 0] := ⟨_, rfl, by decide +kernel⟩
  exact ⟨hpairs, vars, hvars, hstrings, h, hbuild, hhands, call, hfound,
    fun host => ⟨m', hcall.succeeds _ _ _ _ host hsizes, hoctets⟩⟩

end WasiSandbox
