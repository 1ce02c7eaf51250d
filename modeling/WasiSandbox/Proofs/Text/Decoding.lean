import WasiSandbox.Text.Utf8

/-! # What lossy decoding does to whole texts

An octet below 0x80 is a character of its own and ends whatever was begun before it, so the lossy
decoder forgets everything at such an octet (`isWhole_ascii`), and what stands behind whole characters
is decoded as if it stood alone (`decodeLossy_append`). And the octets of a text are decoded to that text
(`decodeLossy_utf8`), since the range that the decoder holds the first continuation octet to leaves out no
character; so the order of the octets is an order of texts. -/

namespace WasiSandbox.Text

variable {state : Utf8State} {b : UInt8}

theorem utf8Entries_cons (state : Utf8State) (b : UInt8) (rest : Bytes) :
    utf8Entries state (b :: rest) =
      (utf8Step state b).1 ++ utf8Entries (utf8Step state b).2 rest := by
  cases state <;> rfl

/-! ### Cutting -/

/-- Only an octet from 0x80 on can continue a character. -/
def Utf8State.Continues : Utf8State → Prop
  | .start => True
  | .continuation _ low _ _ => 0x80 ≤ low

theorem Utf8State.start_continues : Utf8State.start.Continues := trivial

theorem utf8Start_continues (b : UInt8) : (utf8Start b).2.Continues := by
  unfold utf8Start
  repeat' split
  all_goals simp [Utf8State.Continues]

theorem utf8Step_continues (h : state.Continues) (b : UInt8) : (utf8Step state b).2.Continues := by
  cases state with
  | start => exact utf8Start_continues b
  | continuation more low high bits =>
    rw [utf8Step]
    split
    · cases more with
      | zero => trivial
      | succ more => exact UInt8.le_refl 0x80
    · exact utf8Start_continues b

/-- A character of one octet ends whatever was begun. -/
theorem utf8Step_ascii (h : state.Continues) (hb : b < 0x80) : (utf8Step state b).2 = .start := by
  have hstart : (utf8Start b).2 = .start := by rw [utf8Start, if_pos hb]
  cases state with
  | start => exact hstart
  | continuation more low high bits =>
    have hlow : ¬ low ≤ b := UInt8.not_le.mpr (UInt8.lt_of_lt_of_le hb h)
    rw [utf8Step, if_neg fun hin => hlow hin.1]
    exact hstart

/-- The state of the decoder behind the octets. -/
def utf8After (state : Utf8State) (b : Bytes) : Utf8State :=
  b.foldl (fun state x => (utf8Step state x).2) state

/-- No character is under way behind the octets. -/
def IsWhole (b : Bytes) : Prop := utf8After .start b = .start

instance (b : Bytes) : Decidable (IsWhole b) := inferInstanceAs (Decidable (_ = _))

theorem utf8After_continues (h : state.Continues) (front : Bytes) :
    (utf8After state front).Continues := by
  induction front generalizing state with
  | nil => exact h
  | cons a front ih => exact ih (utf8Step_continues h a)

/-- Behind a character of one octet none is under way. -/
theorem isWhole_ascii (hb : b < 0x80) (front : Bytes) : IsWhole (front ++ [b]) := by
  unfold IsWhole utf8After
  rw [List.foldl_append]
  exact utf8Step_ascii (utf8After_continues Utf8State.start_continues front) hb

theorem utf8Entries_append {front : Bytes} (h : utf8After state front = .start) (rest : Bytes) :
    utf8Entries state (front ++ rest) = utf8Entries state front ++ utf8Entries .start rest := by
  induction front generalizing state with
  | nil =>
    obtain rfl : state = .start := h
    rfl
  | cons a front ih =>
    rw [List.cons_append, utf8Entries_cons, utf8Entries_cons, ih h, List.append_assoc]

/-- **A cut between two characters** goes unnoticed. -/
theorem decodeLossy_append {front : Bytes} (h : IsWhole front) (rest : Bytes) :
    decodeLossy (front ++ rest) = decodeLossy front ++ decodeLossy rest := by
  unfold decodeLossy
  rw [utf8Entries_append h, List.map_append, String.ofList_append]

theorem decodeLossy_nil : decodeLossy [] = "" := rfl

/-! ### Texts -/

/-- The first octet of a character of two. -/
theorem utf8Step_two : ∀ n < 32, 2 ≤ n →
    utf8Step .start (.ofNat (n + 0xC0)) = ([], .continuation 0 0x80 0xBF n) := by
  decide

/-- The first octet of a character of three: overlong forms and surrogates are left out. -/
theorem utf8Step_three : ∀ n < 16, utf8Step .start (.ofNat (n + 0xE0)) =
    ([], .continuation 1 (if n = 0 then 0xA0 else 0x80) (if n = 13 then 0x9F else 0xBF) n) := by
  decide

/-- The first octet of a character of four: overlong forms and what is too large are left out. -/
theorem utf8Step_four : ∀ n < 5, utf8Step .start (.ofNat (n + 0xF0)) =
    ([], .continuation 2 (if n = 0 then 0x90 else 0x80) (if n = 4 then 0x8F else 0xBF) n) := by
  decide

theorem toNat_ofNat_continuation {n : Nat} (hn : n < 64) :
    (UInt8.ofNat (n + 0x80)).toNat = n + 0x80 :=
  UInt8.toNat_ofNat_of_lt' (Nat.lt_of_lt_of_le (Nat.add_lt_add_right hn 0x80) (by decide))

section Continuation

variable (more bits : Nat) {n : Nat} (low high : UInt8) (hn : n < 64)
  (hlow : low.toNat ≤ n + 0x80) (hhigh : n + 0x80 ≤ high.toNat)

include hn hlow hhigh

theorem utf8Step_more : utf8Step (.continuation (more + 1) low high bits) (.ofNat (n + 0x80)) =
    ([], .continuation more 0x80 0xBF (bits * 64 + n)) := by
  have hb := toNat_ofNat_continuation hn
  rw [utf8Step, if_pos ⟨by rwa [UInt8.le_iff_toNat_le, hb], by rwa [UInt8.le_iff_toNat_le, hb]⟩]
  dsimp only
  rw [hb, Nat.add_sub_cancel]

theorem utf8Step_last : utf8Step (.continuation 0 low high bits) (.ofNat (n + 0x80)) =
    ([some (Char.ofNat (bits * 64 + n))], .start) := by
  have hb := toNat_ofNat_continuation hn
  rw [utf8Step, if_pos ⟨by rwa [UInt8.le_iff_toNat_le, hb], by rwa [UInt8.le_iff_toNat_le, hb]⟩]
  dsimp only
  rw [hb, Nat.add_sub_cancel]

end Continuation

theorem utf8Entries_step {next : Utf8State} {read : List (Option Char)}
    (h : utf8Step state b = (read, next)) (rest : Bytes) :
    utf8Entries state (b :: rest) = read ++ utf8Entries next rest := by
  rw [utf8Entries_cons, h]

section Widths

variable (lead x y z : Nat)

theorem utf8Entries_one (hx : x < 0x80) (rest : Bytes) :
    utf8Entries .start (.ofNat x :: rest) = some (Char.ofNat x) :: utf8Entries .start rest := by
  have hb : (UInt8.ofNat x).toNat = x :=
    UInt8.toNat_ofNat_of_lt' (Nat.lt_of_lt_of_le hx (by decide))
  have hlt : UInt8.ofNat x < 0x80 := by rwa [UInt8.lt_iff_toNat_lt, hb]
  have hstep : utf8Step .start (.ofNat x) = ([some (Char.ofNat x)], .start) := by
    rw [utf8Step, utf8Start, if_pos hlt, hb]
  exact utf8Entries_step hstep rest

theorem utf8Entries_two (hlead : lead < 32) (hshort : 2 ≤ lead) (hx : x < 64) (rest : Bytes) :
    utf8Entries .start (.ofNat (lead + 0xC0) :: .ofNat (x + 0x80) :: rest) =
      some (Char.ofNat (lead * 64 + x)) :: utf8Entries .start rest := by
  have hlast := utf8Step_last lead 0x80 0xBF hx (by simp) (by simp; omega)
  rw [utf8Entries_step (utf8Step_two lead hlead hshort), utf8Entries_step hlast]
  rfl

theorem utf8Entries_three (hlead : lead < 16) (hx : x < 64) (hy : y < 64)
    (hshort : lead = 0 → 0x20 ≤ x) (hsurrogate : lead = 13 → x < 0x20) (rest : Bytes) :
    utf8Entries .start
        (.ofNat (lead + 0xE0) :: .ofNat (x + 0x80) :: .ofNat (y + 0x80) :: rest) =
      some (Char.ofNat ((lead * 64 + x) * 64 + y)) :: utf8Entries .start rest := by
  have hmore := utf8Step_more 0 lead
    (if lead = 0 then 0xA0 else 0x80) (if lead = 13 then 0x9F else 0xBF) hx
    (by split <;> simp; omega) (by split <;> simp <;> omega)
  have hlast := utf8Step_last (lead * 64 + x) 0x80 0xBF hy (by simp) (by simp; omega)
  rw [utf8Entries_step (utf8Step_three lead hlead), List.nil_append, utf8Entries_step hmore,
    utf8Entries_step hlast]
  rfl

theorem utf8Entries_four (hlead : lead < 5) (hx : x < 64) (hy : y < 64) (hz : z < 64)
    (hshort : lead = 0 → 0x10 ≤ x) (hlarge : lead = 4 → x < 0x10) (rest : Bytes) :
    utf8Entries .start (.ofNat (lead + 0xF0) :: .ofNat (x + 0x80) :: .ofNat (y + 0x80) ::
        .ofNat (z + 0x80) :: rest) =
      some (Char.ofNat (((lead * 64 + x) * 64 + y) * 64 + z)) :: utf8Entries .start rest := by
  have hsecond := utf8Step_more 1 lead
    (if lead = 0 then 0x90 else 0x80) (if lead = 4 then 0x8F else 0xBF) hx
    (by split <;> simp; omega) (by split <;> simp <;> omega)
  have hthird := utf8Step_more 0 (lead * 64 + x) 0x80 0xBF hy (by simp) (by simp; omega)
  have hlast := utf8Step_last ((lead * 64 + x) * 64 + y) 0x80 0xBF hz (by simp) (by simp; omega)
  rw [utf8Entries_step (utf8Step_four lead hlead), List.nil_append, utf8Entries_step hsecond,
    List.nil_append, utf8Entries_step hthird, utf8Entries_step hlast]
  rfl

end Widths

/-- **The octets of a character** are read as that character. -/
theorem utf8Entries_encode (c : Char) (rest : Bytes) :
    utf8Entries .start (String.utf8EncodeChar c ++ rest) = some c :: utf8Entries .start rest := by
  have hvalid : c.toNat < 0xD800 ∨ 0xDFFF < c.toNat ∧ c.toNat < 0x110000 := c.valid
  have hread : Char.ofNat c.toNat = c := Char.ofNat_toNat c
  unfold String.utf8EncodeChar
  dsimp only [Char.toNat_val]
  generalize c.toNat = v at hvalid hread
  -- Each octet has its share of the bits of the character, and the shares make up the whole.
  split
  · rw [← hread]
    exact utf8Entries_one v (by omega) rest
  split
  · have hwhole : v / 64 % 32 * 64 + v % 64 = v := by omega
    have h := utf8Entries_two (v / 64 % 32) (v % 64) (by omega) (by omega) (by omega) rest
    rwa [hwhole, hread] at h
  split
  · have hwhole : (v / 4096 % 16 * 64 + v / 64 % 64) * 64 + v % 64 = v := by omega
    have h := utf8Entries_three (v / 4096 % 16) (v / 64 % 64) (v % 64) (by omega) (by omega)
      (by omega) (by omega) (by omega) rest
    rwa [hwhole, hread] at h
  · have hwhole : ((v / 262144 % 8 * 64 + v / 4096 % 64) * 64 + v / 64 % 64) * 64 + v % 64 = v := by
      omega
    have h := utf8Entries_four (v / 262144 % 8) (v / 4096 % 64) (v / 64 % 64) (v % 64)
      (by omega) (by omega) (by omega) (by omega) (by omega) (by omega) rest
    rwa [hwhole, hread] at h

/-- **The octets of a text** are decoded to that text. -/
theorem decodeLossy_utf8 (s : String) : decodeLossy (utf8 s) = s := by
  have hentries : ∀ l : List Char,
      utf8Entries .start (l.flatMap String.utf8EncodeChar) = l.map some := by
    intro l
    induction l with
    | nil => rfl
    | cons c l ih => rw [List.flatMap_cons, utf8Entries_encode, ih, List.map_cons]
  unfold decodeLossy utf8
  rw [hentries, List.map_map]
  exact (congrArg String.ofList (List.map_id _)).trans String.ofList_toList

/-! ### The order of names -/

theorem nameLe_trans {a b c : String} (hab : nameLe a b = true) (hbc : nameLe b c = true) :
    nameLe a c = true := by
  unfold nameLe at *
  exact decide_eq_true (List.le_trans (of_decide_eq_true hab) (of_decide_eq_true hbc))

theorem nameLe_total (a b : String) : (nameLe a b || nameLe b a) = true := by
  unfold nameLe
  simpa using List.le_total (utf8 a) (utf8 b)

theorem nameLe_antisymm {a b : String} (hab : nameLe a b = true) (hba : nameLe b a = true) :
    a = b := by
  unfold nameLe at hab hba
  have hoctets : utf8 a = utf8 b := List.le_antisymm (of_decide_eq_true hab) (of_decide_eq_true hba)
  rw [← decodeLossy_utf8 a, hoctets, decodeLossy_utf8]

end WasiSandbox.Text
