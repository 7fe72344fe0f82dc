import MediaCatalogue.Json.Embedded

/-!
# Texts read back

* `Text.Utf8.decode_encode` : the bytes that write a text are read as that text. A character is read
  back from its one to four bytes, whatever comes after them;
* `Text.Utf8.length_encode_le` : a text that is read is not longer than the bytes;
* `Json.Reader.Reads` : the reader gets from one state to another by reading some characters. What
  is read in a row is read one after the other (`Json.Reader.Reads.append`).

**Main theorem** (`Json.Reader.reads_textLiteral`): a text between quotes, with escapes, is read as
that text, inside of anything. Each character is read as some pieces, and these write the bytes of
the character (`Json.Writes`, `Json.Reader.reads_escape`).
-/

namespace MediaCatalogue

namespace Text.Utf8

/-! ### Bytes -/

theorem isContinuation_tail (n : Nat) : isContinuation (UInt8.ofNat (n % 0x40 + 0x80)) = true := by
  have hn : (UInt8.ofNat (n % 0x40 + 0x80)).toNat = n % 0x40 + 0x80 := by
    rw [UInt8.toNat_ofNat']
    omega
  simp only [isContinuation, Bool.and_eq_true, decide_eq_true_eq, UInt8.le_iff_toNat_le,
    UInt8.lt_iff_toNat_lt, hn, UInt8.reduceToNat]
  omega

theorem payload_tail (n : Nat) : payload (UInt8.ofNat (n % 0x40 + 0x80)) = n % 0x40 := by
  rw [payload, UInt8.toNat_ofNat']
  omega

theorem utf8EncodeChar_of_lt {c : Char} (h : c.toNat < 0x80) :
    String.utf8EncodeChar c = [UInt8.ofNat c.toNat] := by
  have h' : c.val.toNat ≤ 0x7f := Nat.le_of_lt_succ h
  simp only [String.utf8EncodeChar, if_pos h']
  rfl

theorem le_of_mem_utf8EncodeChar {c : Char} (h : 0x80 ≤ c.toNat) {b : UInt8}
    (hb : b ∈ String.utf8EncodeChar c) : 0x80 ≤ b.toNat := by
  have hlong : ¬ c.val.toNat ≤ 0x7f := Nat.not_le_of_lt h
  have hhigh : ∀ n, 0x80 ≤ n → n < 0x100 → 0x80 ≤ (UInt8.ofNat n).toNat := by
    intro n hn hn'
    rwa [UInt8.toNat_ofNat_of_lt' hn']
  simp only [String.utf8EncodeChar, if_neg hlong] at hb
  repeat' split at hb
  all_goals simp only [List.mem_cons, List.not_mem_nil, or_false] at hb
  · rcases hb with rfl | rfl <;> exact hhigh _ (by omega) (by omega)
  · rcases hb with rfl | rfl | rfl <;> exact hhigh _ (by omega) (by omega)
  · rcases hb with rfl | rfl | rfl | rfl <;> exact hhigh _ (by omega) (by omega)

variable {v : Nat} {rest : List UInt8}

theorem characters_one (h : v < 0x80) :
    characters (.ofNat v :: rest) = (characters rest).map (Char.ofNat v :: ·) := by
  have hn : (UInt8.ofNat v).toNat = v := by
    rw [UInt8.toNat_ofNat']
    omega
  have hlt : UInt8.ofNat v < 0x80 := by
    rw [UInt8.lt_iff_toNat_lt, hn]
    exact h
  rw [characters.eq_def]
  simp only [if_pos hlt, hn]

theorem characters_two (h : 0x80 ≤ v) (h' : v < 0x800) :
    characters (.ofNat (v / 64 % 0x20 + 0xc0) :: .ofNat (v % 0x40 + 0x80) :: rest) =
      (characters rest).map (Char.ofNat v :: ·) := by
  have hn : (UInt8.ofNat (v / 64 % 0x20 + 0xc0)).toNat = v / 64 + 0xc0 := by
    rw [UInt8.toNat_ofNat']
    omega
  have hcode : (v / 64 + 0xc0) % 0x20 * 0x40 + v % 0x40 = v := by omega
  have hhigh : ¬ v / 64 + 0xc0 < 0x80 := by omega
  have hlow : 0xc2 ≤ v / 64 + 0xc0 := by omega
  have hlow' : v / 64 + 0xc0 < 0xe0 := by omega
  rw [characters.eq_def]
  simp only [UInt8.lt_iff_toNat_lt, UInt8.le_iff_toNat_le, hn, UInt8.reduceToNat, hhigh, hlow,
    hlow', isContinuation_tail, payload_tail, hcode, Bool.not_true, decide_true, Bool.and_self,
    Bool.false_eq_true, if_false, if_true]

theorem characters_three (h : 0x800 ≤ v) (h' : v < 0x10000)
    (hvalid : ¬ (0xd800 ≤ v ∧ v < 0xe000)) :
    characters (.ofNat (v / 4096 % 0x10 + 0xe0) :: .ofNat (v / 64 % 0x40 + 0x80) ::
      .ofNat (v % 0x40 + 0x80) :: rest) = (characters rest).map (Char.ofNat v :: ·) := by
  have hn : (UInt8.ofNat (v / 4096 % 0x10 + 0xe0)).toNat = v / 4096 + 0xe0 := by
    rw [UInt8.toNat_ofNat']
    omega
  have hcode : ((v / 4096 + 0xe0) % 0x10 * 0x40 + v / 64 % 0x40) * 0x40 + v % 0x40 = v := by omega
  have hhigh : ¬ v / 4096 + 0xe0 < 0x80 := by omega
  have hlow : 0xe0 ≤ v / 4096 + 0xe0 := by omega
  have htwo : ¬ v / 4096 + 0xe0 < 0xe0 := by omega
  have hlow' : v / 4096 + 0xe0 < 0xf0 := by omega
  have hpair : (decide (0xd800 ≤ v) && decide (v < 0xe000)) = false := by
    rw [← Bool.decide_and]
    exact decide_eq_false hvalid
  rw [characters.eq_def]
  simp only [UInt8.lt_iff_toNat_lt, UInt8.le_iff_toNat_le, hn, UInt8.reduceToNat, hhigh, hlow,
    hlow', htwo, isContinuation_tail, payload_tail, hcode, h, hpair, Bool.not_true,
    Bool.not_false, decide_true, decide_false, Bool.and_self, Bool.and_false, Bool.false_eq_true,
    if_false, if_true]

theorem characters_four (h : 0x10000 ≤ v) (h' : v < 0x110000) :
    characters (.ofNat (v / 262144 % 8 + 0xf0) :: .ofNat (v / 4096 % 0x40 + 0x80) ::
      .ofNat (v / 64 % 0x40 + 0x80) :: .ofNat (v % 0x40 + 0x80) :: rest) =
      (characters rest).map (Char.ofNat v :: ·) := by
  have hn : (UInt8.ofNat (v / 262144 % 8 + 0xf0)).toNat = v / 262144 + 0xf0 := by
    rw [UInt8.toNat_ofNat']
    omega
  have hcode : (((v / 262144 + 0xf0) % 8 * 0x40 + v / 4096 % 0x40) * 0x40 + v / 64 % 0x40) *
      0x40 + v % 0x40 = v := by omega
  have hhigh : ¬ v / 262144 + 0xf0 < 0x80 := by omega
  have htwo : ¬ v / 262144 + 0xf0 < 0xe0 := by omega
  have hthree : ¬ v / 262144 + 0xf0 < 0xf0 := by omega
  have hlow : 0xf0 ≤ v / 262144 + 0xf0 := by omega
  have hlow' : v / 262144 + 0xf0 < 0xf8 := by omega
  rw [characters.eq_def]
  simp only [UInt8.lt_iff_toNat_lt, UInt8.le_iff_toNat_le, hn, UInt8.reduceToNat, hhigh, hlow,
    hlow', htwo, hthree, isContinuation_tail, payload_tail, hcode, h, h', Bool.not_true,
    decide_true, decide_false, Bool.and_self, Bool.and_false, Bool.false_eq_true, if_false, if_true]

/-- A character reads back from its bytes, whatever comes after them. -/
theorem characters_append (c : Char) (rest : List UInt8) :
    characters (String.utf8EncodeChar c ++ rest) = (characters rest).map (c :: ·) := by
  -- A character is a code point that is not a surrogate.
  have hchar : Char.ofNat c.val.toNat = c := Char.ofNat_toNat c
  have hvalid : c.val.toNat < 0xd800 ∨ 0xdfff < c.val.toNat ∧ c.val.toNat < 0x110000 := c.valid
  unfold String.utf8EncodeChar
  generalize c.val.toNat = v at *
  subst hchar
  dsimp only
  split
  · exact characters_one (by omega)
  split
  · exact characters_two (by omega) (by omega)
  split
  · exact characters_three (by omega) (by omega) (by omega)
  · exact characters_four (by omega) (by omega)

theorem characters_flatMap (cs : List Char) :
    characters (cs.flatMap String.utf8EncodeChar) = some cs := by
  induction cs with
  | nil => rfl
  | cons c cs ih => rw [List.flatMap_cons, characters_append, ih, Option.map_some]

/-- **A text reads back from its bytes.** -/
theorem decode_encode (text : String) : decode (encode text) = some text := by
  rw [decode, encode, characters_flatMap, Option.map_some, String.ofList_toList]

/-! ### The sizes of texts -/

theorem toNat_ofNat_le (n : Nat) : (Char.ofNat n).toNat ≤ n := by
  by_cases h : n.isValidChar
  · rw [Char.ofNat, dif_pos h]
    exact Nat.le_refl n
  · rw [Char.ofNat, dif_neg h]
    exact Nat.zero_le n

theorem length_utf8EncodeChar_le {n k : Nat}
    (h : n < 0x80 ∧ 1 ≤ k ∨ n < 0x800 ∧ 2 ≤ k ∨ n < 0x10000 ∧ 3 ≤ k ∨ 4 ≤ k) :
    (String.utf8EncodeChar (Char.ofNat n)).length ≤ k := by
  have hle : (Char.ofNat n).val.toNat ≤ n := toNat_ofNat_le n
  rw [String.length_utf8EncodeChar, Char.utf8Size]
  simp only [UInt32.le_iff_toNat_le, UInt32.toNat_ofNatLT]
  split
  · omega
  split
  · omega
  split <;> omega

theorem payload_lt (b : UInt8) : payload b < 0x40 := Nat.mod_lt _ (by decide)

theorem length_flatMap_le_of_map {n k : Nat} {rest : List UInt8} {cs : List Char}
    (hn : (String.utf8EncodeChar (Char.ofNat n)).length ≤ k)
    (ih : ∀ {cs : List Char}, characters rest = some cs →
      (cs.flatMap String.utf8EncodeChar).length ≤ rest.length)
    (h : (characters rest).map (Char.ofNat n :: ·) = some cs) :
    (cs.flatMap String.utf8EncodeChar).length ≤ rest.length + k := by
  obtain ⟨others, hothers, rfl⟩ := Option.map_eq_some_iff.1 h
  rw [List.flatMap_cons, List.length_append, Nat.add_comm]
  exact Nat.add_le_add (ih hothers) hn

theorem length_flatMap_le {bytes : List UInt8} {cs : List Char} (h : characters bytes = some cs) :
    (cs.flatMap String.utf8EncodeChar).length ≤ bytes.length := by
  fun_induction characters bytes generalizing cs
  case case1 =>
    cases h
    exact Nat.le_refl _
  case case2 a rest ha ih =>
    have hcode : a.toNat < 0x80 := UInt8.lt_iff_toNat_lt.1 ha
    exact length_flatMap_le_of_map (length_utf8EncodeChar_le (.inl ⟨hcode, by decide⟩)) ih h
  case case5 a _ b rest _ _ ih =>
    have hb := payload_lt b
    show _ ≤ rest.length + 2
    exact length_flatMap_le_of_map (length_utf8EncodeChar_le (by omega)) ih h
  case case8 a _ b _ _ c rest _ _ code _ ih =>
    have hb := payload_lt b
    have hc := payload_lt c
    show _ ≤ rest.length + 3
    exact length_flatMap_le_of_map (length_utf8EncodeChar_le (by omega)) ih h
  case case12 rest _ _ _ ih =>
    show _ ≤ rest.length + 4
    exact length_flatMap_le_of_map (length_utf8EncodeChar_le (by omega)) ih h
  all_goals cases h

/-- **A text that was read** is not longer than the bytes it was read from. -/
theorem length_encode_le {bytes : List UInt8} {text : String} (h : decode bytes = some text) :
    (encode text).length ≤ bytes.length := by
  obtain ⟨cs, hcs, rfl⟩ := Option.map_eq_some_iff.1 h
  rw [encode, String.toList_ofList]
  exact length_flatMap_le hcs

end Text.Utf8

namespace Json

/-! ### Pieces of texts -/

/-- The pieces write the bytes, whatever comes after them. -/
def Writes (pieces : List Piece) (bytes : List UInt8) : Prop :=
  ∀ rest, pieceBytes (pieces ++ rest) = (pieceBytes rest).map (bytes ++ ·)

theorem Writes.nil : Writes [] [] := fun rest => by simp

theorem Writes.append {ps qs : List Piece} {bs cs : List UInt8} (h : Writes ps bs)
    (h' : Writes qs cs) : Writes (ps ++ qs) (bs ++ cs) := by
  intro rest
  rw [List.append_assoc, h, h', Option.map_map]
  simp [Function.comp_def]

theorem writes_bytes (bytes : List UInt8) : Writes (bytes.map .byte) bytes := by
  intro rest
  induction bytes with
  | nil => simp
  | cons b bytes ih =>
    rw [List.map_cons, List.cons_append, pieceBytes, ih, Option.map_map]
    rfl

theorem writes_unit {n : Nat} (h : n < 0xd800) :
    Writes [.unit n] (String.utf8EncodeChar (Char.ofNat n)) := by
  have hhigh : isHighSurrogate n = false := by
    rw [isHighSurrogate, Bool.and_eq_false_iff, decide_eq_false_iff_not]
    exact .inl (by omega)
  have hlow : isLowSurrogate n = false := by
    rw [isLowSurrogate, Bool.and_eq_false_iff, decide_eq_false_iff_not]
    exact .inl (by omega)
  intro rest
  match rest with
  | [] => simp [pieceBytes, hhigh, hlow]
  | .byte b :: rest => simp [pieceBytes, hhigh, hlow]
  | .unit m :: rest => simp [pieceBytes, hhigh, hlow]

namespace Reader

/-- The reader gets from one state to the other by reading the characters. -/
def Reads (s : State) (cs : List Char) (s' : State) : Prop :=
  (cs.flatMap String.utf8EncodeChar).foldlM step s = some s'

variable {s s' s'' : State} {c : Char} {cs cs' : List Char}

theorem Reads.nil : Reads s [] s := rfl

theorem Reads.append (h : Reads s cs s') (h' : Reads s' cs' s'') : Reads s (cs ++ cs') s'' := by
  unfold Reads at *
  rw [List.flatMap_append, List.foldlM_append, h]
  exact h'

theorem reads_cons (hc : c.toNat < 0x80) :
    Reads s (c :: cs) s'' ↔ ∃ s', step s (.ofNat c.toNat) = some s' ∧ Reads s' cs s'' := by
  unfold Reads
  rw [List.flatMap_cons, Text.Utf8.utf8EncodeChar_of_lt hc, List.singleton_append,
    List.foldlM_cons]
  exact Option.bind_eq_some_iff

theorem Reads.cons (hc : c.toNat < 0x80) (h : step s (.ofNat c.toNat) = some s')
    (h' : Reads s' cs s'') : Reads s (c :: cs) s'' :=
  (reads_cons hc).2 ⟨s', h, h'⟩

theorem reads_singleton (hc : c.toNat < 0x80) (h : step s (.ofNat c.toNat) = some s') :
    Reads s [c] s' :=
  .cons hc h .nil

/-! ### Texts -/

variable {stack : List Frame} {isName : Bool} {pieces : List Piece}

/-- Bytes that are not escaped. -/
theorem foldlM_step_bytes {bytes : List UInt8}
    (h : ∀ b ∈ bytes, b ≠ 0x22 ∧ b ≠ 0x5c ∧ ¬ b < 0x20) :
    bytes.foldlM step ⟨stack, .text isName .character pieces⟩ =
      some ⟨stack, .text isName .character ((bytes.map .byte).reverse ++ pieces)⟩ := by
  induction bytes generalizing pieces with
  | nil => rfl
  | cons b bytes ih =>
    obtain ⟨hquote, hescape, hcontrol⟩ := h b List.mem_cons_self
    have hstep : step ⟨stack, .text isName .character pieces⟩ b =
        some ⟨stack, .text isName .character (.byte b :: pieces)⟩ := by
      simp [step, stepText, hquote, hescape, hcontrol]
    rw [List.foldlM_cons, hstep]
    refine (ih fun b' hb' => h b' (List.mem_cons_of_mem b hb')).trans ?_
    simp

theorem hexDigit?_hexDigit : ∀ n < 16,
    hexDigit? (.ofNat (hexDigit n).toNat) = some n ∧ (hexDigit n).toNat < 0x80 := by
  decide

theorem reads_unit {n : Nat} (h : n < 0x20) :
    Reads ⟨stack, .text isName .character pieces⟩
      ['\\', 'u', '0', '0', hexDigit (n / 16), hexDigit (n % 16)]
      ⟨stack, .text isName .character (.unit n :: pieces)⟩ := by
  obtain ⟨hfirst, hfirst'⟩ := hexDigit?_hexDigit (n / 16) (by omega)
  obtain ⟨hlast, hlast'⟩ := hexDigit?_hexDigit (n % 16) (by omega)
  have hthird : Reads ⟨stack, .text isName (.unit 2 0) pieces⟩ [hexDigit (n / 16)]
      ⟨stack, .text isName (.unit 3 (n / 16)) pieces⟩ :=
    reads_singleton hfirst' (by simp [step, stepText, hfirst])
  have hfourth : Reads ⟨stack, .text isName (.unit 3 (n / 16)) pieces⟩ [hexDigit (n % 16)]
      ⟨stack, .text isName .character (.unit n :: pieces)⟩ := by
    refine reads_singleton hlast' ?_
    simp only [step, stepText, hlast, Option.map_some, if_true]
    rw [Nat.div_add_mod' n 16]
  have hzeros : Reads ⟨stack, .text isName .character pieces⟩ ['\\', 'u', '0', '0']
      ⟨stack, .text isName (.unit 2 0) pieces⟩ := rfl
  exact hzeros.append (hthird.append hfourth)

theorem reads_letter {letter : Char} (hletter : letter.toNat < 0x80)
    (h : escaped? (.ofNat letter.toNat) = some (.ofNat c.toNat)) :
    Reads ⟨stack, .text isName .character pieces⟩ ['\\', letter]
      ⟨stack, .text isName .character (.byte (.ofNat c.toNat) :: pieces)⟩ := by
  have hescape : Reads ⟨stack, .text isName .character pieces⟩ ['\\']
      ⟨stack, .text isName .escape pieces⟩ := rfl
  refine hescape.append (reads_singleton hletter ?_)
  have hu : (UInt8.ofNat letter.toNat == 0x75) = false := by
    rw [Bool.eq_false_iff, ne_eq, beq_iff_eq]
    intro hu
    rw [hu] at h
    cases h
  simp [step, stepText, hu, h]

theorem of_mem_utf8EncodeChar (hquote : c ≠ '"') (hescape : c ≠ '\\') (hcontrol : ¬ c.toNat < 0x20)
    {b : UInt8} (hb : b ∈ String.utf8EncodeChar c) : b ≠ 0x22 ∧ b ≠ 0x5c ∧ ¬ b < 0x20 := by
  simp only [ne_eq, ← UInt8.toNat_inj, UInt8.lt_iff_toNat_lt, UInt8.reduceToNat]
  by_cases hc : c.toNat < 0x80
  · rw [Text.Utf8.utf8EncodeChar_of_lt hc, List.mem_singleton] at hb
    have hn : (UInt8.ofNat c.toNat).toNat = c.toNat :=
      UInt8.toNat_ofNat_of_lt' (Nat.lt_trans hc (by decide))
    rw [hb, hn]
    exact ⟨fun h => hquote (Char.toNat_inj.1 h), fun h => hescape (Char.toNat_inj.1 h), hcontrol⟩
  · have hhigh := Text.Utf8.le_of_mem_utf8EncodeChar (Nat.le_of_not_lt hc) hb
    omega

/-- A character is read from what it is written as. -/
theorem reads_escape (stack : List Frame) (isName : Bool) (pieces : List Piece) (c : Char) :
    ∃ ps, Writes ps (String.utf8EncodeChar c) ∧
      Reads ⟨stack, .text isName .character pieces⟩ (escape c)
        ⟨stack, .text isName .character (ps.reverse ++ pieces)⟩ := by
  have hletter : ∀ letter : Char, letter.toNat < 0x80 → c.toNat < 0x80 →
      escaped? (.ofNat letter.toNat) = some (.ofNat c.toNat) →
      ∃ ps, Writes ps (String.utf8EncodeChar c) ∧
        Reads ⟨stack, .text isName .character pieces⟩ ['\\', letter]
          ⟨stack, .text isName .character (ps.reverse ++ pieces)⟩ := by
    intro letter hletter hc h
    refine ⟨[.byte (.ofNat c.toNat)], ?_, reads_letter hletter h⟩
    rw [Text.Utf8.utf8EncodeChar_of_lt hc]
    exact writes_bytes [_]
  -- Seven characters are escaped by a letter, other control characters by their number.
  unfold escape
  split
  · subst c
    exact hletter '"' (by decide) (by decide) rfl
  split
  · subst c
    exact hletter '\\' (by decide) (by decide) rfl
  split
  · subst c
    exact hletter 'b' (by decide) (by decide) rfl
  split
  · subst c
    exact hletter 'f' (by decide) (by decide) rfl
  split
  · subst c
    exact hletter 'n' (by decide) (by decide) rfl
  split
  · subst c
    exact hletter 'r' (by decide) (by decide) rfl
  split
  · subst c
    exact hletter 't' (by decide) (by decide) rfl
  rename_i hquote hescape _ _ _ _ _
  split
  · rename_i hcontrol
    have hunit := writes_unit (n := c.toNat) (by omega)
    rw [Char.ofNat_toNat] at hunit
    exact ⟨[.unit c.toNat], hunit, reads_unit hcontrol⟩
  · rename_i hcontrol
    refine ⟨(String.utf8EncodeChar c).map .byte, writes_bytes _, ?_⟩
    unfold Reads
    rw [List.flatMap_singleton]
    exact foldlM_step_bytes fun b hb => of_mem_utf8EncodeChar hquote hescape hcontrol hb

theorem reads_flatMap_escape (stack : List Frame) (isName : Bool) (pieces : List Piece)
    (cs : List Char) :
    ∃ ps, Writes ps (cs.flatMap String.utf8EncodeChar) ∧
      Reads ⟨stack, .text isName .character pieces⟩ (cs.flatMap escape)
        ⟨stack, .text isName .character (ps.reverse ++ pieces)⟩ := by
  induction cs generalizing pieces with
  | nil => exact ⟨[], .nil, .nil⟩
  | cons c cs ih =>
    obtain ⟨ps, hps, hreads⟩ := reads_escape stack isName pieces c
    obtain ⟨qs, hqs, hreads'⟩ := ih (ps.reverse ++ pieces)
    refine ⟨ps ++ qs, hps.append hqs, ?_⟩
    rw [List.reverse_append, List.append_assoc]
    exact hreads.append hreads'

/-- **A text is read from its literal**, as a name or as a value. -/
theorem reads_textLiteral {s' : State} {text : String}
    (hstart : step s 0x22 = some ⟨stack, .text isName .character []⟩)
    (hend : ∀ pieces, pieceText pieces.reverse = some text →
      endText stack isName pieces = some s') : Reads s (textLiteral text) s' := by
  obtain ⟨ps, hps, hreads⟩ := reads_flatMap_escape stack isName [] text.toList
  have htext : pieceText ps = some text := by
    have hbytes := hps []
    rw [List.append_nil] at hbytes
    rw [pieceText, hbytes]
    simp only [pieceBytes, Option.map_some, List.append_nil, Option.bind_some]
    exact Text.Utf8.decode_encode text
  refine .cons (by decide) hstart (hreads.append (reads_singleton (by decide) ?_))
  exact hend _ (by simpa using htext)

end Reader

end Json

end MediaCatalogue
