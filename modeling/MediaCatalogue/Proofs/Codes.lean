import Mathlib.Data.Bool.AllAny
import Mathlib.Data.Nat.Digits.Lemmas
import MediaCatalogue.Id
import MediaCatalogue.Proofs.Texts

/-!
# Codes are numerals

A code is a number written in base 30, whatever it is stored as: the theory here speaks of its
bytes.

* `Id.IsNumeral` : a text has at least one byte, and all its bytes are digits;
* `Id.worth` : the number that bytes write, the last one being worth the least;
* `Id.readDigits_eq_ok_iff` : reading digits with 64 bits at hand. A number that once needed more
  bits never gets smaller again, so looking at every digit is looking at the whole number;
* `Id.digits_eq` : the digits that are written for a number;
* `Id.compare_ofDigits` : numbers of equally many digits are ordered as these digits are.

**Main theorem** (`Id.codes_are_numerals`): what is read, what is written, and how they are ordered.
-/

namespace MediaCatalogue.Id

/-! ### Digits -/

theorem one_lt_base : 1 < base := by decide

theorem digitOf_idxOf : ∀ c ∈ alphabet, digitOf (alphabet.idxOf c) = c :=
  List.all_iff_forall_prop.1 (by decide)

theorem idxOf_lt : ∀ c ∈ alphabet, alphabet.idxOf c < base :=
  List.all_iff_forall_prop.1 (by decide)

theorem digitOf_mem : ∀ d < base, digitOf d ∈ alphabet := by decide

theorem idxOf_digitOf : ∀ d < base, alphabet.idxOf (digitOf d) = d := by decide

theorem digit?_of_mem : ∀ c ∈ alphabet, digit? c = some (alphabet.idxOf c) :=
  List.all_iff_forall_prop.1 (by decide)

theorem digit?_eq_none {c : Char} (h : c ∉ alphabet) : digit? c = none := by
  simpa [digit?] using h

/-- The number that digits write, the last one being worth the least. -/
def numberOf (cs : List Char) : Nat := Nat.ofDigits base (cs.reverse.map alphabet.idxOf)

theorem numberOf_cons (c : Char) (cs : List Char) :
    numberOf (c :: cs) = alphabet.idxOf c * base ^ cs.length + numberOf cs := by
  simp only [numberOf, List.reverse_cons, List.map_append, List.map_cons, List.map_nil,
    Nat.ofDigits_append, Nat.ofDigits_singleton, List.length_map, List.length_reverse]
  rw [Nat.add_comm, Nat.mul_comm]

/-! ### Reading -/

/-- **Digits are read** after digits that were worth `v`, if the whole number fits 64 bits. -/
theorem readDigits_eq_ok_iff {code : String} {cs : List Char} {v n : Nat} (hv : v < Word.limit64) :
    readDigits code cs v = .ok n ↔
      (∀ c ∈ cs, c ∈ alphabet) ∧ v * base ^ cs.length + numberOf cs = n ∧ n < Word.limit64 := by
  induction cs generalizing v with
  | nil =>
    simp only [readDigits, Except.ok.injEq, List.not_mem_nil, false_imp_iff, implies_true,
      List.length_nil, pow_zero, Nat.mul_one, true_and]
    constructor
    · rintro rfl
      exact ⟨rfl, hv⟩
    · rintro ⟨rfl, _⟩
      rfl
  | cons c cs ih =>
    by_cases hc : c ∈ alphabet
    · have hwhole : v * base ^ (c :: cs).length + numberOf (c :: cs) =
          (v * base + alphabet.idxOf c) * base ^ cs.length + numberOf cs := by
        rw [numberOf_cons, List.length_cons, pow_succ, Nat.add_mul, Nat.mul_assoc,
          Nat.mul_comm (base ^ _) base, Nat.add_assoc]
      rw [readDigits, digit?_of_mem c hc, hwhole]
      dsimp only
      split
      · rename_i hfits
        rw [ih hfits]
        simp [hc]
      · -- The number is too large already, and more digits do not make it smaller.
        rename_i hlarge
        have hgrows : v * base + alphabet.idxOf c ≤
            (v * base + alphabet.idxOf c) * base ^ cs.length :=
          Nat.le_mul_of_pos_right _ (Nat.pow_pos (by decide))
        constructor
        · intro h
          cases h
        · rintro ⟨_, rfl, hn⟩
          exact absurd (Nat.lt_of_le_of_lt (hgrows.trans (Nat.le_add_right _ _)) hn) hlarge
    · rw [readDigits, digit?_eq_none hc]
      simp [hc]

theorem ofNat_eq_ok_iff {n : Nat} {id : Id} : ofNat n = .ok id ↔ n = id.value := by
  unfold ofNat
  split
  · rw [Except.ok.injEq, Id.ext_iff]
  · rename_i hlarge
    constructor
    · intro h
      cases h
    · rintro rfl
      exact absurd id.value_lt hlarge

theorem ofCode_eq_ok_iff {code : String} {id : Id} :
    ofCode code = .ok id ↔
      code ≠ "" ∧ (∀ c ∈ code.toList, c ∈ alphabet) ∧ numberOf code.toList = id.value := by
  unfold ofCode
  split
  · rename_i hempty
    simp [String.isEmpty_iff.1 hempty]
  · rename_i hempty
    rw [String.isEmpty_iff] at hempty
    have hlimit : id.value < Word.limit64 := id.value_lt.trans (by decide)
    simp only [bind, Except.bind]
    constructor
    · intro h
      split at h
      · cases h
      · rename_i n hread
        obtain ⟨halphabet, hvalue, _⟩ := (readDigits_eq_ok_iff (by decide)).1 hread
        rw [Nat.zero_mul, Nat.zero_add] at hvalue
        exact ⟨hempty, halphabet, hvalue.trans (ofNat_eq_ok_iff.1 h)⟩
    · rintro ⟨_, halphabet, hvalue⟩
      have hread : readDigits code code.toList 0 = .ok id.value :=
        (readDigits_eq_ok_iff (by decide)).2 ⟨halphabet, by simpa using hvalue, hlimit⟩
      rw [hread]
      exact ofNat_eq_ok_iff.2 rfl

/-! ### Writing -/

theorem digits_eq (n : Nat) : digits n =
    if n = 0 then [digitOf 0] else (Nat.digits base n).reverse.map digitOf := by
  induction n using Nat.strongRecOn with
  | ind n ih =>
  rw [digits]
  split_ifs with hlt hzero hzero
  · rw [hzero]
  · rw [Nat.digits_of_lt base n hzero hlt]
    rfl
  · exact absurd (hzero ▸ by decide) hlt
  · have hrest : n / base ≠ 0 := (Nat.div_pos (Nat.le_of_not_lt hlt) (by decide)).ne'
    rw [ih _ (Nat.div_lt_self (Nat.pos_of_ne_zero hzero) one_lt_base), if_neg hrest,
      Nat.digits_eq_cons_digits_div one_lt_base hzero, List.reverse_cons, List.map_append,
      List.map_singleton]

theorem exists_digits_eq (n : Nat) : ∃ ds : List Nat, digits n = ds.map digitOf ∧
    (∀ d ∈ ds, d < base) ∧ Nat.ofDigits base ds.reverse = n := by
  rw [digits_eq]
  split
  · rename_i hzero
    exact ⟨[0], rfl, by decide, by simp [hzero]⟩
  · refine ⟨(Nat.digits base n).reverse, rfl, fun d hd => ?_, ?_⟩
    · exact Nat.digits_lt_base one_lt_base (List.mem_reverse.1 hd)
    · rw [List.reverse_reverse, Nat.ofDigits_digits]

theorem digits_ne_nil (n : Nat) : digits n ≠ [] := by
  rw [digits_eq]
  split
  · exact List.cons_ne_nil _ _
  · rename_i hzero
    simpa [Nat.digits_eq_nil_iff_eq_zero] using hzero

theorem length_digits_le {m n : Nat} (h : m ≤ n) : (digits m).length ≤ (digits n).length := by
  by_cases hm : m = 0
  · rw [digits_eq m, if_pos hm]
    exact List.length_pos_iff.2 (digits_ne_nil n)
  · have hn : n ≠ 0 := fun hn => hm (Nat.le_zero.1 (hn ▸ h))
    rw [digits_eq, if_neg hm, digits_eq, if_neg hn]
    simpa using Nat.le_length_digits_le base m n h

theorem mem_alphabet_of_mem_digits {n : Nat} {c : Char} (h : c ∈ digits n) : c ∈ alphabet := by
  obtain ⟨ds, hdigits, hds, _⟩ := exists_digits_eq n
  rw [hdigits] at h
  obtain ⟨d, hd, rfl⟩ := List.mem_map.1 h
  exact digitOf_mem d (hds d hd)

theorem numberOf_digits (n : Nat) : numberOf (digits n) = n := by
  obtain ⟨ds, hdigits, hds, hvalue⟩ := exists_digits_eq n
  have hmap : ds.map (alphabet.idxOf ∘ digitOf) = ds :=
    (List.map_congr_left fun d hd => idxOf_digitOf d (hds d hd)).trans (List.map_id ds)
  rw [hdigits, numberOf, ← List.map_reverse, List.map_map, List.map_reverse, hmap, hvalue]

/-- **A code that was written is read back.** -/
theorem ofCode_code (id : Id) : ofCode id.code = .ok id := by
  have hne : id.code ≠ "" := fun h => digits_ne_nil id.value (String.ofList_eq_empty_iff.1 h)
  refine ofCode_eq_ok_iff.2 ⟨hne, fun c hc => ?_, ?_⟩
  · rw [code, String.toList_ofList] at hc
    exact mem_alphabet_of_mem_digits hc
  · rw [code, String.toList_ofList, numberOf_digits]

/-- **Digits without leading zeros** are what is written for the number that they write. -/
theorem digits_numberOf {cs : List Char} (h : ∀ c ∈ cs, c ∈ alphabet) :
    digits (numberOf cs) =
      if cs.dropWhile (· = '0') = [] then ['0'] else cs.dropWhile (· = '0') := by
  induction cs with
  | nil => exact (digits_eq 0).trans rfl
  | cons c cs ih =>
    obtain ⟨hc, hcs⟩ := List.forall_mem_cons.1 h
    by_cases hzero : c = '0'
    · have hvalue : numberOf (c :: cs) = numberOf cs := by
        rw [numberOf_cons, hzero]
        exact (congrArg (· + _) (Nat.zero_mul _)).trans (Nat.zero_add _)
      rw [hvalue, ih hcs, List.dropWhile_cons_of_pos (by simpa using hzero)]
    · have hlead : alphabet.idxOf c ≠ 0 := by
        intro hlead
        rw [← digitOf_idxOf c hc, hlead] at hzero
        exact hzero rfl
      -- The first digit is not zero, so these are all digits of the number.
      have hdigits : Nat.digits base (numberOf (c :: cs)) =
          (c :: cs).reverse.map alphabet.idxOf := by
        refine Nat.digits_ofDigits base one_lt_base _ (fun d hd => ?_) fun _ => ?_
        · obtain ⟨c', hc', rfl⟩ := List.mem_map.1 hd
          exact idxOf_lt c' (h c' (List.mem_reverse.1 hc'))
        · simpa using hlead
      have hpos : numberOf (c :: cs) ≠ 0 := by
        intro hvalue
        rw [hvalue, Nat.digits_zero] at hdigits
        simp at hdigits
      have hmap : (c :: cs).map (digitOf ∘ alphabet.idxOf) = c :: cs :=
        (List.map_congr_left fun c' hc' => digitOf_idxOf c' (h c' hc')).trans (List.map_id _)
      rw [List.dropWhile_cons_of_neg (by simpa using hzero), if_neg (List.cons_ne_nil _ _),
        digits_eq, if_neg hpos, hdigits, ← List.map_reverse, List.reverse_reverse, List.map_map,
        hmap]

/-! ### Order -/

/-- The leading digit decides, then the others. -/
theorem compare_add_mul {p x y l m : Nat} (hl : l < p) (hm : m < p) :
    compare (l + p * x) (m + p * y) = (compare x y).then (compare l m) := by
  rcases Nat.lt_trichotomy x y with h | rfl | h
  · have hlt : l + p * x < m + p * y := by
      have := Nat.mul_le_mul_left p h
      rw [Nat.mul_succ] at this
      omega
    rw [Nat.compare_eq_lt.2 hlt, Nat.compare_eq_lt.2 h]
    rfl
  · rw [Nat.compare_eq_eq.2 rfl]
    simp only [Ordering.then, Nat.compare_eq_ite_lt, Nat.add_lt_add_iff_right]
  · have hlt : m + p * y < l + p * x := by
      have := Nat.mul_le_mul_left p h
      rw [Nat.mul_succ] at this
      omega
    rw [Nat.compare_eq_gt.2 hlt, Nat.compare_eq_gt.2 h]
    rfl

/-- **Numbers of equally many digits** are ordered as their digits are. -/
theorem compare_ofDigits {b : Nat} (hb : 1 < b) {xs ys : List Nat} (hx : ∀ x ∈ xs, x < b)
    (hy : ∀ y ∈ ys, y < b) (hlength : xs.length = ys.length) :
    compare (Nat.ofDigits b xs.reverse) (Nat.ofDigits b ys.reverse) = compare xs ys := by
  induction xs generalizing ys with
  | nil =>
    cases ys with
    | nil => rfl
    | cons => cases hlength
  | cons x xs ih =>
    cases ys with
    | nil => cases hlength
    | cons y ys =>
      obtain ⟨_, hxs⟩ := List.forall_mem_cons.1 hx
      obtain ⟨_, hys⟩ := List.forall_mem_cons.1 hy
      have hrest : xs.length = ys.length := Nat.succ.inj hlength
      have hlow : Nat.ofDigits b xs.reverse < b ^ xs.length := by
        simpa using Nat.ofDigits_lt_base_pow_length hb fun x hx => hxs x (List.mem_reverse.1 hx)
      have hlow' : Nat.ofDigits b ys.reverse < b ^ xs.length := by
        simpa [hrest] using
          Nat.ofDigits_lt_base_pow_length hb fun y hy => hys y (List.mem_reverse.1 hy)
      simp only [List.reverse_cons, Nat.ofDigits_append, Nat.ofDigits_singleton,
        List.length_reverse, ← hrest]
      rw [compare_add_mul hlow hlow', ih hxs hys hrest, List.compare_cons_cons]

/-! ### Bytes -/

/-- The byte of a digit. -/
def byteOf (c : Char) : UInt8 := .ofNat c.toNat

/-- The bytes of the digits, least first. -/
def digitBytes : List UInt8 := alphabet.map byteOf

/-- The number that bytes write in base 30, the last one being worth the least. -/
def worth (bytes : List UInt8) : Nat := Nat.ofDigits base (bytes.reverse.map digitBytes.idxOf)

/-- A text writes a number: it is not empty, and all its bytes are digits. -/
structure IsNumeral (code : String) : Prop where
  nonempty : code ≠ ""
  digits : ∀ b ∈ Text.Utf8.encode code, b ∈ digitBytes

theorem toNat_lt_of_mem : ∀ c ∈ alphabet, c.toNat < 0x80 :=
  List.all_iff_forall_prop.1 (by decide)

theorem utf8EncodeChar_of_mem {c : Char} (h : c ∈ alphabet) :
    String.utf8EncodeChar c = [byteOf c] :=
  Text.Utf8.utf8EncodeChar_of_lt (toNat_lt_of_mem c h)

theorem idxOf_byteOf : ∀ c ∈ alphabet, digitBytes.idxOf (byteOf c) = alphabet.idxOf c :=
  List.all_iff_forall_prop.1 (by decide)

theorem compare_byteOf : ∀ d < base, ∀ d' < base,
    compare (byteOf (digitOf d)) (byteOf (digitOf d')) = compare d d' := by
  decide

theorem mem_alphabet_iff {c : Char} :
    c ∈ alphabet ↔ ∀ b ∈ String.utf8EncodeChar c, b ∈ digitBytes := by
  constructor
  · intro h
    rw [utf8EncodeChar_of_mem h, List.forall_mem_singleton]
    exact List.mem_map_of_mem h
  · intro h
    have hlow : ∀ b ∈ digitBytes, b.toNat < 0x80 := List.all_iff_forall_prop.1 (by decide)
    have hascii : c.toNat < 0x80 := by
      by_contra hhigh
      have hhigh : 0x80 ≤ c.toNat := Nat.le_of_not_lt hhigh
      obtain ⟨b, hb⟩ := List.exists_mem_of_ne_nil _ (String.utf8EncodeChar_ne_nil (c := c))
      exact absurd (hlow b (h b hb)) (Nat.not_lt.2 (Text.Utf8.le_of_mem_utf8EncodeChar hhigh hb))
    rw [Text.Utf8.utf8EncodeChar_of_lt hascii, List.forall_mem_singleton] at h
    obtain ⟨c', hc', hbyte⟩ := List.mem_map.1 h
    have hnat : c'.toNat % 256 = c.toNat % 256 := congrArg UInt8.toNat hbyte
    have hascii' := toNat_lt_of_mem c' hc'
    have hsame : c' = c := Char.toNat_inj.1 (by omega)
    exact hsame ▸ hc'

theorem encode_eq_map {cs : List Char} (h : ∀ c ∈ cs, c ∈ alphabet) :
    Text.Utf8.encode (String.ofList cs) = cs.map byteOf := by
  rw [Text.Utf8.encode, String.toList_ofList, List.map_eq_flatMap]
  exact List.flatMap_congr fun c hc => utf8EncodeChar_of_mem (h c hc)

/-- A text writes a number if all its characters are digits, and then it is this number. -/
theorem isNumeral_iff {code : String} :
    IsNumeral code ↔ code ≠ "" ∧ ∀ c ∈ code.toList, c ∈ alphabet := by
  constructor
  · rintro ⟨hnonempty, hdigits⟩
    refine ⟨hnonempty, fun c hc => mem_alphabet_iff.2 fun b hb => hdigits b ?_⟩
    exact List.mem_flatMap.2 ⟨c, hc, hb⟩
  · rintro ⟨hnonempty, halphabet⟩
    refine ⟨hnonempty, fun b hb => ?_⟩
    obtain ⟨c, hc, hb⟩ := List.mem_flatMap.1 hb
    exact mem_alphabet_iff.1 (halphabet c hc) b hb

theorem worth_encode {code : String} (h : ∀ c ∈ code.toList, c ∈ alphabet) :
    worth (Text.Utf8.encode code) = numberOf code.toList := by
  have hbytes := encode_eq_map h
  rw [String.ofList_toList] at hbytes
  rw [worth, hbytes, ← List.map_reverse, List.map_map, numberOf]
  exact congrArg _ (List.map_congr_left fun c hc => idxOf_byteOf c (h c (List.mem_reverse.1 hc)))

/-- **Reading a code.** -/
theorem ofCode_eq_ok_iff_worth {code : String} {id : Id} :
    ofCode code = .ok id ↔ IsNumeral code ∧ worth (Text.Utf8.encode code) = id.value := by
  rw [ofCode_eq_ok_iff, isNumeral_iff, and_assoc]
  refine and_congr_right fun _ => and_congr_right fun halphabet => ?_
  rw [worth_encode halphabet]

theorem exists_encode_code (id : Id) : ∃ ds : List Nat,
    Text.Utf8.encode id.code = ds.map (fun d => byteOf (digitOf d)) ∧ (∀ d ∈ ds, d < base) ∧
      Nat.ofDigits base ds.reverse = id.value ∧ ds.length = (digits id.value).length := by
  obtain ⟨ds, hdigits, hds, hvalue⟩ := exists_digits_eq id.value
  refine ⟨ds, ?_, hds, hvalue, by rw [hdigits, List.length_map]⟩
  rw [code, encode_eq_map fun c => mem_alphabet_of_mem_digits, hdigits, List.map_map]
  rfl

theorem compare_map {f : Nat → UInt8} {xs ys : List Nat}
    (h : ∀ x ∈ xs, ∀ y ∈ ys, compare (f x) (f y) = compare x y) :
    compare (xs.map f) (ys.map f) = compare xs ys := by
  induction xs generalizing ys with
  | nil => cases ys <;> rfl
  | cons x xs ih =>
    cases ys with
    | nil => rfl
    | cons y ys =>
      rw [List.map_cons, List.map_cons, List.compare_cons_cons, List.compare_cons_cons,
        h x List.mem_cons_self y List.mem_cons_self,
        ih fun x' hx' y' hy' => h x' (List.mem_cons_of_mem x hx') y' (List.mem_cons_of_mem y hy')]

/-- **Ids are ordered as their codes are**: by length, and codes of one length by their bytes. -/
theorem compare_eq_code (a b : Id) : compare a b =
    (compare (Text.Utf8.encode a.code).length (Text.Utf8.encode b.code).length).then
      (compare (Text.Utf8.encode a.code) (Text.Utf8.encode b.code)) := by
  obtain ⟨ds, hencode, hds, hvalue, hlength⟩ := exists_encode_code a
  obtain ⟨ds', hencode', hds', hvalue', hlength'⟩ := exists_encode_code b
  rw [hencode, hencode', List.length_map, List.length_map, hlength, hlength']
  show compare a.value b.value = _
  rcases Nat.lt_trichotomy (digits a.value).length (digits b.value).length with h | h | h
  · have hlt : a.value < b.value := Nat.lt_of_not_le fun hle =>
      absurd (length_digits_le hle) (Nat.not_le.2 h)
    rw [Nat.compare_eq_lt.2 h, Nat.compare_eq_lt.2 hlt]
    rfl
  · rw [Nat.compare_eq_eq.2 h, ← hvalue, ← hvalue', compare_ofDigits one_lt_base hds hds'
      (hlength.trans (h.trans hlength'.symm))]
    exact (compare_map fun d hd d' hd' => compare_byteOf d (hds d hd) d' (hds' d' hd')).symm
  · have hlt : b.value < a.value := Nat.lt_of_not_le fun hle =>
      absurd (length_digits_le hle) (Nat.not_le.2 h)
    rw [Nat.compare_eq_gt.2 h, Nat.compare_eq_gt.2 hlt]
    rfl

/-- **Codes are numerals of base 30.**

1. A text is read as an id if it writes a number that is the number of the id.
2. It is read if it writes a number below the limit of ids, however long it is.
3. The code of an id is read as that id.
4. What is read is written again without leading zeros, and as `0` if there is nothing else.
5. Ids are ordered by the lengths of their codes, and those whose codes have one length by the bytes
   of these. -/
theorem codes_are_numerals :
    (∀ (text : String) (id : Id), ofCode text = .ok id ↔
      IsNumeral text ∧ worth (Text.Utf8.encode text) = id.value) ∧
    (∀ text : String, (∃ id, ofCode text = .ok id) ↔
      IsNumeral text ∧ worth (Text.Utf8.encode text) < Word.signedLimit) ∧
    (∀ id : Id, ofCode id.code = .ok id) ∧
    (∀ (text : String) (id : Id), ofCode text = .ok id →
      id.code.toList = if text.toList.dropWhile (· = '0') = [] then ['0']
        else text.toList.dropWhile (· = '0')) ∧
    ∀ a b : Id, compare a b =
      (compare (Text.Utf8.encode a.code).length (Text.Utf8.encode b.code).length).then
        (compare (Text.Utf8.encode a.code) (Text.Utf8.encode b.code)) := by
  refine ⟨fun text id => ofCode_eq_ok_iff_worth, fun text => ?_, ofCode_code, fun text id h => ?_,
    compare_eq_code⟩
  · constructor
    · rintro ⟨id, h⟩
      obtain ⟨hnumeral, hworth⟩ := ofCode_eq_ok_iff_worth.1 h
      exact ⟨hnumeral, hworth ▸ id.value_lt⟩
    · rintro ⟨hnumeral, hlt⟩
      exact ⟨⟨_, hlt⟩, ofCode_eq_ok_iff_worth.2 ⟨hnumeral, rfl⟩⟩
  · obtain ⟨_, halphabet, hvalue⟩ := ofCode_eq_ok_iff.1 h
    rw [code, String.toList_ofList, ← hvalue, digits_numberOf halphabet]

/-- Zeros in front of a code are dropped. -/
theorem codes_are_numerals_of_zeros :
    ofCode "00b1" = .ok 301 ∧ (301 : Id).code.toList = ['b', '1'] := by
  obtain ⟨_, _, _, hwritten, _⟩ := codes_are_numerals
  have hread : ofCode "00b1" = .ok 301 := by decide +kernel
  exact ⟨hread, hwritten "00b1" 301 hread⟩

end MediaCatalogue.Id
