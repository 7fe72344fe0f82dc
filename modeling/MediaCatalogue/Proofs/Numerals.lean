import Mathlib.Data.Bool.AllAny
import MediaCatalogue.Proofs.Texts

/-!
# Numbers read back

A number reads back (`Json.Number.ReadsBack`) if its text, read on its own, is that number.

* `Json.Reader.readsBack_integer` : whole numbers do, if they fit 64 bits, signed or unsigned.
  Others are never read (`Json.inRange_of_integer?`);
* doubles need not: the digits of a double are scaled with two roundings, so the double that is read
  can be a neighbour of the one that was written.

**Main theorem** (`Json.Reader.reads_number`): a number that reads back does so inside of anything,
because the bytes of a number are looked at without regard to what is open around it.
-/

namespace MediaCatalogue

namespace Json

/-! ### Digits -/

theorem absorb_append {kept n : Nat} {digits more : List Nat} (h : absorb kept digits = (n, 0)) :
    absorb kept (digits ++ more) = absorb n more := by
  induction digits generalizing kept with
  | nil =>
    cases h
    rfl
  | cons digit digits ih =>
    rw [absorb] at h
    split at h
    · rename_i hfits
      rw [List.cons_append, absorb, if_pos hfits]
      exact ih h
    · cases h

theorem absorb_lt {kept : Nat} (h : kept < Word.limit64) (digits : List Nat) :
    (absorb kept digits).1 < Word.limit64 := by
  induction digits generalizing kept with
  | nil => exact h
  | cons digit digits ih =>
    rw [absorb]
    split
    · rename_i hfits
      exact ih hfits
    · exact h

theorem digit?_digitChar : ∀ n < 10,
    Reader.digit? (.ofNat (Nat.digitChar n).toNat) = some n ∧ (Nat.digitChar n).toNat < 0x80 := by
  decide

namespace Reader

variable {s : State} {stack : List Frame} {negative : Bool}

/-- A value may begin. -/
def Phase.AwaitsValue (phase : Phase) : Prop := phase = .value ∨ phase = .firstItem

/-- A state that waits for the first digit of a whole number. -/
def AwaitsDigit (stack : List Frame) (negative : Bool) (s : State) : Prop :=
  ∀ n < 10, step s (.ofNat (Nat.digitChar n).toNat) =
    some ⟨stack, .number { part := if n = 0 then .zero else .whole, negative, whole := [n] }⟩

theorem awaitsDigit_sign (stack : List Frame) :
    AwaitsDigit stack true ⟨stack, .number { part := .sign, negative := true }⟩ := by
  intro n hn
  obtain ⟨hdigit, _⟩ := digit?_digitChar n hn
  simp only [step, stepNumber, Draft.extend, hdigit]

theorem Phase.AwaitsValue.awaitsDigit {phase : Phase} (h : phase.AwaitsValue) (stack : List Frame) :
    AwaitsDigit stack false ⟨stack, phase⟩ := by
  intro n hn
  rcases h with rfl | rfl <;>
    match n, hn with
    | 0, _ | 1, _ | 2, _ | 3, _ | 4, _ | 5, _ | 6, _ | 7, _ | 8, _ | 9, _ => rfl

theorem AwaitsDigit.reads_pos (h : AwaitsDigit stack negative s) {n : Nat} (hn : 0 < n) :
    ∃ whole, Reads s (Nat.toDigits 10 n)
      ⟨stack, .number { part := .whole, negative, whole }⟩ ∧
      (n < Word.limit64 → absorb 0 whole.reverse = (n, 0)) := by
  induction n using Nat.strongRecOn with
  | ind n ih =>
  by_cases hlt : n < 10
  · obtain ⟨_, hascii⟩ := digit?_digitChar n hlt
    refine ⟨[n], ?_, fun hlimit => ?_⟩
    · rw [Nat.toDigits_of_lt_base hlt]
      refine reads_singleton hascii ((h n hlt).trans ?_)
      rw [if_neg (by omega)]
    · simp [absorb, hlimit]
  · obtain ⟨whole, hreads, habsorb⟩ := ih (n / 10) (by omega) (by omega)
    obtain ⟨hdigit, hascii⟩ := digit?_digitChar (n % 10) (by omega)
    refine ⟨n % 10 :: whole, ?_, fun hlimit => ?_⟩
    · rw [Nat.toDigits_of_base_le (by decide) (by omega)]
      refine hreads.append (reads_singleton hascii ?_)
      simp only [step, stepNumber, Draft.extend, hdigit]
    · rw [List.reverse_cons, absorb_append (habsorb (by omega)), absorb, Nat.div_add_mod' n 10,
        if_pos hlimit, absorb]

/-- **The digits of a number** are read as that number, if it fits 64 bits. -/
theorem AwaitsDigit.reads_toDigits (h : AwaitsDigit stack negative s) (n : Nat) :
    ∃ part whole, Reads s (Nat.toDigits 10 n) ⟨stack, .number { part, negative, whole }⟩ ∧
      part.complete = true ∧ (n < Word.limit64 → absorb 0 whole.reverse = (n, 0)) := by
  rcases Nat.eq_zero_or_pos n with rfl | hn
  · exact ⟨.zero, [0], reads_singleton (by decide) (h 0 (by decide)), rfl, fun _ => rfl⟩
  · obtain ⟨whole, hreads, habsorb⟩ := h.reads_pos hn
    exact ⟨.whole, whole, hreads, rfl, habsorb⟩

end Reader

/-! ### Whole numbers -/

/-- The whole numbers that a number can be that was read: they fit 64 bits, signed or unsigned. -/
def Number.InRange (value : Int) : Prop := -(Word.signedLimit : Int) ≤ value ∧ value < Word.limit64

theorem inRange_of_integer? {numeral : Numeral} {value : Int}
    (h : numeral.integer? = some value) : Number.InRange value := by
  unfold Numeral.integer? at h
  split at h
  · cases h
  split at h
  · rename_i kept habsorb
    have hkept : kept < Word.limit64 := by
      have hlt : (absorb 0 numeral.whole).1 < Word.limit64 := absorb_lt (by decide) _
      rwa [habsorb] at hlt
    have hsigned : (0 : Int) ≤ Word.signedLimit := Int.natCast_nonneg _
    have hlimit : (0 : Int) < Word.limit64 := by decide
    unfold Number.InRange
    split at h
    · cases h
      omega
    · split at h
      · cases h
        omega
      · cases h
  · cases h

theorem value?_of_absorb {whole : List Nat} {n : Nat} (h : absorb 0 whole = (n, 0)) :
    (Numeral.mk false whole none none).value? = some (.integer n) := by
  simp [Numeral.value?, Numeral.integer?, h]

theorem value?_of_absorb_negative {whole : List Nat} {n : Nat} (h : absorb 0 whole = (n, 0))
    (hpos : 0 < n) (hlimit : n ≤ Word.signedLimit) :
    (Numeral.mk true whole none none).value? = some (.integer (-n)) := by
  simp [Numeral.value?, Numeral.integer?, h, hpos, hlimit]

/-- The text of a number reads as the number. -/
def Number.ReadsBack (n : Number) : Prop := parseText n.text = some (.number n)

theorem exists_natCast_or_neg (k : Int) : (∃ n : Nat, k = n) ∨ ∃ n : Nat, 0 < n ∧ k = -n := by
  by_cases hneg : k < 0
  · exact .inr ⟨k.natAbs, by omega, by omega⟩
  · exact .inl ⟨k.toNat, by omega⟩

theorem toList_toString_natCast (n : Nat) : (toString (n : Int)).toList = Nat.toDigits 10 n := by
  show (Nat.repr n).toList = _
  simp [Nat.repr]

theorem toList_toString_neg {n : Nat} (h : 0 < n) :
    (toString (-(n : Int))).toList = '-' :: Nat.toDigits 10 n := by
  obtain ⟨m, rfl⟩ := Nat.exists_eq_add_one_of_ne_zero (Nat.ne_of_gt h)
  show ("-" ++ Nat.repr (m + 1)).toList = _
  simp [Nat.repr]

theorem Node.valueIn?_number {parse : String → Option Json} {depth : Nat} (n : Option Number) :
    (Node.number n).valueIn? parse depth = n.map .number := by
  cases n <;> cases depth <;> rfl

namespace Reader

/-- The draft may end, and then it is this number. -/
structure Draft.Writes (d : Draft) (n : Number) : Prop where
  complete : d.part.complete = true
  value : d.numeral.value? = some n

theorem finish_number {n : Number} {d : Draft} :
    finish ⟨[], .number d⟩ = some (.number (some n)) ↔ d.Writes n := by
  constructor
  · intro h
    cases hcomplete : d.part.complete with
    | false => simp [finish, endNumber, hcomplete] at h
    | true =>
      simp only [finish, endNumber, hcomplete, complete, if_true, Option.some.injEq,
        Node.number.injEq] at h
      exact ⟨hcomplete, h⟩
  · rintro ⟨hcomplete, hvalue⟩
    simp only [finish, endNumber, hcomplete, hvalue, complete, if_true]

theorem readsBack_of_reads {n : Number} {d : Draft}
    (h : Reads start n.text.toList ⟨[], .number d⟩) (hd : d.Writes n) : n.ReadsBack := by
  rw [Number.ReadsBack, parseText, parse, read, Text.Utf8.encode, Option.bind_eq_some_iff]
  exact ⟨_, Option.bind_eq_some_iff.2 ⟨_, h, finish_number.2 hd⟩, rfl⟩

/-- **Whole numbers read back** if they fit 64 bits, signed or unsigned. -/
theorem readsBack_integer {k : Int} (hk : Number.InRange k) : (Number.integer k).ReadsBack := by
  have hstart : AwaitsDigit [] false start := Phase.AwaitsValue.awaitsDigit (.inl rfl) []
  obtain ⟨hlow, hhigh⟩ := hk
  rcases exists_natCast_or_neg k with ⟨n, rfl⟩ | ⟨n, hn, rfl⟩
  · obtain ⟨part, whole, hreads, hpart, habsorb⟩ := hstart.reads_toDigits n
    have hd : Draft.Writes { part, whole } (.integer n) :=
      ⟨hpart, value?_of_absorb (habsorb (by omega))⟩
    rw [← toList_toString_natCast] at hreads
    exact readsBack_of_reads hreads hd
  · obtain ⟨part, whole, hreads, hpart, habsorb⟩ := (awaitsDigit_sign []).reads_toDigits n
    have hlimit : n ≤ Word.signedLimit := by omega
    have hfits : n < Word.limit64 := Nat.lt_of_le_of_lt hlimit (by decide)
    have hd : Draft.Writes { part, negative := true, whole } (.integer (-n)) :=
      ⟨hpart, value?_of_absorb_negative (habsorb hfits) hn hlimit⟩
    have hsigned : Reads start ('-' :: Nat.toDigits 10 n) _ := .cons (by decide) rfl hreads
    rw [← toList_toString_neg hn] at hsigned
    exact readsBack_of_reads hsigned hd

end Reader

end Json

/-! ### The characters of numbers -/

namespace Decimal

open Json

/-- The characters that numbers are written with. -/
def numeralChars : List Char := "0123456789+-.e".toList

theorem toNat_lt_of_mem : ∀ c ∈ numeralChars, c.toNat < 0x80 :=
  List.all_iff_forall_prop.1 (by decide)

theorem mem_of_mem_toDigits {n : Nat} {c : Char} (h : c ∈ Nat.toDigits 10 n) :
    c ∈ numeralChars := by
  have hdigits : ∀ n < 10, Nat.digitChar n ∈ numeralChars := by decide
  induction n using Nat.strongRecOn with
  | ind n ih =>
  by_cases hlt : n < 10
  · rw [Nat.toDigits_of_lt_base hlt, List.mem_singleton] at h
    exact h ▸ hdigits n hlt
  · rw [Nat.toDigits_of_base_le (by decide) (by omega), List.mem_append, List.mem_singleton] at h
    rcases h with h | rfl
    · exact ih (n / 10) (by omega) h
    · exact hdigits _ (by omega)

theorem mem_of_mem_toString {k : Int} {c : Char} (h : c ∈ (toString k).toList) :
    c ∈ numeralChars := by
  rcases exists_natCast_or_neg k with ⟨n, rfl⟩ | ⟨n, hn, rfl⟩
  · rw [toList_toString_natCast] at h
    exact mem_of_mem_toDigits h
  · rw [toList_toString_neg hn] at h
    rcases List.mem_cons.1 h with rfl | h
    · decide
    · exact mem_of_mem_toDigits h

theorem Digits.subset_positional (d : Digits) : d.positional.toList ⊆ numeralChars := by
  have hchars : d.chars ⊆ numeralChars := fun _ => mem_of_mem_toDigits
  have hzeros : ∀ n, List.replicate n '0' ⊆ numeralChars := by
    intro n c hc
    rw [(List.mem_replicate.1 hc).2]
    decide
  unfold positional
  dsimp only
  split
  · rw [String.toList_append, String.toList_ofList]
    exact List.append_subset.2 ⟨List.append_subset.2 ⟨hchars, hzeros _⟩, by decide⟩
  split
  · rw [String.toList_ofList]
    exact List.append_subset.2 ⟨fun _ h => hchars (List.mem_of_mem_take h),
      List.cons_subset.2 ⟨by decide, fun _ h => hchars (List.mem_of_mem_drop h)⟩⟩
  · simp only [String.toList_append, String.toList_ofList]
    exact List.append_subset.2 ⟨by decide, List.append_subset.2 ⟨hzeros _, hchars⟩⟩

theorem Digits.subset_scientific (d : Digits) : d.scientific.toList ⊆ numeralChars := by
  have hchars : d.chars ⊆ numeralChars := fun _ => mem_of_mem_toDigits
  have hpower : ((if 1 ≤ d.point then "+" else "") ++ toString (d.point - 1)).toList ⊆
      numeralChars := by
    rw [String.toList_append]
    refine List.append_subset.2 ⟨?_, fun _ => mem_of_mem_toString⟩
    split <;> decide
  unfold scientific
  dsimp only
  split
  · decide
  · rename_i c hc
    rw [hc] at hchars
    rw [String.toList_append, String.toList_append, String.toList_ofList]
    exact List.append_subset.2 ⟨List.append_subset.2 ⟨hchars, by decide⟩, hpower⟩
  · rename_i c cs _ hc
    rw [hc] at hchars
    rw [String.toList_append, String.toList_append, String.toList_ofList]
    refine List.append_subset.2 ⟨List.append_subset.2 ⟨?_, by decide⟩, hpower⟩
    obtain ⟨hc, hcs⟩ := List.cons_subset.1 hchars
    exact List.cons_subset.2 ⟨hc, List.cons_subset.2 ⟨by decide, hcs⟩⟩

theorem Digits.subset_text (d : Digits) : d.text.toList ⊆ numeralChars := by
  unfold text
  split
  · exact d.subset_positional
  · exact d.subset_scientific

theorem Binary64.subset_text (x : Binary64) : x.text.toList ⊆ numeralChars := by
  have hsign : (if x.negative then "-" else "").toList ⊆ numeralChars := by
    cases x.negative <;> decide
  rw [text, String.toList_append]
  exact List.append_subset.2 ⟨hsign, x.magnitude.shortest.subset_text⟩

end Decimal

theorem Json.Number.subset_text (n : Json.Number) : n.text.toList ⊆ Decimal.numeralChars := by
  cases n with
  | integer k => exact fun _ => Decimal.mem_of_mem_toString
  | double x => exact x.subset_text

namespace Json

namespace Reader

variable {c : Char}

/-- If a number can begin with a character, it can do so inside of anything. -/
theorem exists_draft_of_start (hc : c ∈ Decimal.numeralChars) {s : State}
    (h : step start (.ofNat c.toNat) = some s) :
    ∃ d, s = ⟨[], .number d⟩ ∧ ∀ (phase : Phase) (stack : List Frame), phase.AwaitsValue →
      step ⟨stack, phase⟩ (.ofNat c.toNat) = some ⟨stack, .number d⟩ := by
  have hcases : ∀ c ∈ Decimal.numeralChars,
      (∃ n < 10, c = Nat.digitChar n) ∨ c = '-' ∨ c ∈ ['+', '.', 'e'] :=
    List.all_iff_forall_prop.1 (by decide)
  rcases hcases c hc with ⟨n, hn, rfl⟩ | rfl | hother
  · have hstart : AwaitsDigit [] false start := Phase.AwaitsValue.awaitsDigit (.inl rfl) []
    cases (hstart n hn).symm.trans h
    exact ⟨_, rfl, fun phase stack hphase => hphase.awaitsDigit stack n hn⟩
  · cases h
    refine ⟨_, rfl, fun phase stack hphase => ?_⟩
    rcases hphase with rfl | rfl <;> rfl
  · simp only [List.mem_cons, List.not_mem_nil, or_false] at hother
    rcases hother with rfl | rfl | rfl <;> cases h

/-- A number that goes on does so inside of anything. -/
theorem exists_extend_of_step (hc : c ∈ Decimal.numeralChars) {d : Draft} {s : State}
    (h : step ⟨[], .number d⟩ (.ofNat c.toNat) = some s) :
    ∃ d', s = ⟨[], .number d'⟩ ∧ ∀ stack : List Frame,
      step ⟨stack, .number d⟩ (.ofNat c.toNat) = some ⟨stack, .number d'⟩ := by
  have hspaces : ∀ c ∈ Decimal.numeralChars, isSpace (.ofNat c.toNat) = false :=
    List.all_iff_forall_prop.1 (by decide)
  have hspace := hspaces c hc
  simp only [step, stepNumber] at h ⊢
  cases hextend : d.extend (.ofNat c.toNat) with
  | some d' =>
    simp only [hextend] at h
    cases h
    exact ⟨d', rfl, fun stack => rfl⟩
  | none =>
    -- The number would have to be complete, and only white space may follow it there.
    simp only [hextend] at h
    split at h
    · cases h
    · unfold endNumber complete at h
      split at h
      · simp [afterValue, hspace] at h
      · cases h

theorem exists_draft_of_reads {cs : List Char} (hcs : cs ⊆ Decimal.numeralChars) {d : Draft}
    {s : State} (h : Reads ⟨[], .number d⟩ cs s) :
    ∃ d', s = ⟨[], .number d'⟩ ∧
      ∀ stack : List Frame, Reads ⟨stack, .number d⟩ cs ⟨stack, .number d'⟩ := by
  induction cs generalizing d with
  | nil =>
    cases h
    exact ⟨d, rfl, fun stack => .nil⟩
  | cons c cs ih =>
    obtain ⟨hc, hcs⟩ := List.cons_subset.1 hcs
    have hascii := Decimal.toNat_lt_of_mem c hc
    obtain ⟨s', hstep, hreads⟩ := (reads_cons hascii).1 h
    obtain ⟨d', rfl, hextend⟩ := exists_extend_of_step hc hstep
    obtain ⟨d'', rfl, hrest⟩ := ih hcs hreads
    exact ⟨d'', rfl, fun stack => .cons hascii (hextend stack) (hrest stack)⟩

theorem writes_of_finish {d : Draft} {node : Node} {n : Number} {parse : String → Option Json}
    {depth : Nat} (h : finish ⟨[], .number d⟩ = some node)
    (hvalue : node.valueIn? parse depth = some (.number n)) : d.Writes n := by
  cases hcomplete : d.part.complete with
  | false => simp [finish, endNumber, hcomplete] at h
  | true =>
    simp only [finish, endNumber, hcomplete, complete, if_true, Option.some.injEq] at h
    rw [← h, Node.valueIn?_number, Option.map_eq_some_iff] at hvalue
    obtain ⟨_, hnumeral, heq⟩ := hvalue
    cases heq
    exact ⟨hcomplete, hnumeral⟩

/-- **A number that reads back** when it stands alone does so inside of anything. -/
theorem reads_number {n : Number} (h : n.ReadsBack) {phase : Phase} (hphase : phase.AwaitsValue)
    (stack : List Frame) :
    ∃ d : Draft, d.Writes n ∧ Reads ⟨stack, phase⟩ n.text.toList ⟨stack, .number d⟩ := by
  have hchars := n.subset_text
  rw [Number.ReadsBack, parseText, parse, read, Text.Utf8.encode, Option.bind_eq_some_iff] at h
  obtain ⟨node, hread, hvalue⟩ := h
  obtain ⟨s, hreads, hfinish⟩ := Option.bind_eq_some_iff.1 hread
  replace hreads : Reads start n.text.toList s := hreads
  cases htext : n.text.toList with
  | nil =>
    rw [htext] at hreads
    cases hreads
    cases hfinish
  | cons c cs =>
    rw [htext] at hreads hchars
    obtain ⟨hc, hcs⟩ := List.cons_subset.1 hchars
    have hascii := Decimal.toNat_lt_of_mem c hc
    obtain ⟨s', hstep, hreads⟩ := (reads_cons hascii).1 hreads
    obtain ⟨d, rfl, hstart⟩ := exists_draft_of_start hc hstep
    obtain ⟨d', rfl, hrest⟩ := exists_draft_of_reads hcs hreads
    exact ⟨d', writes_of_finish hfinish hvalue,
      .cons hascii (hstart phase stack hphase) (hrest stack)⟩

end Reader

/-- A half, as a double. -/
def half : Decimal.Binary64 := ⟨false, ⟨4503599627370496, -53⟩⟩

theorem readsBack_half : (Number.double half).ReadsBack := by
  unfold Number.ReadsBack
  decide +kernel

/-- The double that is read for `10e32` does not read back. -/
example : parseText "10e32" = some (.number (.double ⟨false, ⟨6938893903907229, 57⟩⟩)) ∧
    ¬ (Number.double ⟨false, ⟨6938893903907229, 57⟩⟩).ReadsBack := by
  unfold Number.ReadsBack
  decide +kernel

end Json

end MediaCatalogue
