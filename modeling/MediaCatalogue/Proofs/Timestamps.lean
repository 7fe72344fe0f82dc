import Mathlib.Algebra.Ring.Nat
import MediaCatalogue.Proofs.Calendar
import MediaCatalogue.Time.Rfc3339

/-!
# Timestamps read back

Every part of a timestamp is read in front of whatever follows it. Numbers are written with as many
digits as are read, or end at a character that is no digit, so the reader takes exactly what was
written.

* `Time.number_padded`, `Time.year_yearText`, `Time.fraction_fractionText` : numbers, years and parts
  of a second;
* `Time.date_text`, `Time.timeOfDay_text` : dates and times of day;
* `Instant.IsWritable` : what an instant must be to have a timestamp. Its date is in the calendar,
  and a leap second is the last second of a minute, because offsets are whole minutes.

**Main theorem** (`Instant.parse_rfc3339`): such an instant is read back from its text. Only such
instants are read (`Instant.isWritable_of_parse`).
-/

namespace MediaCatalogue

namespace Time

open Text Instant

variable {c : Char} {cs rest : List Char} {n width : Nat}

/-! ### Characters -/

theorem isBlank_of_isDigit (h : c.isDigit = true) : isBlank c = false := by
  obtain ⟨hlow, hhigh⟩ := Char.isDigit_iff_toNat.1 h
  replace hlow : 48 ≤ c.toNat := hlow
  replace hhigh : c.toNat ≤ 57 := hhigh
  simp only [isBlank, Bool.or_eq_false_iff, Bool.and_eq_false_iff, decide_eq_false_iff_not,
    beq_eq_false_iff_ne]
  omega

theorem trimStart_cons (h : isBlank c = false) : trimStart (c :: cs) = c :: cs :=
  List.dropWhile_cons_of_neg (by simp [h])

theorem mark_cons (h : isBlank c = false) : mark c (c :: rest) = some ((), rest) := by
  rw [mark, trimStart_cons h]
  simp

/-! ### Numbers -/

theorem decimal_eq (cs : List Char) : decimal cs = Nat.ofDigitChars 10 cs 0 := by
  simp only [decimal, Nat.ofDigitChars_eq_foldl, Nat.mul_comm]

/-- **Digits are a number** if they are as many as are read, or no digit follows them. -/
theorem number_append (hne : cs ≠ []) (hcs : ∀ c ∈ cs, c.isDigit = true) (hle : cs.length ≤ width)
    (hend : cs.length = width ∨ ∀ c ∈ rest.head?, c.isDigit = false) :
    number width (cs ++ rest) = some (decimal cs, rest) := by
  have htrim : trimStart (cs ++ rest) = cs ++ rest := by
    obtain ⟨c, cs', rfl⟩ := List.exists_cons_of_ne_nil hne
    exact trimStart_cons (isBlank_of_isDigit (hcs c List.mem_cons_self))
  have hrest : (rest.take (width - cs.length)).takeWhile Char.isDigit = [] := by
    rcases hend with hend | hend
    · rw [hend, Nat.sub_self, List.take_zero, List.takeWhile_nil]
    · cases rest with
      | nil => simp
      | cons c rest =>
        cases width - cs.length with
        | zero => simp
        | succ k => simp [hend c rfl]
  have hdigits : ((cs ++ rest).take width).takeWhile Char.isDigit = cs := by
    rw [List.take_append, List.take_of_length_le hle, List.takeWhile_append_of_pos hcs, hrest,
      List.append_nil]
  simp only [number, htrim, hdigits, List.isEmpty_iff, hne, if_false, List.drop_left]

theorem toList_padded (width n : Nat) :
    (padded width n).toList =
      List.replicate (width - (Nat.toDigits 10 n).length) '0' ++ Nat.toDigits 10 n :=
  String.toList_ofList

theorem padded_ne_nil (width n : Nat) : (padded width n).toList ≠ [] := by
  rw [toList_padded]
  simp

theorem isDigit_of_mem_padded : ∀ c ∈ (padded width n).toList, c.isDigit = true := by
  intro c hc
  rw [toList_padded, List.mem_append] at hc
  rcases hc with hc | hc
  · rw [(List.mem_replicate.1 hc).2]
    decide
  · exact Nat.isDigit_of_mem_toDigits (by decide) (by decide) hc

theorem length_padded (hwidth : 0 < width) (h : n < 10 ^ width) :
    (padded width n).toList.length = width := by
  have hle : (Nat.toDigits 10 n).length ≤ width :=
    (Nat.length_toDigits_le_iff (by decide) hwidth).2 h
  rw [toList_padded, List.length_append, List.length_replicate]
  omega

theorem decimal_padded (width n : Nat) : decimal (padded width n).toList = n := by
  rw [decimal_eq, toList_padded, Nat.ofDigitChars_append, Nat.ofDigitChars_replicate_zero,
    Nat.mul_zero, Nat.ofDigitChars_ten_toDigits]

theorem number_padded (hwidth : 0 < width) (h : n < 10 ^ width) :
    number width ((padded width n).toList ++ rest) = some (n, rest) := by
  have hlength := length_padded hwidth h
  rw [number_append (padded_ne_nil width n) isDigit_of_mem_padded (Nat.le_of_eq hlength)
    (.inl hlength), decimal_padded]

/-- A number with a sign before it may have any number of digits. -/
theorem number_padded_of_end {size : Nat} (h : ∀ c ∈ rest.head?, c.isDigit = false)
    (hsize : (padded width n).toList.length ≤ size) :
    number size ((padded width n).toList ++ rest) = some (n, rest) := by
  rw [number_append (padded_ne_nil width n) isDigit_of_mem_padded hsize (.inr h), decimal_padded]

/-! ### Dates -/

theorem exists_padded_eq_cons (width n : Nat) : ∃ c cs, (padded width n).toList = c :: cs ∧
    c.isDigit = true := by
  obtain ⟨c, cs, h⟩ := List.exists_cons_of_ne_nil (padded_ne_nil width n)
  have hc : c ∈ (padded width n).toList := h ▸ List.mem_cons_self
  exact ⟨c, cs, h, isDigit_of_mem_padded c hc⟩

theorem year_of_isDigit (hc : c.isDigit = true) :
    year (c :: cs) = (number 4 (c :: cs)).map fun (n, rest) => ((n : Int), rest) := by
  rw [year, trimStart_cons (isBlank_of_isDigit hc)]
  split
  · rename_i heq
    cases heq
    cases hc
  · rename_i heq
    cases heq
    cases hc
  · rfl

/-- **A year is read back** in front of a character that is no digit. -/
theorem year_yearText {y : Int} (h : ∀ c ∈ rest.head?, c.isDigit = false) :
    year ((yearText y).toList ++ rest) = some (y, rest) := by
  unfold yearText
  split
  · -- Years of four digits have no sign, so no more than four digits are read.
    have hnumber : number 4 ((padded 4 y.toNat).toList ++ rest) = some (y.toNat, rest) :=
      number_padded (by decide) (by omega)
    obtain ⟨c, cs, hcs, hc⟩ := exists_padded_eq_cons 4 y.toNat
    rw [hcs, List.cons_append] at hnumber ⊢
    rw [year_of_isDigit hc, hnumber]
    simp only [Option.map_some, Option.some.injEq, Prod.mk.injEq, and_true]
    omega
  · have hnumber : number ((padded 4 y.natAbs).toList ++ rest).length
        ((padded 4 y.natAbs).toList ++ rest) = some (y.natAbs, rest) :=
      number_padded_of_end h (by simp)
    obtain ⟨c, cs, hcs, hc⟩ := exists_padded_eq_cons 4 y.natAbs
    have hdigit : ((padded 4 y.natAbs).toList ++ rest).head?.any Char.isDigit = true := by
      rw [hcs]
      exact hc
    split
    · have hsign : (("-" ++ padded 4 y.natAbs).toList ++ rest) =
          '-' :: ((padded 4 y.natAbs).toList ++ rest) := by
        simp
      rw [hsign, year, trimStart_cons (by decide)]
      simp only [hdigit, if_true, hnumber, Option.map_some, Option.some.injEq, Prod.mk.injEq,
        and_true]
      omega
    · have hsign : (("+" ++ padded 4 y.natAbs).toList ++ rest) =
          '+' :: ((padded 4 y.natAbs).toList ++ rest) := by
        simp
      rw [hsign, year, trimStart_cons (by decide)]
      simp only [hdigit, if_true, hnumber, Option.map_some, Option.some.injEq, Prod.mk.injEq,
        and_true]
      omega

theorem monthLength_le (year : Int) (month : Nat) : Date.monthLength year month ≤ 31 := by
  unfold Date.monthLength
  repeat' split
  all_goals decide

/-- **A date is read back** if it is in the calendar. -/
theorem date_text {d : Date} (h : d.exists? = true) :
    date ((yearText d.year).toList ++ '-' :: ((padded 2 d.month).toList ++
      '-' :: ((padded 2 d.day).toList ++ rest))) = some (d, rest) := by
  have hcalendar := h
  simp only [Date.exists?, Bool.and_eq_true, decide_eq_true_eq] at hcalendar
  have hlength := monthLength_le d.year d.month
  have hmonth : d.month < 10 ^ 2 := by omega
  have hday : d.day < 10 ^ 2 := by omega
  have hhyphen : isBlank '-' = false := by decide
  unfold date
  rw [year_yearText (by simp), Option.bind_eq_bind, Option.bind_some]
  simp only [mark_cons hhyphen, Option.bind_eq_bind, Option.bind_some,
    number_padded (by decide : 0 < 2) hmonth, number_padded (by decide : 0 < 2) hday, h, if_true]

/-! ### Times of day -/

theorem fraction_padded (hwidth : 0 < width) (hle : width ≤ 9) (h : n < 10 ^ width) :
    fraction ('.' :: ((padded width n).toList ++ 'Z' :: rest)) =
      some (n * 10 ^ (9 - width), 'Z' :: rest) := by
  have hdigits : ((padded width n).toList ++ 'Z' :: rest).takeWhile Char.isDigit =
      (padded width n).toList := by
    rw [List.takeWhile_append_of_pos isDigit_of_mem_padded]
    simp
  have hkept : (padded width n).toList.take 9 = (padded width n).toList :=
    List.take_of_length_le (by rw [length_padded hwidth h]; exact hle)
  have hdrop : ((padded width n).toList ++ 'Z' :: rest).drop width = 'Z' :: rest :=
    List.drop_left' (length_padded hwidth h)
  simp only [fraction, hdigits, hkept, List.isEmpty_iff, padded_ne_nil, if_false, decimal_padded,
    length_padded hwidth h, hdrop, Nat.pow_eq]

/-- **A part of a second is read back** in front of a character that ends it. -/
theorem fraction_fractionText (h : n < 1000000000) :
    fraction ((fractionText n).toList ++ 'Z' :: rest) = some (n, 'Z' :: rest) := by
  have hpoint : ∀ width m, ("." ++ padded width m).toList ++ 'Z' :: rest =
      '.' :: ((padded width m).toList ++ 'Z' :: rest) := by
    simp
  unfold fractionText
  split
  · rename_i hzero
    rw [hzero]
    rfl
  split
  · rw [hpoint, fraction_padded (by decide) (by decide) (by omega)]
    simp only [Option.some.injEq, Prod.mk.injEq, and_true]
    omega
  split
  · rw [hpoint, fraction_padded (by decide) (by decide) (by omega)]
    simp only [Option.some.injEq, Prod.mk.injEq, and_true]
    omega
  · rw [hpoint, fraction_padded (by decide) (by decide) h, Nat.sub_self, Nat.pow_zero, Nat.mul_one]

/-- **A time of day is read back.** The second 60 is a leap second. -/
theorem timeOfDay_text {hour minute second nanos : Nat} (hhour : hour < 24) (hminute : minute < 60)
    (hsecond : second ≤ 60) (hnanos : nanos < 1000000000) :
    timeOfDay ((padded 2 hour).toList ++ ':' :: ((padded 2 minute).toList ++ ':' ::
      ((padded 2 second).toList ++ ((fractionText nanos).toList ++ 'Z' :: rest)))) =
      some ((hour * 3600 + minute * 60 + min second 59,
        if second = 60 then 1000000000 + nanos else nanos), 'Z' :: rest) := by
  have hcolon : isBlank ':' = false := by decide
  have htwo : 0 < 2 := by decide
  unfold timeOfDay
  simp only [mark_cons hcolon, Option.bind_eq_bind, Option.bind_some,
    number_padded htwo (show hour < 10 ^ 2 by omega),
    number_padded htwo (show minute < 10 ^ 2 by omega),
    number_padded htwo (show second < 10 ^ 2 by omega), fraction_fractionText hnanos]
  rw [if_pos ⟨hhour, hminute⟩]
  split
  · rename_i hshort
    rw [if_neg (by omega), Nat.min_eq_left (by omega)]
  · rename_i hlong
    rw [if_pos (by omega), if_pos (by omega), Nat.min_eq_right (by omega)]

end Time

namespace Instant

open Time

/-- The instant can be written: its date is in the calendar, and a part of a billion nanoseconds or
more is a leap second at the end of a minute. -/
structure IsWritable (t : Instant) : Prop where
  date : (Date.ofDayNumber (t.seconds / daySeconds)).inRange = true
  fraction : t.fraction < 1000000000 ∨
    1000000000 ≤ t.fraction ∧ t.fraction < 2000000000 ∧ t.seconds % 60 = 59

/-- The second of the day. -/
def secondOfDay (t : Instant) : Nat := (t.seconds % daySeconds).toNat

/-- The second of the minute, 60 within a leap second. -/
def shownSecond (t : Instant) : Nat :=
  if 1000000000 ≤ t.fraction then t.secondOfDay % 60 + 1 else t.secondOfDay % 60

/-- The nanoseconds in the second that is shown. -/
def shownNanos (t : Instant) : Nat :=
  if 1000000000 ≤ t.fraction then t.fraction - 1000000000 else t.fraction

theorem toList_rfc3339 (t : Instant) : t.rfc3339.toList =
    have date := Date.ofDayNumber (t.seconds / daySeconds)
    (yearText date.year).toList ++ '-' :: ((padded 2 date.month).toList ++
      '-' :: ((padded 2 date.day).toList ++ 'T' :: ((padded 2 (t.secondOfDay / 3600)).toList ++
        ':' :: ((padded 2 (t.secondOfDay / 60 % 60)).toList ++
          ':' :: ((padded 2 t.shownSecond).toList ++
            ((fractionText t.shownNanos).toList ++ ['Z'])))))) := by
  have hhyphen : "-".toList = ['-'] := rfl
  have hseparator : "T".toList = ['T'] := rfl
  have hcolon : ":".toList = [':'] := rfl
  have hoffset : "Z".toList = ['Z'] := rfl
  simp only [rfc3339, text, secondOfDay, shownSecond, shownNanos, String.toList_append,
    List.append_assoc, hhyphen, hseparator, hcolon, hoffset, List.cons_append, List.nil_append]

theorem secondOfDay_lt (t : Instant) : t.secondOfDay < 86400 := by
  have hlt := Int.emod_lt_of_pos t.seconds (show 0 < daySeconds by decide)
  simp only [secondOfDay, daySeconds] at *
  omega

theorem seconds_eq (t : Instant) :
    t.seconds / daySeconds * daySeconds + t.secondOfDay = t.seconds := by
  rw [secondOfDay, Int.toNat_of_nonneg (Int.emod_nonneg _ (by decide)), Int.mul_comm]
  exact Int.mul_ediv_add_emod ..

theorem shownSecond_le (t : Instant) : t.shownSecond ≤ 60 := by
  unfold shownSecond
  split
  · omega
  · omega

namespace IsWritable

variable {t : Instant}

theorem shownNanos_lt (h : t.IsWritable) : t.shownNanos < 1000000000 := by
  have hfraction := h.fraction
  unfold shownNanos
  split
  · omega
  · omega

/-- A leap second is shown in the last second of a minute. -/
theorem shownSecond_eq_iff (h : t.IsWritable) :
    t.shownSecond = 60 ↔ 1000000000 ≤ t.fraction := by
  have hfraction := h.fraction
  have hseconds := t.seconds_eq
  simp only [shownSecond, daySeconds] at *
  split
  · omega
  · omega

theorem min_shownSecond (h : t.IsWritable) : min t.shownSecond 59 = t.secondOfDay % 60 := by
  by_cases hlong : 1000000000 ≤ t.fraction
  · have hleap := h.shownSecond_eq_iff.2 hlong
    have hlast : t.shownSecond = t.secondOfDay % 60 + 1 := if_pos hlong
    omega
  · have hsecond : t.shownSecond = t.secondOfDay % 60 := if_neg hlong
    omega

end IsWritable

/-- **An instant is read back** from its text. -/
theorem parse_rfc3339 {t : Instant} (h : t.IsWritable) : parse t.rfc3339 = some t := by
  have htime := t.secondOfDay_lt
  have hhour : t.secondOfDay / 3600 < 24 := by omega
  have hminute : t.secondOfDay / 60 % 60 < 60 := by omega
  have hoffset : Time.offset ['Z'] = some (0, []) := by decide
  have hseconds : t.seconds / daySeconds * daySeconds +
      (t.secondOfDay / 3600 * 3600 + t.secondOfDay / 60 % 60 * 60 + min t.shownSecond 59 : Nat) -
        0 = t.seconds := by
    have hparts := t.seconds_eq
    rw [h.min_shownSecond]
    omega
  -- A leap second is shown as second 60, and its fraction goes on from one second.
  have hfraction : (if t.shownSecond = 60 then 1000000000 + t.shownNanos else t.shownNanos) =
      t.fraction := by
    simp only [h.shownSecond_eq_iff, shownNanos]
    split
    · omega
    · rfl
  unfold parse
  rw [toList_rfc3339]
  dsimp only
  rw [date_text (Date.exists?_ofDayNumber h.date), Option.bind_eq_bind, Option.bind_some]
  dsimp only [dateEnd]
  rw [if_pos (.inl rfl), Option.bind_eq_bind, Option.bind_some,
    timeOfDay_text hhour hminute t.shownSecond_le h.shownNanos_lt, Option.bind_eq_bind,
    Option.bind_some]
  dsimp only
  rw [hoffset, Option.bind_eq_bind, Option.bind_some]
  dsimp only
  rw [if_pos (by rfl), Date.dayNumber_ofDayNumber, hseconds, if_pos h.date, hfraction]

/-! ### What is read -/

end Instant

namespace Time

open Instant

variable {cs rest : List Char}

theorem decimal_lt (h : ∀ c ∈ cs, c.isDigit = true) : decimal cs < 10 ^ cs.length := by
  induction cs with
  | nil => decide
  | cons c cs ih =>
    obtain ⟨hc, hcs⟩ := List.forall_mem_cons.1 h
    have hrest := ih hcs
    have hdigit : c.toNat - '0'.toNat ≤ 9 :=
      Nat.sub_le_sub_right (Char.isDigit_iff_toNat.1 hc).2 _
    have hlead := Nat.mul_le_mul_left (10 ^ cs.length) hdigit
    rw [decimal_eq] at *
    rw [Nat.ofDigitChars_cons, Nat.ofDigitChars_eq_ofDigitChars_zero, Nat.mul_zero, Nat.zero_add,
      List.length_cons, Nat.pow_succ]
    omega

theorem fraction_lt {n : Nat} (h : fraction cs = some (n, rest)) : n < 1000000000 := by
  unfold fraction at h
  split at h
  · rename_i cs
    dsimp only at h
    split at h
    · cases h
    · cases h
      obtain ⟨kept, hkept⟩ : ∃ kept, kept = (cs.takeWhile Char.isDigit).take 9 := ⟨_, rfl⟩
      have hdigits : ∀ c ∈ kept, c.isDigit = true := fun c hc =>
        List.all_eq_true.1 List.all_takeWhile c (List.mem_of_mem_take (hkept ▸ hc))
      have hlength : kept.length ≤ 9 := hkept ▸ List.length_take_le ..
      rw [← hkept]
      calc decimal kept * 10 ^ (9 - kept.length)
          < 10 ^ kept.length * 10 ^ (9 - kept.length) :=
            Nat.mul_lt_mul_of_pos_right (decimal_lt hdigits) (Nat.pow_pos (by decide))
        _ = 10 ^ 9 := by rw [← Nat.pow_add, Nat.add_sub_cancel' hlength]
  · cases h
    decide

theorem offset_emod {n : Int} (h : offset cs = some (n, rest)) : n % 60 = 0 := by
  unfold offset at h
  split at h
  · cases h
  · split at h
    · cases h
      rfl
    split at h
    · cases h
      rfl
    -- Only the sign of the offset is left to be distinguished.
    · split at h
      case' isFalse => split at h
      all_goals
        simp only [Option.bind_eq_bind, Option.bind_some, Option.bind_none,
          Option.bind_eq_some_iff, reduceCtorEq] at h
      all_goals
        obtain ⟨⟨hours, _⟩, _, ⟨minutes, _⟩, _, h⟩ := h
        dsimp only at h
        split at h
        · cases h
          omega
        · cases h

/-- A leap second is at the end of a minute. -/
theorem of_timeOfDay {seconds nanos : Nat} (h : timeOfDay cs = some ((seconds, nanos), rest)) :
    nanos < 1000000000 ∨
      1000000000 ≤ nanos ∧ nanos < 2000000000 ∧ seconds % 60 = 59 := by
  unfold timeOfDay at h
  simp only [Option.bind_eq_bind, Option.bind_eq_some_iff] at h
  obtain ⟨⟨hour, _⟩, _, ⟨_, _⟩, _, ⟨minute, _⟩, _, ⟨_, _⟩, _, ⟨second, _⟩, _, ⟨part, _⟩, hpart,
    h⟩ := h
  have hlt := fraction_lt hpart
  dsimp only at h
  split at h
  · split at h
    · cases h
      exact .inl hlt
    split at h
    · cases h
      exact .inr (by omega)
    · cases h
  · cases h

end Time

namespace Instant

open Time

/-- **Only instants that can be written are read.** -/
theorem isWritable_of_parse {text : String} {t : Instant} (h : parse text = some t) :
    t.IsWritable := by
  unfold parse at h
  simp only [Option.bind_eq_bind, Option.bind_eq_some_iff] at h
  obtain ⟨⟨date, _⟩, _, ⟨_, _⟩, _, ⟨⟨seconds, nanos⟩, _⟩, htime, ⟨offset, _⟩, hoffset, h⟩ := h
  dsimp only at h
  split at h
  · split at h
    · rename_i hrange
      cases h
      refine ⟨hrange, (of_timeOfDay htime).imp_right ?_⟩
      rintro ⟨hlow, hhigh, hlast⟩
      have hminutes := offset_emod hoffset
      refine ⟨hlow, hhigh, ?_⟩
      simp only [daySeconds]
      omega
    · cases h
  · cases h

end Instant

end MediaCatalogue
