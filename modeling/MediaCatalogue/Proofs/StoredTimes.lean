import MediaCatalogue.Proofs.Calendar
import MediaCatalogue.Proofs.Counts

/-!
# Times in storage

A time is stored as the number of nanoseconds since 1970, which is computed in signed 64-bit steps.
The whole seconds are scaled first, before 1970 those of the next second, so that the first step
never leads further away from 1970 than the sum. Only a leap second can be refused although its
count fits: its part of a second is larger than the second that was added.

* `Instant.count` : the count of an instant in exact arithmetic;
* `Instant.nanos?_eq_some_iff` : both steps fit, and the sum is the count;
* `Instant.storable_of_isPlain`, `Instant.storable_of_isLeap` : for which counts both steps fit;
* `Instant.fits_millis` : milliseconds always fit.

**Main theorem** (`Instant.stored_times_exact`): what is stored is the exact count.
-/

namespace MediaCatalogue.Instant

open Time

/-- Nanoseconds since the start of 1970, in exact arithmetic. -/
def count (t : Instant) : Int := t.seconds * billion + t.fraction

/-- The instant is outside leap seconds. -/
def IsPlain (t : Instant) : Prop := t.fraction < billion

/-- The instant is within a leap second. -/
def IsLeap (t : Instant) : Prop := billion ≤ t.fraction ∧ t.fraction < 2 * billion

instance : DecidablePred IsPlain :=
  fun t => inferInstanceAs (Decidable ((t.fraction : Int) < billion))

instance : DecidablePred IsLeap :=
  fun t => inferInstanceAs (Decidable (billion ≤ (t.fraction : Int) ∧ t.fraction < 2 * billion))

/-- The same part of the second after a leap second. -/
def afterLeap (t : Instant) : Instant := ⟨t.seconds + 1, t.fraction - 1000000000⟩

/-- The order of instants. A leap second is later than all of its second, and earlier than the
next one. -/
def Before (t t' : Instant) : Prop :=
  t.seconds < t'.seconds ∨ t.seconds = t'.seconds ∧ t.fraction < t'.fraction

/-- The instant has a date in one of the years in which times are represented. -/
structure IsRepresented (t : Instant) : Prop where
  date : (Date.ofDayNumber (t.seconds / daySeconds)).inRange = true
  fraction : t.fraction < 2 * billion

variable {t t' : Instant} {n : Int}

/-! ### Steps of 64 bits -/

/-- The whole seconds that are scaled first. -/
def anchor (t : Instant) : Int := if t.seconds < 0 then t.seconds + 1 else t.seconds

theorem nanos?_eq_some_iff :
    t.nanos? = some n ↔
      Word.fits (t.anchor * billion) = true ∧ Word.fits t.count = true ∧ n = t.count := by
  have hsum : t.anchor * billion +
      (if t.seconds < 0 then (t.fraction : Int) - billion else t.fraction) = t.count := by
    simp only [anchor, count, billion]
    split <;> omega
  have hnanos : t.nanos? =
      if Word.fits (t.anchor * billion) && Word.fits t.count then some t.count else none := by
    rw [← hsum]
    rfl
  rw [hnanos, Option.ite_none_right_eq_some, Bool.and_eq_true, Option.some.injEq, and_assoc,
    eq_comm (a := n)]

theorem storable_eq_ok_iff :
    t.storable = .ok n ↔
      Word.fits (t.anchor * billion) = true ∧ Word.fits t.count = true ∧ n = t.count := by
  rw [← nanos?_eq_some_iff]
  exact ⟨Statements.storable_eq_ok, Statements.storable_of_nanos⟩

theorem storable_eq_error_iff :
    t.storable = .error (.invalidInput (.unstorable t)) ↔ ¬ ∃ n, t.storable = .ok n := by
  constructor
  · rintro h ⟨n, hn⟩
    rw [h] at hn
    cases hn
  · intro h
    refine Statements.storable_of_no_nanos (Option.eq_none_iff_forall_ne_some.2 fun n hn => h ?_)
    exact ⟨n, Statements.storable_of_nanos hn⟩

/-- Outside leap seconds the first step fits if the count does. -/
theorem storable_of_isPlain (ht : t.IsPlain) :
    t.storable = .ok n ↔ Word.fits t.count = true ∧ n = t.count := by
  rw [storable_eq_ok_iff, and_iff_right_iff_imp]
  rintro ⟨hfits, _⟩
  -- The scaled seconds lie between the count and zero.
  simp only [Word.fits_iff, IsPlain, anchor, count, billion, Word.signedLimit] at *
  split <;> omega

/-- Within a leap second the first step fits if the start of the second after it does. -/
theorem storable_of_isLeap (ht : t.IsLeap) :
    t.storable = .ok n ↔ Word.fits ((t.seconds + 1) * billion) = true ∧
      Word.fits t.count = true ∧ n = t.count := by
  rw [storable_eq_ok_iff, and_congr_left_iff]
  rintro ⟨hfits, _⟩
  -- From 1970 on both sides follow from the count; before, they are the same.
  simp only [Word.fits_iff, IsLeap, anchor, count, billion, Word.signedLimit] at *
  split <;> omega

/-! ### Counts -/

theorem isPlain_afterLeap (ht : t.IsLeap) : t.afterLeap.IsPlain := by
  simp only [IsLeap, IsPlain, afterLeap, billion] at *
  omega

theorem count_afterLeap (ht : t.IsLeap) : t.afterLeap.count = t.count := by
  simp only [IsLeap, afterLeap, count, billion] at *
  omega

theorem isPlain_ofNanos (n : Int) : (ofNanos n).IsPlain := by
  simp only [IsPlain, ofNanos, billion]
  omega

theorem count_ofNanos (n : Int) : (ofNanos n).count = n := by
  simp only [count, ofNanos, billion]
  omega

theorem ofNanos_count (ht : t.IsPlain) : ofNanos t.count = t := by
  obtain ⟨seconds, fraction⟩ := t
  simp only [IsPlain, count, ofNanos, billion, Instant.mk.injEq] at *
  omega

theorem count_lt_count_iff (ht : t.IsPlain) (ht' : t'.IsPlain) :
    t.count < t'.count ↔ t.Before t' := by
  simp only [IsPlain, count, Before, billion] at *
  omega

/-! ### Milliseconds -/

theorem millis_eq_count (t : Instant) : t.millis = t.count.fdiv 1000000 := by
  rw [Int.fdiv_eq_ediv_of_nonneg _ (by decide)]
  simp only [millis, count, billion]
  omega

/-- **Milliseconds fit**, and so do those of the whole seconds. -/
theorem fits_millis (ht : t.IsRepresented) :
    Word.fits (t.seconds * 1000) = true ∧ Word.fits t.millis = true := by
  have hdays := Date.bounds_of_inRange ht.date
  have hfraction := ht.fraction
  simp only [Word.fits_iff, millis, daySeconds, billion, Word.signedLimit] at *
  omega

/-- **Stored times are exact counts.**

1. The instant of a 64-bit number is stored as this number.
2. Outside leap seconds, an instant is stored if its exact count fits 64 bits, and then as this
   count; else it is a fault. It is the instant of its count.
3. Of two such instants, the earlier one is stored as the smaller number.
4. A leap second that is stored has the number of the same part of the second after it. It is stored
   if this number fits, and that of the start of the second after it.
5. Milliseconds are the exact count, divided by a million and rounded down.
6. They fit 64 bits in all years in which times are represented. -/
theorem stored_times_exact :
    (∀ n : Int, Word.fits n = true → (ofNanos n).storable = .ok n) ∧
    (∀ t : Instant, t.IsPlain →
      (∀ n, t.storable = .ok n ↔ Word.fits t.count = true ∧ n = t.count) ∧
      (t.storable = .error (.invalidInput (.unstorable t)) ↔ Word.fits t.count = false) ∧
      ∀ n, t.storable = .ok n → ofNanos n = t) ∧
    (∀ t t' : Instant, t.IsPlain → t'.IsPlain → ∀ n n', t.storable = .ok n → t'.storable = .ok n' →
      (n < n' ↔ t.Before t')) ∧
    (∀ t : Instant, t.IsLeap →
      (∀ n, t.storable = .ok n → n = t.afterLeap.count ∧ t.afterLeap.storable = .ok n) ∧
      ((∃ n, t.storable = .ok n) ↔
        Word.fits ((t.seconds + 1) * billion) = true ∧ Word.fits t.count = true)) ∧
    (∀ t : Instant, t.millis = t.count.fdiv 1000000) ∧
    (∀ t : Instant, t.IsRepresented →
      Word.fits (t.seconds * 1000) = true ∧ Word.fits t.millis = true) := by
  refine ⟨fun n hn => ?_, fun t ht => ⟨fun n => storable_of_isPlain ht, ?_, fun n hn => ?_⟩,
    fun t t' ht ht' n n' hn hn' => ?_, fun t ht => ⟨fun n hn => ?_, ?_⟩, millis_eq_count,
    fun t => fits_millis⟩
  · rw [storable_of_isPlain (isPlain_ofNanos n), count_ofNanos]
    exact ⟨hn, rfl⟩
  · rw [storable_eq_error_iff]
    simp only [storable_of_isPlain ht, exists_and_left, exists_eq, and_true, Bool.not_eq_true]
  · obtain ⟨_, rfl⟩ := (storable_of_isPlain ht).1 hn
    exact ofNanos_count ht
  · obtain ⟨_, rfl⟩ := (storable_of_isPlain ht).1 hn
    obtain ⟨_, rfl⟩ := (storable_of_isPlain ht').1 hn'
    exact count_lt_count_iff ht ht'
  · rw [storable_of_isLeap ht] at hn
    rw [storable_of_isPlain (isPlain_afterLeap ht), count_afterLeap ht]
    exact ⟨hn.2.2, hn.2⟩
  · simp only [storable_of_isLeap ht, exists_and_left, exists_eq, and_true]

/-- The first instant that can be stored, the next one, and the middle of the last leap second of
2016, which is stored as the middle of the first second of 2017. -/
theorem stored_times_exact_of_first :
    have first : Instant := ⟨-9223372037, 145224192⟩
    have second : Instant := ⟨-9223372037, 145224193⟩
    have leap : Instant := ⟨1483228799, 1500000000⟩
    Word.fits (-9223372036854775808) = true ∧
      (ofNanos (-9223372036854775808)).storable = .ok (-9223372036854775808) ∧
      first.IsPlain ∧ second.IsPlain ∧ first.storable = .ok (-9223372036854775808) ∧
      second.storable = .ok (-9223372036854775807) ∧ first.Before second ∧
      ofNanos (-9223372036854775808) = first ∧
      leap.IsLeap ∧ leap.storable = .ok 1483228800500000000 ∧
      (⟨1483228800, 500000000⟩ : Instant).storable = .ok 1483228800500000000 ∧
      leap.IsRepresented ∧ Word.fits leap.millis = true := by
  intro first second leap
  obtain ⟨hback, hplain, hmono, hleap, _, hmillis⟩ := stored_times_exact
  have hfits : Word.fits (-9223372036854775808) = true := by decide
  have hfirst : first.IsPlain := by decide
  have hsecond : second.IsPlain := by decide
  have hin : leap.IsLeap := by decide
  have hcalendar : leap.IsRepresented := ⟨by decide +kernel, by decide⟩
  have hfirstCount : first.storable = .ok (-9223372036854775808) :=
    ((hplain first hfirst).1 _).2 ⟨by decide, by decide⟩
  have hsecondCount : second.storable = .ok (-9223372036854775807) :=
    ((hplain second hsecond).1 _).2 ⟨by decide, by decide⟩
  obtain ⟨hafter, hstored⟩ := hleap leap hin
  obtain ⟨n, hn⟩ := hstored.2 ⟨by decide, by decide⟩
  obtain ⟨hvalue, hnext⟩ := hafter n hn
  obtain rfl : n = 1483228800500000000 := hvalue.trans (by decide)
  rw [show leap.afterLeap = ⟨1483228800, 500000000⟩ by decide] at hnext
  exact ⟨hfits, hback _ hfits, hfirst, hsecond, hfirstCount, hsecondCount,
    (hmono first second hfirst hsecond _ _ hfirstCount hsecondCount).1 (by decide),
    (hplain first hfirst).2.2 _ hfirstCount, hin, hn, hnext, hcalendar, (hmillis leap hcalendar).2⟩

end MediaCatalogue.Instant
