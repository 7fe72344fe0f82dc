import MediaCatalogue.Time.Civil

/-!
# Days and dates

An era has four centuries, a century cycles of four years, and a cycle four years. The last year of
each is a day longer than the others, or a day shorter: `Date.IsDay` says where a day lies in its
era, and `Date.exists_isDay` that it lies somewhere. `Date.ofDayNumber` finds the place without
looking for it (`Date.IsDay.year_eq`). Within a year the months are found by looking at all days
(`Date.inMonth`).

**Main theorem** (`Date.dayNumber_ofDayNumber`): a day has the number that its date has. So no two
days have one date, and the date is in the calendar (`Date.exists?_ofDayNumber`).
-/

namespace MediaCatalogue.Time.Date

/-! ### Years -/

/-- The day `d` of an era is the day `s` of the year `j` of the cycle `k` of the century `c`. -/
structure IsDay (d c k j s : Int) : Prop where
  day : d = 36524 * c + 1461 * k + 365 * j + s
  century : 0 ≤ c ∧ c ≤ 3
  cycle : 0 ≤ k ∧ k ≤ 24
  year : 0 ≤ j ∧ j ≤ 3
  rest : 0 ≤ s ∧ s ≤ 365
  leap : s = 365 → j = 3 ∧ (k ≠ 24 ∨ c = 3)

theorem exists_isDay {d : Int} (hlow : 0 ≤ d) (hhigh : d < 146097) :
    ∃ c k j s, IsDay d c k j s := by
  obtain ⟨c, hc⟩ : ∃ c, c = min 3 (d / 36524) := ⟨_, rfl⟩
  obtain ⟨k, hk⟩ : ∃ k, k = (d - 36524 * c) / 1461 := ⟨_, rfl⟩
  obtain ⟨j, hj⟩ : ∃ j, j = min 3 ((d - 36524 * c - 1461 * k) / 365) := ⟨_, rfl⟩
  exact ⟨c, k, j, d - 36524 * c - 1461 * k - 365 * j, by omega, by omega, by omega, by omega,
    by omega, by omega⟩

namespace IsDay

variable {d c k j s : Int}

/-- The rule that finds the year of a day in its era. -/
theorem year_eq (h : IsDay d c k j s) :
    (d - d / 1460 + d / 36524 - d / 146096) / 365 = 100 * c + 4 * k + j := by
  obtain ⟨hd, hc, hk, hj, hs, hleap⟩ := h
  -- Only the last day of an era would belong to a fifth century.
  have hlast : d < 146096 ∧ d < 36524 * (c + 1) ∨ d = 146096 ∧ c = 3 := by
    by_cases hs' : s = 365
    · have := hleap hs'
      omega
    · omega
  have hcentury : d / 36524 - d / 146096 = c := by
    rcases hlast with ⟨hlast, hnext⟩ | ⟨hlast, hc'⟩
    · omega
    · omega
  have hcycle : d / 1460 = 25 * c + k + (24 * c + k + 365 * j + s) / 1460 := by omega
  have hextra : (24 * c + k + 365 * j + s) / 1460 = 0 ∧ s ≠ 365 ∨
      (24 * c + k + 365 * j + s) / 1460 = 1 ∧ j = 3 ∧ 0 < s := by
    omega
  rcases hextra with ⟨hextra, hs'⟩ | ⟨hextra, hthree, hpos⟩
  · omega
  · omega

theorem rest_eq (h : IsDay d c k j s) :
    d - (365 * (100 * c + 4 * k + j) + (100 * c + 4 * k + j) / 4 - (100 * c + 4 * k + j) / 100) =
      s := by
  obtain ⟨hd, hc, hk, hj, hs, _⟩ := h
  have hcycle : (100 * c + 4 * k + j) / 4 = 25 * c + k := by omega
  have hcentury : (100 * c + 4 * k + j) / 100 = c := by omega
  omega

end IsDay

/-! ### Months -/

/-- The month of the day `s` of a year, counted from March. -/
def monthOf (s : Int) : Int := (5 * s + 2) / 153

/-- The same month, counted from January. -/
def calendarMonthOf (s : Int) : Int := if monthOf s < 10 then monthOf s + 3 else monthOf s - 9

/-- The day of the month. -/
def dayOf (s : Int) : Int := s - (153 * monthOf s + 2) / 5 + 1

theorem inMonth : ∀ s : Nat, s < 366 →
    1 ≤ calendarMonthOf s ∧ calendarMonthOf s ≤ 12 ∧
      (calendarMonthOf s + 9) % 12 = monthOf s ∧ 1 ≤ dayOf s ∧
      dayOf s ≤
        if calendarMonthOf s = 2 then (if (s : Int) = 365 then 29 else 28)
        else if calendarMonthOf s = 4 ∨ calendarMonthOf s = 6 ∨ calendarMonthOf s = 9 ∨
          calendarMonthOf s = 11 then 30
        else 31 := by
  decide +kernel

/-! ### Dates -/

theorem ofDayNumber_of_isDay {n d c k j s : Int} (hd : (n + epochOffset) % eraDays = d)
    (h : IsDay d c k j s) :
    ofDayNumber n =
      { year := 100 * c + 4 * k + j + (n + epochOffset) / eraDays * 400 +
          if calendarMonthOf s ≤ 2 then 1 else 0
        month := (calendarMonthOf s).toNat
        day := (dayOf s).toNat } := by
  simp only [ofDayNumber, hd, h.year_eq, h.rest_eq]
  rfl

theorem exists_isDay_of_dayNumber (n : Int) :
    ∃ c k j s, IsDay ((n + epochOffset) % eraDays) c k j s :=
  exists_isDay (Int.emod_nonneg _ (by decide)) (Int.emod_lt_of_pos _ (by decide))

theorem IsDay.inMonth {d c k j s : Int} (h : IsDay d c k j s) :
    1 ≤ calendarMonthOf s ∧ calendarMonthOf s ≤ 12 ∧
      (calendarMonthOf s + 9) % 12 = monthOf s ∧ 1 ≤ dayOf s ∧
      dayOf s ≤
        if calendarMonthOf s = 2 then (if s = 365 then 29 else 28)
        else if calendarMonthOf s = 4 ∨ calendarMonthOf s = 6 ∨ calendarMonthOf s = 9 ∨
          calendarMonthOf s = 11 then 30
        else 31 := by
  obtain ⟨n, rfl⟩ := Int.eq_ofNat_of_zero_le h.rest.1
  exact Date.inMonth n (by have := h.rest.2; omega)

/-- **A day has the number of its date.** -/
theorem dayNumber_ofDayNumber (n : Int) : (ofDayNumber n).dayNumber = n := by
  obtain ⟨c, k, j, s, h⟩ := exists_isDay_of_dayNumber n
  obtain ⟨hlow, hhigh, hmonth, hday, _⟩ := h.inMonth
  obtain ⟨era, hera⟩ : ∃ era, era = (n + epochOffset) / eraDays := ⟨_, rfl⟩
  obtain ⟨y, hy⟩ : ∃ y, y = 100 * c + 4 * k + j := ⟨_, rfl⟩
  rw [ofDayNumber_of_isDay rfl h, ← hera, ← hy]
  obtain ⟨hd, hc, hk, hj, hs, _⟩ := h
  -- January and February belong to the year before, which is added and taken off again.
  have hyear : (if (calendarMonthOf s).toNat ≤ 2 then
      y + era * 400 + (if calendarMonthOf s ≤ 2 then 1 else 0) - 1
      else y + era * 400 + (if calendarMonthOf s ≤ 2 then 1 else 0)) = y + era * 400 := by
    split
    · rw [if_pos (by omega)]
      omega
    · rw [if_neg (by omega)]
      omega
  have hmonth' : (((calendarMonthOf s).toNat : Int) + 9) % 12 = monthOf s := by
    rw [Int.toNat_of_nonneg (by omega), hmonth]
  have hday' : ((dayOf s).toNat : Int) = s - (153 * monthOf s + 2) / 5 + 1 :=
    Int.toNat_of_nonneg (by omega)
  have hera' : (y + era * 400) / 400 = era := by omega
  have hrest : (y + era * 400) % 400 = y := by omega
  have hfour : y / 4 = 25 * c + k := by omega
  have hhundred : y / 100 = c := by omega
  have hn : eraDays * era + (n + epochOffset) % eraDays = n + epochOffset :=
    hera ▸ Int.mul_ediv_add_emod ..
  simp only [dayNumber, hyear, hmonth', hday', hera', hrest, hfour, hhundred]
  rw [Int.mul_comm] at hn
  omega

theorem IsDay.isLeap {d c k j : Int} (h : IsDay d c k j 365) (era : Int) :
    isLeap (100 * c + 4 * k + j + era * 400 + 1) = true := by
  obtain ⟨_, hc, hk, hj, _, hleap⟩ := h
  obtain ⟨rfl, hshort⟩ := hleap rfl
  simp only [Date.isLeap, Bool.and_eq_true, Bool.or_eq_true, beq_iff_eq, bne_iff_ne]
  rcases hshort with hshort | rfl
  · exact ⟨by omega, .inl (by omega)⟩
  · by_cases hlast : k = 24
    · exact ⟨by omega, .inr (by omega)⟩
    · exact ⟨by omega, .inl (by omega)⟩

/-- The date of a day is in the calendar, unless its year is out of range. -/
theorem exists?_ofDayNumber {n : Int} (h : (ofDayNumber n).inRange = true) :
    (ofDayNumber n).exists? = true := by
  obtain ⟨c, k, j, s, hplace⟩ := exists_isDay_of_dayNumber n
  obtain ⟨hlow, hhigh, _, hfirst, hlast⟩ := hplace.inMonth
  rw [exists?, h, ofDayNumber_of_isDay rfl hplace]
  simp only [Bool.true_and, Bool.and_eq_true, decide_eq_true_eq]
  refine ⟨⟨⟨by omega, by omega⟩, by omega⟩, ?_⟩
  have hmonth : ∀ m : Nat, (calendarMonthOf s).toNat = m ↔ calendarMonthOf s = m := by omega
  simp only [monthLength, hmonth, Int.cast_ofNat_Int]
  -- February is told by leap years, the other months by their number.
  split at hlast
  · rename_i hfebruary
    have hearly : calendarMonthOf s ≤ 2 := by omega
    rw [if_pos hfebruary, if_pos hearly]
    split at hlast
    · rename_i hlong
      subst hlong
      rw [if_pos (hplace.isLeap _)]
      omega
    · split
      · omega
      · omega
  · rename_i hother
    rw [if_neg hother]
    split at hlast
    · rename_i hshort
      rw [if_pos hshort]
      omega
    · rename_i hlong
      rw [if_neg hlong]
      omega

/-- The days of the years in which times are represented are less than two to the power of 27. -/
theorem bounds_of_inRange {n : Int} (h : (ofDayNumber n).inRange = true) :
    -134217728 < n ∧ n < 134217728 := by
  obtain ⟨c, k, j, s, hplace⟩ := exists_isDay_of_dayNumber n
  rw [ofDayNumber_of_isDay rfl hplace] at h
  obtain ⟨_, hc, hk, hj, _, _⟩ := hplace
  simp only [inRange, Bool.and_eq_true, decide_eq_true_eq] at h
  simp only [firstYear, lastYear, epochOffset, eraDays] at h
  split at h
  · omega
  · omega

end MediaCatalogue.Time.Date
