import Mathlib.Logic.Function.Iterate
import Mathlib.Tactic.IntervalCases
import RpcDaemon.Http.Date

/-!
# The Gregorian calendar

`CivilDate.next` is the day after a date by the Gregorian rule of leap years, so that iterating it
counts days. The formula with eras of 400 years finds the date that this counting arrives at: every
date has a number, counted from the first of March of the year 0, and the formula inverts it. Main
statement: `CivilDate.ofDays_eq_iterate`.
-/

namespace RpcDaemon

namespace Http

namespace CivilDate

/-! ## Years and months -/

/-- Every fourth year is a leap year, but of the centuries only every fourth. -/
def IsLeap (year : Nat) : Prop :=
  4 ∣ year ∧ (100 ∣ year → 400 ∣ year)

instance (year : Nat) : Decidable (IsLeap year) :=
  inferInstanceAs (Decidable (4 ∣ year ∧ (100 ∣ year → 400 ∣ year)))

/-- The days of a month. -/
def monthLength (year : Nat) : Nat → Nat
  | 2 => if IsLeap year then 29 else 28
  | 4 | 6 | 9 | 11 => 30
  | _ => 31

/-- A date that the calendar has. -/
structure Valid (d : CivilDate) : Prop where
  /-- Months are counted from 1. -/
  month_pos : 0 < d.month
  /-- There are twelve months. -/
  month_le : d.month ≤ 12
  /-- Days are counted from 1. -/
  day_pos : 0 < d.day
  /-- The month has that day. -/
  day_le : d.day ≤ monthLength d.year d.month

/-- The day after a date. -/
def next (d : CivilDate) : CivilDate :=
  if d.day < monthLength d.year d.month then ⟨d.year, d.month, d.day + 1⟩
  else if d.month < 12 then ⟨d.year, d.month + 1, 1⟩
  else ⟨d.year + 1, 1, 1⟩

/-- The first of January 1970. -/
def epoch : CivilDate := ⟨1970, 1, 1⟩

theorem monthLength_pos (year month : Nat) : 0 < monthLength year month := by
  unfold monthLength
  split
  · split <;> decide
  all_goals decide

/-- No month is longer than 31 days. -/
theorem monthLength_le (year month : Nat) : monthLength year month ≤ 31 := by
  unfold monthLength
  split
  · split <;> decide
  all_goals decide

/-- The day after a date is a date. -/
theorem Valid.next {d : CivilDate} (h : d.Valid) : d.next.Valid := by
  have hpos := h.month_pos
  unfold CivilDate.next
  split
  · rename_i hlt
    exact ⟨hpos, h.month_le, Nat.succ_pos _, hlt⟩
  · split
    · rename_i hlt
      exact ⟨Nat.succ_pos _, hlt, Nat.one_pos, monthLength_pos _ _⟩
    · exact ⟨Nat.one_pos, (by decide : 1 ≤ 12), Nat.one_pos, monthLength_pos _ _⟩

/-! ## Years that start in March -/

/-- The days before the year `y` of those that start with the first of March, so that a leap day is
the last day of its year. -/
def daysBefore (y : Nat) : Nat :=
  365 * y + y / 4 - y / 100 + y / 400

/-- Such a year is as long as the rule of leap years says of the year that it ends in. -/
theorem daysBefore_succ (y : Nat) :
    daysBefore (y + 1) = daysBefore y + if IsLeap (y + 1) then 366 else 365 := by
  have hle : y / 100 ≤ y / 4 := Nat.div_le_div_left (by decide) (by decide)
  unfold daysBefore
  by_cases h4 : 4 ∣ y + 1
  · by_cases h100 : 100 ∣ y + 1
    · by_cases h400 : 400 ∣ y + 1
      · rw [if_pos ⟨h4, fun _ => h400⟩, Nat.succ_div_of_dvd h4, Nat.succ_div_of_dvd h100,
          Nat.succ_div_of_dvd h400]
        omega
      · rw [if_neg fun h => h400 (h.2 h100), Nat.succ_div_of_dvd h4, Nat.succ_div_of_dvd h100,
          Nat.succ_div_of_not_dvd h400]
        omega
    · have h400 : ¬ 400 ∣ y + 1 := fun h => h100 (Nat.dvd_trans (by decide) h)
      rw [if_pos ⟨h4, fun h => absurd h h100⟩, Nat.succ_div_of_dvd h4,
        Nat.succ_div_of_not_dvd h100, Nat.succ_div_of_not_dvd h400]
      omega
  · have h100 : ¬ 100 ∣ y + 1 := fun h => h4 (Nat.dvd_trans (by decide) h)
    have h400 : ¬ 400 ∣ y + 1 := fun h => h4 (Nat.dvd_trans (by decide) h)
    rw [if_neg fun h => h4 h.1, Nat.succ_div_of_not_dvd h4, Nat.succ_div_of_not_dvd h100,
      Nat.succ_div_of_not_dvd h400]
    omega

/-- All eras are of one length. -/
theorem daysBefore_era (era y : Nat) :
    daysBefore (400 * era + y) = eraDays * era + daysBefore y := by
  unfold daysBefore eraDays
  omega

/-- The days of a year that lie before the month `mp`, counted from March as zero. -/
def monthStart (mp : Nat) : Nat :=
  (153 * mp + 2) / 5

/-- The year, from March, that a date falls in. -/
def marchYear (d : CivilDate) : Nat :=
  if d.month ≤ 2 then d.year - 1 else d.year

/-- The month of a date, counted from March as zero. -/
def marchMonth (d : CivilDate) : Nat :=
  if d.month ≤ 2 then d.month + 9 else d.month - 3

/-- The days of the year, from March, that lie before a date. -/
def marchDay (d : CivilDate) : Nat :=
  monthStart d.marchMonth + (d.day - 1)

/-- The days from the first of March of the year 0 to a date. -/
def number (d : CivilDate) : Nat :=
  daysBefore d.marchYear + d.marchDay

variable {d : CivilDate}

/-- Every month but February ends where the next one starts. -/
theorem Valid.monthStart_succ (h : d.Valid) (h2 : d.month ≠ 2) :
    monthStart (d.marchMonth + 1) = monthStart d.marchMonth + monthLength d.year d.month := by
  obtain ⟨year, month, day⟩ := d
  have hpos : 0 < month := h.month_pos
  have hle : month ≤ 12 := h.month_le
  unfold marchMonth monthLength
  clear h
  interval_cases month <;> simp [monthStart] at h2 ⊢

/-- A day lies before the next month of a year from March. -/
theorem Valid.marchDay_lt_monthStart (h : d.Valid) :
    d.marchDay < monthStart (d.marchMonth + 1) := by
  have hpos := h.day_pos
  have hle := h.day_le
  unfold marchDay
  by_cases h2 : d.month = 2
  · have hmonth : d.marchMonth = 11 := by simp [marchMonth, h2]
    have hlength : monthLength d.year d.month ≤ 29 := by
      rw [h2]
      show (if IsLeap d.year then 29 else 28) ≤ 29
      split <;> decide
    rw [hmonth]
    unfold monthStart
    omega
  · have hstart := h.monthStart_succ h2
    omega

/-- A day lies before the next year from March. -/
theorem Valid.number_lt (h : d.Valid) (hyear : 0 < d.year) :
    daysBefore d.marchYear + d.marchDay < daysBefore (d.marchYear + 1) := by
  rw [daysBefore_succ]
  by_cases h2 : d.month = 2
  · -- A year from March ends with the last of February of the year after.
    have hfebruary : d.day ≤ if IsLeap (d.marchYear + 1) then 29 else 28 := by
      have hle := h.day_le
      have hmarch : d.marchYear + 1 = d.year := by
        rw [marchYear, if_pos (by omega)]
        omega
      rw [h2] at hle
      rw [hmarch]
      exact hle
    have hstart : monthStart d.marchMonth = 337 := by simp [marchMonth, h2, monthStart]
    have hpos := h.day_pos
    unfold marchDay
    split at hfebruary
    · rename_i hleap
      rw [if_pos hleap]
      omega
    · rename_i hleap
      rw [if_neg hleap]
      omega
  · have hlt := h.marchDay_lt_monthStart
    have hmonth : d.marchMonth ≤ 10 := by
      have hpos := h.month_pos
      have hle := h.month_le
      unfold marchMonth
      split <;> omega
    unfold monthStart at hlt
    split <;> omega

/-- A first of the month that is not of March follows the last day of the month before. -/
theorem Valid.number_first (h : d.Valid) (h2 : d.month ≠ 2)
    (hlast : d.day = monthLength d.year d.month) {d' : CivilDate} (hday : d'.day = 1)
    (hmonth : d'.marchMonth = d.marchMonth + 1) (hyear : d'.marchYear = d.marchYear) :
    d'.number = d.number + 1 := by
  have hstart := h.monthStart_succ h2
  have hpos := h.day_pos
  unfold number marchDay
  rw [hyear, hmonth, hday, hstart]
  omega

/-- The first of March follows the last day of February. -/
theorem number_march {year day : Nat} (hyear : 0 < year) (hlast : day = monthLength year 2) :
    number ⟨year, 3, 1⟩ = number ⟨year, 2, day⟩ + 1 := by
  have hleap := daysBefore_succ (year - 1)
  rw [Nat.sub_add_cancel hyear] at hleap
  have hmarch : number ⟨year, 3, 1⟩ = daysBefore year := by
    simp [number, marchYear, marchDay, marchMonth, monthStart]
  have hfebruary : number ⟨year, 2, day⟩ = daysBefore (year - 1) + (337 + (day - 1)) := by
    simp [number, marchYear, marchDay, marchMonth, monthStart]
  rw [monthLength] at hlast
  rw [hmarch, hfebruary, hleap]
  by_cases hl : IsLeap year
  · rw [if_pos hl] at hlast ⊢
    omega
  · rw [if_neg hl] at hlast ⊢
    omega

/-- **The next day has the next number.** -/
theorem Valid.number_next (h : d.Valid) (hyear : 0 < d.year) : d.next.number = d.number + 1 := by
  have hpos := h.day_pos
  have hle := h.day_le
  have hmonth := h.month_pos
  unfold CivilDate.next
  split
  · -- The day after is one of the same month.
    show daysBefore d.marchYear + (monthStart d.marchMonth + (d.day + 1 - 1)) =
      daysBefore d.marchYear + (monthStart d.marchMonth + (d.day - 1)) + 1
    omega
  · have hlast : d.day = monthLength d.year d.month := by omega
    split
    · by_cases h2 : d.month = 2
      · obtain ⟨year, month, day⟩ := d
        obtain rfl : month = 2 := h2
        exact number_march hyear hlast
      · refine h.number_first h2 hlast rfl ?_ ?_
        · unfold marchMonth
          dsimp only
          split <;> split <;> omega
        · unfold marchYear
          dsimp only
          split <;> split <;> omega
    · have h12 : d.month = 12 := by
        have := h.month_le
        omega
      exact h.number_first (by omega) hlast rfl (by simp [marchMonth, h12])
        (by simp [marchYear, h12])

/-! ## The formula -/

/-- Of the days of an era only the last one lies behind four centuries of equal length. -/
theorem century_eq {c t : Nat} (hc : c < 4) (ht : t < 36524 ∨ c = 3 ∧ t = 36524) :
    (36524 * c + t) / 36524 = c + (36524 * c + t) / 146096 := by
  rcases ht with ht | ⟨rfl, rfl⟩
  · have hlast : (36524 * c + t) / 146096 = 0 := Nat.div_eq_of_lt (by omega)
    rw [hlast, Nat.mul_add_div (by decide), Nat.div_eq_of_lt ht]
  · decide

/-- **The year of an era is found** for each of its days. -/
theorem yearOfEra_eq {y doy : Nat} (hy : y < 400)
    (h : daysBefore y + doy < daysBefore (y + 1)) : yearOfEra (daysBefore y + doy) = y := by
  -- The year is the `j`-th of a cycle of four years, the `q`-th of the century `c`.
  obtain ⟨c, q, j, hq, hj, rfl⟩ : ∃ c q j, q < 25 ∧ j < 4 ∧ y = 100 * c + (4 * q + j) :=
    ⟨y / 100, y % 100 / 4, y % 4, by omega, by omega, by omega⟩
  have hstart : daysBefore (100 * c + (4 * q + j)) = 36524 * c + (1461 * q + 365 * j) := by
    unfold daysBefore
    omega
  have hleap : doy < 365 ∨ doy = 365 ∧ j = 3 ∧ (q = 24 → c = 3) := by
    rw [daysBefore_succ] at h
    by_cases hl : IsLeap (100 * c + (4 * q + j) + 1)
    · rw [if_pos hl] at h
      unfold IsLeap at hl
      omega
    · rw [if_neg hl] at h
      omega
  have hcentury := century_eq (c := c) (t := 1461 * q + 365 * j + doy) (by omega) (by omega)
  have hcycle : (36524 * c + (1461 * q + 365 * j + doy)) / 1460 =
      25 * c + q + (24 * c + q + 365 * j + doy) / 1460 := by
    omega
  -- The quotient by 1460 is one too great only on late days of a cycle's last year.
  have hlate : (24 * c + q + 365 * j + doy) / 1460 ≤ doy ∧
      doy < 365 + (24 * c + q + 365 * j + doy) / 1460 := by
    omega
  rw [hstart, Nat.add_assoc, yearOfEra, hcentury, hcycle]
  generalize (24 * c + q + 365 * j + doy) / 1460 = late at *
  generalize (36524 * c + (1461 * q + 365 * j + doy)) / 146096 = last at *
  omega

/-- The month is found for each day of a year. -/
theorem monthFromMarch_eq {mp k : Nat} (h : monthStart mp + k < monthStart (mp + 1)) :
    monthFromMarch (monthStart mp + k) = mp := by
  unfold monthStart monthFromMarch at *
  omega

/-- The month of a date from the month counted from March. -/
theorem Valid.month_eq (h : d.Valid) :
    (if d.marchMonth < 10 then d.marchMonth + 3 else d.marchMonth - 9) = d.month := by
  have hpos := h.month_pos
  have hle := h.month_le
  unfold marchMonth
  by_cases hm : d.month ≤ 2
  · rw [if_pos hm, if_neg (by omega)]
    omega
  · rw [if_neg hm, if_pos (by omega)]
    omega

/-- The year of a date from the year that starts in March. -/
theorem marchYear_add (hyear : 0 < d.year) :
    d.marchYear + (if d.month ≤ 2 then 1 else 0) = d.year := by
  unfold marchYear
  split
  · exact Nat.sub_add_cancel hyear
  · exact Nat.add_zero _

/-- The day of a date from the day of the year that starts in March. -/
theorem Valid.marchDay_sub (h : d.Valid) :
    d.marchDay - (153 * d.marchMonth + 2) / 5 + 1 = d.day := by
  have hpos := h.day_pos
  unfold marchDay monthStart
  omega

/-- **The formula finds each date from its number.** -/
theorem Valid.ofDays_eq (h : d.Valid) (hyear : 0 < d.year) {n : Nat}
    (hn : n + 719468 = d.number) : ofDays n = d := by
  obtain ⟨era, y, hy, hmarch⟩ : ∃ era y, y < 400 ∧ d.marchYear = 400 * era + y :=
    ⟨d.marchYear / 400, d.marchYear % 400, Nat.mod_lt _ (by decide), (Nat.div_add_mod _ _).symm⟩
  have hlt := h.number_lt hyear
  rw [hmarch, Nat.add_assoc, daysBefore_era, daysBefore_era] at hlt
  have hday : daysBefore y + d.marchDay < daysBefore (y + 1) := by omega
  have hbound : daysBefore y + d.marchDay < eraDays := by
    have hmono : daysBefore (y + 1) ≤ daysBefore 400 := by
      unfold daysBefore
      omega
    exact Nat.lt_of_lt_of_le hday hmono
  rw [number, hmarch, daysBefore_era, Nat.add_assoc] at hn
  have hdiv : (n + 719468) / eraDays = era := by
    rw [hn, Nat.mul_add_div (by decide), Nat.div_eq_of_lt hbound, Nat.add_zero]
  have hmod : (n + 719468) % eraDays = daysBefore y + d.marchDay := by
    rw [hn, Nat.mul_add_mod, Nat.mod_eq_of_lt hbound]
  have hyearOfEra := yearOfEra_eq hy hday
  have hdayOfYear : dayOfYear (daysBefore y + d.marchDay) = d.marchDay := by
    rw [dayOfYear, hyearOfEra]
    unfold daysBefore
    omega
  have hmonth : monthFromMarch d.marchDay = d.marchMonth :=
    monthFromMarch_eq h.marchDay_lt_monthStart
  rw [ofDays, hdiv, hmod, hyearOfEra, hdayOfYear, hmonth, h.month_eq, Nat.add_comm y,
    Nat.mul_comm era, ← hmarch, marchYear_add hyear, h.marchDay_sub]

/-! ## Counting days -/

/-- The days from the first of March of the year 0 to the epoch. -/
theorem number_epoch : epoch.number = 719468 := by
  simp [number, epoch, marchYear, marchDay, marchMonth, daysBefore, monthStart]

/-- Counting from the epoch goes through dates whose numbers count the days. -/
theorem number_iterate (n : Nat) :
    (next^[n] epoch).Valid ∧ 0 < (next^[n] epoch).year ∧
      (next^[n] epoch).number = n + 719468 := by
  induction n with
  | zero =>
    rw [Nat.zero_add]
    exact ⟨⟨by decide, by decide, by decide, by decide⟩, by decide, number_epoch⟩
  | succ n ih =>
    obtain ⟨hvalid, hyear, hnumber⟩ := ih
    rw [Function.iterate_succ_apply']
    refine ⟨hvalid.next, ?_, (hvalid.number_next hyear).trans (by omega)⟩
    unfold next
    split
    · exact hyear
    · split
      · exact hyear
      · exact Nat.succ_pos _

/-- **The formula gives the date that counting the days one by one arrives at.** -/
theorem ofDays_eq_iterate (n : Nat) : ofDays n = next^[n] epoch :=
  let ⟨hvalid, hyear, hnumber⟩ := number_iterate n
  hvalid.ofDays_eq hyear hnumber.symm

/-- Every day has a date that the calendar has. -/
theorem valid_ofDays (n : Nat) : (ofDays n).Valid := by
  rw [ofDays_eq_iterate]
  exact (number_iterate n).1

/-- Different days have different dates. -/
theorem ofDays_injective {m n : Nat} (h : ofDays m = ofDays n) : m = n := by
  have hm := (number_iterate m).2.2
  have hn := (number_iterate n).2.2
  rw [← ofDays_eq_iterate, h, ofDays_eq_iterate, hn] at hm
  omega

end CivilDate

end Http

end RpcDaemon
