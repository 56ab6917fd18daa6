import Mathlib.Dynamics.PeriodicPts.Defs
import RpcDaemon.Proofs.Http.Calendar
import RpcDaemon.Proofs.Text.Numeral
import RpcDaemon.Proofs.Text.Separator

/-!
# The text of dates

The date of a reply names the weekday, the civil date and the time of day of a moment, all three
found by counting from the start of 1970, a Thursday. The text says these three in one way only, so
that different seconds have different texts. Main statement: `date_gregorian`.
-/

namespace RpcDaemon

namespace Http

/-! ## Weekdays -/

/-- A day of the week. -/
inductive Weekday where
  | monday
  | tuesday
  | wednesday
  | thursday
  | friday
  | saturday
  | sunday
deriving DecidableEq

namespace Weekday

/-- The day after. -/
def next : Weekday → Weekday
  | monday => tuesday
  | tuesday => wednesday
  | wednesday => thursday
  | thursday => friday
  | friday => saturday
  | saturday => sunday
  | sunday => monday

/-- The name of a day in dates. -/
def name : Weekday → String
  | monday => "Mon"
  | tuesday => "Tue"
  | wednesday => "Wed"
  | thursday => "Thu"
  | friday => "Fri"
  | saturday => "Sat"
  | sunday => "Sun"

/-- The names have three letters, and are different. -/
theorem length_name (w : Weekday) : w.name.toList.length = 3 := by
  cases w <;> rfl

theorem name_injective {v w : Weekday} (h : v.name = w.name) : v = w := by
  revert h
  cases v <;> cases w <;> decide

/-- After seven days it is the same day again. -/
theorem isPeriodicPt_next (w : Weekday) : Function.IsPeriodicPt next 7 w := by
  cases w <;> rfl

end Weekday

/-- **The table of weekdays is that of the days from a Thursday on.** -/
theorem getElem?_weekdays (n : Nat) :
    weekdays[n % 7]? = some (Weekday.next^[n] .thursday).name := by
  rw [← (Weekday.isPeriodicPt_next .thursday).iterate_mod_apply n]
  have hlt : n % 7 < 7 := Nat.mod_lt _ (by decide)
  generalize n % 7 = i at hlt
  interval_cases i <;> rfl

/-! ## Months -/

/-- The name of a month in dates, counted from 1. -/
def monthName? : Nat → Option String
  | 1 => some "Jan"
  | 2 => some "Feb"
  | 3 => some "Mar"
  | 4 => some "Apr"
  | 5 => some "May"
  | 6 => some "Jun"
  | 7 => some "Jul"
  | 8 => some "Aug"
  | 9 => some "Sep"
  | 10 => some "Oct"
  | 11 => some "Nov"
  | 12 => some "Dec"
  | _ => none

/-- Only the months of a year have names. -/
theorem monthName?_of_lt {month : Nat} (h : 12 < month) : monthName? month = none := by
  obtain ⟨n, rfl⟩ : ∃ n, month = n + 13 := ⟨month - 13, by omega⟩
  rfl

/-- **The table of months is that of the months from the first one on.** -/
theorem getElem?_months {month : Nat} (hpos : 0 < month) :
    months[month - 1]? = monthName? month := by
  by_cases hle : month ≤ 12
  · interval_cases month <;> rfl
  · rw [monthName?_of_lt (Nat.lt_of_not_le hle), List.getElem?_eq_none_iff]
    show 12 ≤ month - 1
    omega

/-- Every month of a date has a name. -/
theorem CivilDate.Valid.exists_monthName {d : CivilDate} (h : d.Valid) :
    ∃ name, monthName? d.month = some name := by
  have hpos := h.month_pos
  have hle := h.month_le
  have hlt : d.month - 1 < months.length := by
    show d.month - 1 < 12
    omega
  rw [← getElem?_months hpos]
  exact ⟨_, List.getElem?_eq_getElem hlt⟩

theorem mem_range_of_monthName? {month : Nat} {name : String} (h : monthName? month = some name) :
    month ∈ List.range 13 := by
  rw [List.mem_range]
  by_contra hlt
  rw [monthName?_of_lt (by omega)] at h
  cases h

/-- The names have three letters, and are different. -/
theorem length_monthName {month : Nat} {name : String} (h : monthName? month = some name) :
    name.toList.length = 3 := by
  have hall : ∀ m ∈ List.range 13, ∀ n ∈ monthName? m, n.toList.length = 3 := by decide
  exact hall month (mem_range_of_monthName? h) name h

theorem monthName?_injective {m m' : Nat} {name name' : String} (h : monthName? m = some name)
    (h' : monthName? m' = some name') (hname : name = name') : m = m' := by
  have hall : ∀ m ∈ List.range 13, ∀ m' ∈ List.range 13,
      (monthName? m).isSome → monthName? m = monthName? m' → m = m' := by decide
  refine hall m (mem_range_of_monthName? h) m' (mem_range_of_monthName? h') (by rw [h]; rfl) ?_
  rw [h, h', hname]

/-! ## What a date says -/

/-- The text writes the number `n` in two digits. -/
def TwoDigits (n : Nat) (cs : List Char) : Prop :=
  cs.length = 2 ∧ Numeral.nat? cs = some n

theorem twoDigits_padded {n : Nat} (h : n < 100) : TwoDigits n (Numeral.padded 2 n) :=
  ⟨Numeral.length_padded (by decide) h, Numeral.nat?_padded 2 n⟩

/-- The text of a weekday, a civil date and the seconds of a day, as in
`Sun, 06 Nov 1994 08:49:37 GMT`. -/
inductive DateText (w : Weekday) (d : CivilDate) : Nat → List Char → Prop where
  /-- The parts stand in this order; the year has no superfluous zeros. -/
  | intro {day hour minute second : List Char} {month : String} {h m s : Nat}
      (hday : TwoDigits d.day day) (hmonth : monthName? d.month = some month)
      (hhour : TwoDigits h hour) (hminute : TwoDigits m minute) (hsecond : TwoDigits s second)
      (hh : h < 24) (hm : m < 60) (hs : s < 60) :
      DateText w d (3600 * h + 60 * m + s)
        (w.name.toList ++ [',', ' '] ++ day ++ [' '] ++ month.toList ++ [' '] ++
          Numeral.ofNat d.year ++ [' '] ++ hour ++ [':'] ++ minute ++ [':'] ++ second ++
          " GMT".toList)

theorem TwoDigits.unique {m n : Nat} {cs cs' : List Char} (h : TwoDigits m cs)
    (h' : TwoDigits n cs') (hcs : cs = cs') : m = n := by
  have hread := h.2
  rw [hcs, h'.2] at hread
  exact (Option.some.inj hread).symm

/-- **A text says one weekday, one date and one time.** -/
theorem DateText.unique {w w' : Weekday} {d d' : CivilDate} {c c' : Nat} {cs : List Char}
    (h : DateText w d c cs) (h' : DateText w' d' c' cs) : w = w' ∧ d = d' ∧ c = c' := by
  obtain ⟨cs', htext⟩ : ∃ cs', cs = cs' := ⟨cs, rfl⟩
  rw [htext] at h'
  cases h with
  | intro hday hmonth hhour hminute hsecond hh hm hs =>
    cases h' with
    | intro hday' hmonth' hhour' hminute' hsecond' hh' hm' hs' =>
      -- All parts but the year have a length of their own, and the year ends at a blank.
      have hspace : ∀ n, ' ' ∉ Numeral.ofNat n := Numeral.notMem_ofNat (by decide)
      simp only [List.append_assoc, List.cons_append, List.nil_append] at htext
      obtain ⟨hw, htext⟩ :=
        (append_cons_inj_of_length (w.length_name.trans w'.length_name.symm)).mp htext
      obtain ⟨hd, htext⟩ :=
        (append_cons_inj_of_length (hday.1.trans hday'.1.symm)).mp (List.cons.inj htext).2
      have hletters := (length_monthName hmonth).trans (length_monthName hmonth').symm
      obtain ⟨hname, htext⟩ := (append_cons_inj_of_length hletters).mp htext
      obtain ⟨hyear, htext⟩ :=
        (append_cons_inj_of_notMem (hspace d.year) (hspace d'.year)).mp htext
      obtain ⟨hhr, htext⟩ :=
        (append_cons_inj_of_length (hhour.1.trans hhour'.1.symm)).mp htext
      obtain ⟨hmin, htext⟩ :=
        (append_cons_inj_of_length (hminute.1.trans hminute'.1.symm)).mp htext
      have hsec := List.append_cancel_right htext
      have hdate : d = d' := by
        have hyears := Numeral.ofNat_injective hyear
        have hmonths := monthName?_injective hmonth hmonth' (String.toList_inj.mp hname)
        have hdays := hday.unique hday' hd
        cases d
        cases d'
        rw [CivilDate.mk.injEq]
        exact ⟨hyears, hmonths, hdays⟩
      refine ⟨Weekday.name_injective (String.toList_inj.mp hw), hdate, ?_⟩
      rw [hhour.unique hhour' hhr, hminute.unique hminute' hmin, hsecond.unique hsecond' hsec]

/-! ## The date of a moment -/

/-- A date of a reply says what counting from the start of 1970 arrives at. -/
theorem dateText_date (secs : Nat) :
    DateText (Weekday.next^[secs / 86400] .thursday)
      (CivilDate.next^[secs / 86400] CivilDate.epoch) (secs % 86400) (date secs).toList := by
  have hvalid := CivilDate.valid_ofDays (secs / daySeconds)
  obtain ⟨month, hmonth⟩ := hvalid.exists_monthName
  have hclock : secs % 86400 = 3600 * (secs % daySeconds / 3600) +
      60 * (secs % daySeconds % 3600 / 60) + secs % daySeconds % 60 := by
    unfold daySeconds
    omega
  have hday : (CivilDate.ofDays (secs / daySeconds)).day < 100 :=
    Nat.lt_of_le_of_lt (Nat.le_trans hvalid.day_le (CivilDate.monthLength_le _ _)) (by decide)
  have hhour : secs % daySeconds / 3600 < 24 := by
    unfold daySeconds
    omega
  have hminute : secs % daySeconds % 3600 / 60 < 60 := by
    omega
  have hsecond : secs % daySeconds % 60 < 60 := Nat.mod_lt _ (by decide)
  have hchars : (date secs).toList = dateChars secs := String.toList_ofList
  rw [← CivilDate.ofDays_eq_iterate, hclock, hchars]
  unfold dateChars
  dsimp only
  rw [List.getD_eq_getElem?_getD, getElem?_weekdays, List.getD_eq_getElem?_getD,
    getElem?_months hvalid.month_pos, hmonth]
  exact .intro (twoDigits_padded hday) hmonth
    (twoDigits_padded (by omega)) (twoDigits_padded (by omega)) (twoDigits_padded (by omega))
    hhour hminute hsecond

/-- **The date of a reply is that of the Gregorian calendar.** It says the civil date that counting
days from the first of January 1970 arrives at, which the calendar has, the weekday that counting
from a Thursday arrives at, and the time of day. Different seconds have different texts, and neither
table of names is read past its end. -/
theorem date_gregorian (s t : Nat) :
    (CivilDate.next^[s / 86400] CivilDate.epoch).Valid ∧
      DateText (Weekday.next^[s / 86400] .thursday)
        (CivilDate.next^[s / 86400] CivilDate.epoch) (s % 86400) (date s).toList ∧
      (date s = date t ↔ s = t) ∧
      s / daySeconds % 7 < weekdays.length ∧
      0 < (CivilDate.ofDays (s / daySeconds)).month ∧
      (CivilDate.ofDays (s / daySeconds)).month - 1 < months.length := by
  have hvalid := CivilDate.valid_ofDays (s / daySeconds)
  have hmonth : (CivilDate.ofDays (s / daySeconds)).month - 1 < 12 := by
    have := hvalid.month_le
    omega
  refine ⟨?_, dateText_date s, ⟨fun h => ?_, fun h => by rw [h]⟩, Nat.mod_lt _ (by decide),
    hvalid.month_pos, hmonth⟩
  · rw [← CivilDate.ofDays_eq_iterate]
    exact hvalid
  · have ht := dateText_date t
    rw [← h] at ht
    obtain ⟨-, hdate, hclock⟩ := (dateText_date s).unique ht
    rw [← CivilDate.ofDays_eq_iterate, ← CivilDate.ofDays_eq_iterate] at hdate
    have hday := CivilDate.ofDays_injective hdate
    omega

/-- The moment that RFC 1123 gives as its example. -/
example : date 784111777 = "Sun, 06 Nov 1994 08:49:37 GMT" := by decide

end Http

end RpcDaemon
