import Mathlib.Data.Rat.Floor
import NestStorageExample.Dates.Calendar
import NestStorageExample.Text.Layouts

/-! Points in time, counted in seconds or milliseconds from the start of 1970 in UTC, and their
texts as a JavaScript `Date` reads and writes them. -/
namespace NestStorageExample.Dates
open Text

structure DateTime where
  date : CivilDate
  hour : Nat
  minute : Nat
  second : Nat
  deriving DecidableEq

structure DateTime.Valid (d : DateTime) : Prop where
  date : d.date.Valid
  hour : d.hour < 24
  minute : d.minute < 60
  second : d.second < 60

/-- Every field has a text of its width. -/
structure DateTime.Narrow (d : DateTime) : Prop where
  year : 0 ≤ d.date.year ∧ d.date.year < 10 ^ 4
  month : d.date.month < 10 ^ 2
  day : d.date.day < 10 ^ 2
  hour : d.hour < 10 ^ 2
  minute : d.minute < 10 ^ 2
  second : d.second < 10 ^ 2

/-- What lies past the end of a month or a day is carried over. -/
def DateTime.seconds (d : DateTime) : Int :=
  86400 * makeDay d.date + (3600 * d.hour + 60 * d.minute + d.second : Nat)

def dateTimeOf (t : Int) : DateTime :=
  ⟨civilFromDay (t / 86400), (t % 86400).toNat / 3600, (t % 86400).toNat / 60 % 60, (t % 86400).toNat % 60⟩

theorem dateTimeOf_valid (t : Int) : (dateTimeOf t).Valid := by
  refine ⟨civilFromDay_valid _, ?_, Nat.mod_lt _ (by decide), Nat.mod_lt _ (by decide)⟩
  unfold dateTimeOf
  dsimp only
  omega

theorem seconds_dateTimeOf (t : Int) : (dateTimeOf t).seconds = t := by
  unfold DateTime.seconds dateTimeOf
  dsimp only
  rw [makeDay_civilFromDay]
  omega

/-- A valid date and time is the one of its instant. -/
theorem dateTimeOf_seconds {d : DateTime} (h : d.Valid) : dateTimeOf d.seconds = d := by
  obtain ⟨hdate, hhour, hminute, hsecond⟩ := h
  have hday : d.seconds / 86400 = makeDay d.date := by
    unfold DateTime.seconds
    omega
  have hrest : (d.seconds % 86400).toNat = 3600 * d.hour + 60 * d.minute + d.second := by
    unfold DateTime.seconds
    omega
  obtain ⟨date, hour, minute, second⟩ := d
  rw [dateTimeOf, hday, hrest, civilFromDay_makeDay hdate]
  dsimp only at hhour hminute hsecond ⊢
  simp only [DateTime.mk.injEq, true_and]
  omega

theorem le_of_year_nonneg {t : Int} (h : 0 ≤ (dateTimeOf t).date.year) : -62167219200 ≤ t := by
  have hyear := (yearFromDay_spec (t / 86400)).1
  have hfirst := dayFromYear_mono (show 0 ≤ yearFromDay (t / 86400) from h)
  have hzero : dayFromYear 0 = -719528 := rfl
  omega

theorem daysInMonth_le (year : Int) (month : Nat) : daysInMonth year month ≤ 31 := by
  have hlengths : ∀ length ∈ monthLengths year, length ≤ 31 := by
    unfold monthLengths
    split <;> decide
  rw [daysInMonth, List.getD_eq_getElem?_getD]
  cases hlength : (monthLengths year)[month - 1]? with
  | none => exact Nat.zero_le 31
  | some length => exact hlengths length (List.mem_of_getElem? hlength)

theorem DateTime.Valid.narrow {d : DateTime} (h : d.Valid) (hyear : 0 ≤ d.date.year ∧ d.date.year ≤ 9999) :
    d.Narrow := by
  have hdays := daysInMonth_le d.date.year d.date.month
  have hmonth := h.date.month
  have hday := h.date.day
  have hhour := h.hour
  have hminute := h.minute
  have hsecond := h.second
  constructor <;> omega

/-! Seconds with four digits for the year. -/

/-- `YYYYMMDDTHHMMSSZ` -/
def basicLayout : Layout :=
  [.digits 4, .digits 2, .digits 2, .sign 0x54, .digits 2, .digits 2, .digits 2, .sign 0x5A]

/-- `YYYY-MM-DDTHH:mm:ssZ` -/
def extendedLayout : Layout :=
  [.digits 4, .sign hyphen, .digits 2, .sign hyphen, .digits 2, .sign 0x54, .digits 2, .sign 0x3A, .digits 2,
    .sign 0x3A, .digits 2, .sign 0x5A]

def DateTime.groups (d : DateTime) : List JsString :=
  [fixedDecimal 4 d.date.year.toNat, fixedDecimal 2 d.date.month, fixedDecimal 2 d.date.day, fixedDecimal 2 d.hour,
    fixedDecimal 2 d.minute, fixedDecimal 2 d.second]

def readFields : List JsString → Option DateTime
  | [year, month, day, hour, minute, second] =>
    some ⟨⟨readDecimal year, readDecimal month, readDecimal day⟩, readDecimal hour, readDecimal minute,
      readDecimal second⟩
  | _ => none

def basicText (d : DateTime) : JsString := basicLayout.fill d.groups

theorem groups_fits (d : DateTime) : basicLayout.Fits d.groups := by
  repeat' apply List.Forall₂.cons (isGroup_fixedDecimal _ _)
  exact List.Forall₂.nil

theorem readFields_groups {d : DateTime} (h : d.Narrow) : readFields d.groups = some d := by
  obtain ⟨⟨year, month, day⟩, hour, minute, second⟩ := d
  obtain ⟨⟨hyear, hyear'⟩, hmonth, hday, hhour, hminute, hsecond⟩ := h
  rw [DateTime.groups, readFields, readDecimal_fixedDecimal hmonth, readDecimal_fixedDecimal hday,
    readDecimal_fixedDecimal hhour, readDecimal_fixedDecimal hminute, readDecimal_fixedDecimal hsecond,
    readDecimal_fixedDecimal (by omega), Int.toNat_of_nonneg hyear]

/-- Groups of the right widths are those of some fields. -/
theorem readFields_of_fits {groups : List JsString} (h : basicLayout.Fits groups) :
    ∃ d : DateTime, readFields groups = some d ∧ d.Narrow ∧ groups = d.groups := by
  obtain _ | ⟨hyear, _ | ⟨hmonth, _ | ⟨hday, _ | ⟨hhour, _ | ⟨hminute, _ | ⟨hsecond, _ | _⟩⟩⟩⟩⟩⟩ := h
  obtain ⟨hyear, hyear'⟩ := hyear.eq_fixedDecimal
  obtain ⟨hmonth, hmonth'⟩ := hmonth.eq_fixedDecimal
  obtain ⟨hday, hday'⟩ := hday.eq_fixedDecimal
  obtain ⟨hhour, hhour'⟩ := hhour.eq_fixedDecimal
  obtain ⟨hminute, hminute'⟩ := hminute.eq_fixedDecimal
  obtain ⟨hsecond, hsecond'⟩ := hsecond.eq_fixedDecimal
  have hyearInt := Int.ofNat_lt.mpr hyear'
  refine ⟨_, rfl, ⟨⟨Int.natCast_nonneg _, hyearInt⟩, hmonth', hday', hhour', hminute', hsecond'⟩, ?_⟩
  rw [DateTime.groups, Int.toNat_natCast, ← hyear, ← hmonth, ← hday, ← hhour, ← hminute, ← hsecond]

theorem basicText_injective {d d' : DateTime} (h : d.Narrow) (h' : d'.Narrow) (heq : basicText d = basicText d') :
    d = d' := by
  have hgroups := congrArg basicLayout.read heq
  rw [basicText, basicText, Layout.read_fill (groups_fits d), Layout.read_fill (groups_fits d'), Option.some.injEq]
    at hgroups
  have hfields := congrArg readFields hgroups
  rwa [readFields_groups h, readFields_groups h', Option.some.injEq] at hfields

/-- The fields that Node accepts: a day up to the 31st in every month, and 24:00:00 besides
the times of a day. -/
def DateTime.Accepted (d : DateTime) : Prop :=
  (1 ≤ d.date.month ∧ d.date.month ≤ 12) ∧ (1 ≤ d.date.day ∧ d.date.day ≤ 31) ∧ d.minute < 60 ∧ d.second < 60 ∧
    (d.hour < 24 ∨ d.hour = 24 ∧ d.minute = 0 ∧ d.second = 0)

instance (d : DateTime) : Decidable d.Accepted := inferInstanceAs (Decidable (_ ∧ _))

/-- `Date.parse(s)` on a text with these fields and a `Z`, in milliseconds; `none` is `NaN`. The
other texts that it knows are left out. -/
def dateParse (s : JsString) : Option Int :=
  ((extendedLayout.read s).bind readFields).bind fun d => if d.Accepted then some (1000 * d.seconds) else none

theorem dateParse_fill {d : DateTime} (h : d.Narrow) :
    dateParse (extendedLayout.fill d.groups) = if d.Accepted then some (1000 * d.seconds) else none := by
  have hread : extendedLayout.read (extendedLayout.fill d.groups) = some d.groups := Layout.read_fill (groups_fits d)
  rw [dateParse, hread, Option.bind_some, readFields_groups h, Option.bind_some]

theorem DateTime.Valid.accepted {d : DateTime} (h : d.Valid) : d.Accepted := by
  have hdays := daysInMonth_le d.date.year d.date.month
  have hday := h.date.day
  exact ⟨h.date.month, ⟨hday.1, by omega⟩, h.minute, h.second, Or.inl h.hour⟩

/-- What is accepted and no instant's date and time lies past the end of its month or day. -/
theorem valid_iff_of_accepted {d : DateTime} (h : d.Accepted) :
    d.Valid ↔ ¬ (daysInMonth d.date.year d.date.month < d.date.day ∨ d.hour = 24) := by
  obtain ⟨hmonth, hday, hminute, hsecond, hhour⟩ := h
  constructor
  · rintro ⟨⟨-, hday⟩, hhour, -, -⟩
    omega
  · intro hwithin
    exact ⟨⟨hmonth, hday.1, by omega⟩, by omega, hminute, hsecond⟩

/-! Dates as time values: milliseconds, and at most 100 million days off. -/

def maxTime : Int := 8640000000000000

/-- `new Date(value)`; `none` is the invalid date. -/
def newDate (value : ℚ) : Option Int :=
  if |value| ≤ maxTime then some (if 0 ≤ value then ⌊value⌋ else ⌈value⌉) else none

theorem newDate_intCast {n : Int} (h : -maxTime ≤ n ∧ n ≤ maxTime) : newDate n = some n := by
  have hrange : |(n : ℚ)| ≤ maxTime := by exact_mod_cast abs_le.mpr h
  rw [newDate, if_pos hrange, Int.floor_intCast, Int.ceil_intCast, ite_self]

theorem le_maxTime_of_newDate {value : ℚ} {time : Int} (h : newDate value = some time) : time ≤ maxTime := by
  rw [newDate] at h
  split at h
  · rename_i hrange
    obtain ⟨hlow, hhigh⟩ := abs_le.mp hrange
    rw [Option.some.injEq] at h
    rw [← h]
    split
    · exact Int.floor_le_iff.mpr (lt_of_le_of_lt hhigh (lt_add_one _))
    · exact Int.ceil_le.mpr hhigh
  · cases h

theorem neg_maxTime_le_of_newDate {value : ℚ} {time : Int} (h : newDate value = some time) : -maxTime ≤ time := by
  rw [newDate] at h
  split at h
  · rename_i hrange
    have hlow : ((-maxTime : ℤ) : ℚ) ≤ value := by exact_mod_cast (abs_le.mp hrange).1
    rw [Option.some.injEq] at h
    rw [← h]
    split
    · exact Int.le_floor.mpr hlow
    · exact_mod_cast hlow.trans (Int.le_ceil value)
  · cases h

/-- The year of an ISO text has a sign and six digits where four are too few. -/
def isoYear (year : Int) : JsString :=
  if 0 ≤ year ∧ year ≤ 9999 then fixedDecimal 4 year.toNat
  else (if year < 0 then hyphen else 0x2B) :: fixedDecimal 6 year.natAbs

/-- `toISOString()` at a time value. -/
def isoText (time : Int) : JsString :=
  let d := dateTimeOf (time / 1000)
  isoYear d.date.year ++ hyphen :: fixedDecimal 2 d.date.month ++ hyphen :: fixedDecimal 2 d.date.day ++
    0x54 :: fixedDecimal 2 d.hour ++ 0x3A :: fixedDecimal 2 d.minute ++ 0x3A :: fixedDecimal 2 d.second ++
    0x2E :: fixedDecimal 3 (time % 1000).toNat ++ [0x5A]

example : isoText 1783418400000 = js "2026-07-07T10:00:00.000Z" := by decide +kernel

end NestStorageExample.Dates
