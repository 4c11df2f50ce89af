import Mathlib.Tactic.Common
import Mathlib.Tactic.SplitIfs

/-! The proleptic Gregorian calendar, by days counted from 1970-01-01. -/
namespace NestStorageExample.Dates

def isLeap (year : Int) : Bool := year % 4 == 0 && (year % 100 != 0 || year % 400 == 0)

def daysInYear (year : Int) : Int := if isLeap year then 366 else 365

/-- The number of the first day of a year. -/
def dayFromYear (year : Int) : Int :=
  365 * (year - 1970) + (year - 1969) / 4 - (year - 1901) / 100 + (year - 1601) / 400

/-- The year that a day lies in: an estimate by the mean length of a year, which is off by one
at most. -/
def yearFromDay (day : Int) : Int :=
  let estimate := 1970 + day * 400 / 146097
  if day < dayFromYear estimate then estimate - 1
  else if dayFromYear (estimate + 1) ≤ day then estimate + 1
  else estimate

theorem isLeap_iff (year : Int) : isLeap year = true ↔ year % 4 = 0 ∧ (year % 100 ≠ 0 ∨ year % 400 = 0) := by
  simp [isLeap]

theorem dayFromYear_succ (year : Int) : dayFromYear (year + 1) = dayFromYear year + daysInYear year := by
  have hleap := isLeap_iff year
  unfold daysInYear dayFromYear
  split_ifs with h
  · have hyear := hleap.mp h
    omega
  · have hyear : ¬ (year % 4 = 0 ∧ (year % 100 ≠ 0 ∨ year % 400 = 0)) := fun hyear => h (hleap.mpr hyear)
    omega

theorem dayFromYear_mono {year year' : Int} (h : year ≤ year') : dayFromYear year ≤ dayFromYear year' := by
  unfold dayFromYear
  omega

theorem yearFromDay_spec (day : Int) :
    dayFromYear (yearFromDay day) ≤ day ∧ day < dayFromYear (yearFromDay day + 1) := by
  unfold yearFromDay
  dsimp only
  split_ifs with hlow hhigh
  · refine ⟨?_, by rwa [Int.sub_add_cancel]⟩
    unfold dayFromYear
    omega
  · refine ⟨hhigh, ?_⟩
    unfold dayFromYear
    omega
  · omega

/-- A day lies in one year only. -/
theorem yearFromDay_eq {day year : Int} (hlow : dayFromYear year ≤ day) (hhigh : day < dayFromYear (year + 1)) :
    yearFromDay day = year := by
  obtain ⟨hlow', hhigh'⟩ := yearFromDay_spec day
  rcases Int.lt_trichotomy (yearFromDay day) year with h | h | h
  · have hmono := dayFromYear_mono (show yearFromDay day + 1 ≤ year by omega)
    omega
  · exact h
  · have hmono := dayFromYear_mono (show year + 1 ≤ yearFromDay day by omega)
    omega

/-! A year is cut into months, and a position in it is a month and a position in that one. -/

/-- The piece that position `n` lies in, and the position there. -/
def locate : List Nat → Nat → Nat × Nat
  | [], n => (0, n)
  | length :: lengths, n =>
    if n < length then (0, n) else ((locate lengths (n - length)).1 + 1, (locate lengths (n - length)).2)

/-- Where a piece starts. -/
def startOf : List Nat → Nat → Nat
  | [], _ => 0
  | _ :: _, 0 => 0
  | length :: lengths, i + 1 => length + startOf lengths i

theorem locate_spec {lengths : List Nat} {n : Nat} (h : n < startOf lengths lengths.length) :
    (locate lengths n).1 < lengths.length ∧ (locate lengths n).2 < lengths.getD (locate lengths n).1 0 ∧
      startOf lengths (locate lengths n).1 + (locate lengths n).2 = n := by
  induction lengths generalizing n with
  | nil => exact absurd h (Nat.not_lt_zero n)
  | cons length lengths ih =>
    rw [locate]
    split
    · rename_i hlt
      exact ⟨Nat.succ_pos _, hlt, Nat.zero_add n⟩
    · rw [List.length_cons, startOf] at h
      obtain ⟨hindex, hrest, hplace⟩ := ih (show n - length < startOf lengths lengths.length by omega)
      refine ⟨Nat.succ_lt_succ hindex, hrest, ?_⟩
      rw [startOf]
      omega

/-- A position has one place only. -/
theorem locate_eq {lengths : List Nat} {i rest : Nat} (hrest : rest < lengths.getD i 0) :
    locate lengths (startOf lengths i + rest) = (i, rest) := by
  induction lengths generalizing i with
  | nil => exact absurd hrest (Nat.not_lt_zero rest)
  | cons length lengths ih =>
    cases i with
    | zero =>
      have hlength : rest < length := hrest
      rw [startOf, Nat.zero_add, locate, if_pos hlength]
    | succ i =>
      have hposition : length + startOf lengths i + rest - length = startOf lengths i + rest := by omega
      rw [startOf, locate, if_neg (by omega), hposition, ih hrest]

theorem startOf_lt_of_lt_getD {lengths : List Nat} {i rest : Nat} (hrest : rest < lengths.getD i 0) :
    startOf lengths i + rest < startOf lengths lengths.length := by
  induction lengths generalizing i with
  | nil => exact absurd hrest (Nat.not_lt_zero rest)
  | cons length lengths ih =>
    cases i with
    | zero =>
      have hlength : rest < length := hrest
      rw [List.length_cons, startOf, startOf]
      omega
    | succ i =>
      have hlt := ih hrest
      rw [List.length_cons, startOf, startOf]
      omega

def monthLengths (year : Int) : List Nat :=
  [31, if isLeap year then 29 else 28, 31, 30, 31, 30, 31, 31, 30, 31, 30, 31]

/-- The days of a month, which counts from 1. -/
def daysInMonth (year : Int) (month : Nat) : Nat := (monthLengths year).getD (month - 1) 0

theorem startOf_monthLengths (year : Int) :
    (startOf (monthLengths year) (monthLengths year).length : Int) = daysInYear year := by
  unfold monthLengths daysInYear
  split_ifs <;> rfl

/-- A year, a month from 1 to 12 and a day of it. -/
structure CivilDate where
  year : Int
  month : Nat
  day : Nat
  deriving DecidableEq

structure CivilDate.Valid (date : CivilDate) : Prop where
  month : 1 ≤ date.month ∧ date.month ≤ 12
  day : 1 ≤ date.day ∧ date.day ≤ daysInMonth date.year date.month

/-- The number of the day `date.day` days into its month, also where the month is shorter. -/
def makeDay (date : CivilDate) : Int :=
  dayFromYear date.year + startOf (monthLengths date.year) (date.month - 1) + (date.day - 1 : Nat)

def civilFromDay (day : Int) : CivilDate :=
  let year := yearFromDay day
  let place := locate (monthLengths year) (day - dayFromYear year).toNat
  ⟨year, place.1 + 1, place.2 + 1⟩

/-- Where a day lies in its year. -/
theorem day_place (day : Int) : ∃ n : Nat, (day - dayFromYear (yearFromDay day)).toNat = n ∧
    dayFromYear (yearFromDay day) + n = day ∧
      n < startOf (monthLengths (yearFromDay day)) (monthLengths (yearFromDay day)).length := by
  obtain ⟨hlow, hhigh⟩ := yearFromDay_spec day
  rw [dayFromYear_succ, ← startOf_monthLengths] at hhigh
  exact ⟨_, rfl, by omega, by omega⟩

theorem civilFromDay_valid (day : Int) : (civilFromDay day).Valid := by
  obtain ⟨n, hplace, -, hlt⟩ := day_place day
  obtain ⟨hindex, hrest, -⟩ := locate_spec hlt
  unfold civilFromDay
  dsimp only
  rw [hplace]
  exact ⟨⟨Nat.succ_pos _, hindex⟩, ⟨Nat.succ_pos _, hrest⟩⟩

/-- Every day has a date. -/
theorem makeDay_civilFromDay (day : Int) : makeDay (civilFromDay day) = day := by
  obtain ⟨n, hplace, hday, hlt⟩ := day_place day
  obtain ⟨-, -, hsum⟩ := locate_spec hlt
  unfold civilFromDay makeDay
  dsimp only
  rw [hplace, Nat.add_sub_cancel, Nat.add_sub_cancel]
  omega

/-- A valid date is the date of its day. -/
theorem civilFromDay_makeDay {date : CivilDate} (h : date.Valid) : civilFromDay (makeDay date) = date := by
  obtain ⟨⟨hmonth, -⟩, hday, hlast⟩ := h
  have hrest : date.day - 1 < (monthLengths date.year).getD (date.month - 1) 0 := by
    unfold daysInMonth at hlast
    omega
  have hlt := startOf_lt_of_lt_getD hrest
  have hyear : yearFromDay (makeDay date) = date.year := by
    apply yearFromDay_eq
    · unfold makeDay
      omega
    · rw [dayFromYear_succ, ← startOf_monthLengths]
      unfold makeDay
      omega
  have hplace : (makeDay date - dayFromYear date.year).toNat =
      startOf (monthLengths date.year) (date.month - 1) + (date.day - 1) := by
    unfold makeDay
    omega
  rw [civilFromDay, hyear, hplace, locate_eq hrest, Nat.sub_add_cancel hmonth, Nat.sub_add_cancel hday]

end NestStorageExample.Dates
