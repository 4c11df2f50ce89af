import NestStorageExample.Dates.DateTexts

/-! The text that `toISOString` writes and the time that `new Date` reads from it, over the
whole range of dates. -/
namespace NestStorageExample.Dates
open Text

/-- `-MM-DDTHH:mm:ss.sssZ`, which follows the year. -/
def isoRest : Layout :=
  [.sign hyphen, .digits 2, .sign hyphen, .digits 2, .sign 0x54, .digits 2, .sign 0x3A, .digits 2, .sign 0x3A,
    .digits 2, .sign 0x2E, .digits 3, .sign 0x5A]

def isoLayout : Layout := .digits 4 :: isoRest

def expandedLayout (yearSign : CodeUnit) : Layout := .sign yearSign :: .digits 6 :: isoRest

/-- The time of these groups, a time value or none. -/
def isoTime (negative : Bool) : List JsString → Option Int
  | [year, month, day, hour, minute, second, ms] =>
    let years : Int := readDecimal year
    let d : DateTime := ⟨⟨if negative then -years else years, readDecimal month, readDecimal day⟩, readDecimal hour,
      readDecimal minute, readDecimal second⟩
    let time := 1000 * d.seconds + readDecimal ms
    if d.Accepted ∧ (d.hour = 24 → readDecimal ms = 0) ∧ ¬ (negative = true ∧ years = 0) ∧
        -maxTime ≤ time ∧ time ≤ maxTime then some time
    else none
  | _ => none

/-- `new Date(s).getTime()` on a text of this form; the other texts that it knows are left out. -/
def dateTimeParse (s : JsString) : Option Int :=
  if s.head? = some 0x2B then ((expandedLayout 0x2B).read s).bind (isoTime false)
  else if s.head? = some hyphen then ((expandedLayout hyphen).read s).bind (isoTime true)
  else (isoLayout.read s).bind (isoTime false)

section RoundTrip
variable {time : Int}

/-- The year fits into six digits. -/
theorem natAbs_year_lt (h : -maxTime ≤ time ∧ time ≤ maxTime) :
    (dateTimeOf (time / 1000)).date.year.natAbs < 10 ^ 6 := by
  have hspec := yearFromDay_spec (time / 1000 / 86400)
  obtain ⟨hlow, hhigh⟩ := h
  have hmax : maxTime = 8640000000000000 := rfl
  change (yearFromDay (time / 1000 / 86400)).natAbs < 10 ^ 6
  rcases lt_or_ge (yearFromDay (time / 1000 / 86400)) (-300000) with hless | hmore
  · have hmono := dayFromYear_mono (show yearFromDay (time / 1000 / 86400) + 1 ≤ -300000 by omega)
    have hday : dayFromYear (-300000) = -110292278 := rfl
    omega
  rcases lt_or_ge 300000 (yearFromDay (time / 1000 / 86400)) with hmore' | hless'
  · have hmono := dayFromYear_mono (show 300001 ≤ yearFromDay (time / 1000 / 86400) by omega)
    have hday : dayFromYear 300001 = 108853588 := rfl
    omega
  · omega

def isoGroups (width : Nat) (time : Int) : List JsString :=
  let d := dateTimeOf (time / 1000)
  [fixedDecimal width d.date.year.natAbs, fixedDecimal 2 d.date.month, fixedDecimal 2 d.date.day,
    fixedDecimal 2 d.hour, fixedDecimal 2 d.minute, fixedDecimal 2 d.second, fixedDecimal 3 (time % 1000).toNat]

theorem isoGroups_fits (width : Nat) (time : Int) :
    List.Forall₂ IsGroup [width, 2, 2, 2, 2, 2, 3] (isoGroups width time) := by
  repeat' apply List.Forall₂.cons (isGroup_fixedDecimal _ _)
  exact List.Forall₂.nil

/-- The groups stand for the time they are taken from. -/
theorem isoTime_isoGroups (h : -maxTime ≤ time ∧ time ≤ maxTime) {width : Nat} {negative : Bool}
    (hwidth : (dateTimeOf (time / 1000)).date.year.natAbs < 10 ^ width)
    (hsign : negative = true ↔ (dateTimeOf (time / 1000)).date.year < 0) :
    isoTime negative (isoGroups width time) = some time := by
  have hvalid := dateTimeOf_valid (time / 1000)
  have hseconds := seconds_dateTimeOf (time / 1000)
  obtain ⟨⟨⟨year, month, day⟩, hour, minute, second⟩, hd⟩ : ∃ d, dateTimeOf (time / 1000) = d := ⟨_, rfl⟩
  have hdays := daysInMonth_le year month
  rw [hd] at hvalid hseconds hwidth hsign
  obtain ⟨⟨hmonth, hday⟩, hhour, hminute, hsecond⟩ := hvalid
  dsimp only at hmonth hday hhour hminute hsecond hwidth hsign
  have hms : (time % 1000).toNat < 10 ^ 3 := by omega
  rw [isoGroups, hd, isoTime]
  dsimp only
  rw [readDecimal_fixedDecimal hwidth, readDecimal_fixedDecimal (show month < 10 ^ 2 by omega),
    readDecimal_fixedDecimal (show day < 10 ^ 2 by omega), readDecimal_fixedDecimal (show hour < 10 ^ 2 by omega),
    readDecimal_fixedDecimal (show minute < 10 ^ 2 by omega), readDecimal_fixedDecimal (show second < 10 ^ 2 by omega),
    readDecimal_fixedDecimal hms]
  have hyear : (if negative = true then -(year.natAbs : Int) else year.natAbs) = year := by
    split
    · have := hsign.mp ‹_›
      omega
    · have hnot : ¬ year < 0 := fun hlt => absurd (hsign.mpr hlt) ‹_›
      omega
  have htime : 1000 * (time / 1000) + ((time % 1000).toNat : Int) = time := by omega
  rw [hyear, hseconds, htime, if_pos]
  refine ⟨?_, fun h24 => by omega, ?_, h⟩
  · exact ⟨hmonth, ⟨hday.1, hday.2.trans hdays⟩, hminute, hsecond, Or.inl hhour⟩
  · rintro ⟨hnegative, hzero⟩
    have := hsign.mp hnegative
    omega

theorem isoText_eq_fill (time : Int) : isoText time =
    if 0 ≤ (dateTimeOf (time / 1000)).date.year ∧ (dateTimeOf (time / 1000)).date.year ≤ 9999 then
      isoLayout.fill (isoGroups 4 time)
    else (expandedLayout (if (dateTimeOf (time / 1000)).date.year < 0 then hyphen else 0x2B)).fill
      (isoGroups 6 time) := by
  unfold isoText isoYear
  dsimp only
  split
  · rename_i hyear
    have htoNat : (dateTimeOf (time / 1000)).date.year.toNat = (dateTimeOf (time / 1000)).date.year.natAbs := by omega
    rw [htoNat]
    simp [isoGroups, isoLayout, isoRest, Layout.fill]
  · simp [isoGroups, expandedLayout, isoRest, Layout.fill]

theorem head?_fill_digits (width : Nat) (layout : Layout) (groups : List JsString) {group : JsString}
    (hgroup : IsGroup (width + 1) group) {u : CodeUnit} (hu : isDigit u = false) :
    (Layout.fill (.digits (width + 1) :: layout) (group :: groups)).head? ≠ some u := by
  obtain ⟨hlength, hdigits⟩ := hgroup
  cases group with
  | nil => cases hlength
  | cons first group =>
    rw [Layout.fill, List.headD_cons, List.cons_append, List.head?_cons, ne_eq, Option.some.injEq]
    rintro rfl
    rw [List.all_cons, Bool.and_eq_true] at hdigits
    rw [hdigits.1] at hu
    cases hu

/-- What `toISOString` writes is read as the time it was written for. -/
theorem dateTimeParse_isoText (h : -maxTime ≤ time ∧ time ≤ maxTime) : dateTimeParse (isoText time) = some time := by
  have hwide := natAbs_year_lt h
  rw [isoText_eq_fill]
  split
  · rename_i hyear
    have hfits : isoLayout.Fits (isoGroups 4 time) := isoGroups_fits 4 time
    have hhead {u : CodeUnit} (hu : isDigit u = false) : (isoLayout.fill (isoGroups 4 time)).head? ≠ some u :=
      head?_fill_digits 3 isoRest _ (isGroup_fixedDecimal 4 _) hu
    rw [dateTimeParse, if_neg (hhead (by decide)), if_neg (hhead (by decide)), Layout.read_fill hfits, Option.bind_some]
    exact isoTime_isoGroups h (by omega) (by simp; omega)
  · rename_i hyear
    split
    · rename_i hnegative
      have hfits : (expandedLayout hyphen).Fits (isoGroups 6 time) := isoGroups_fits 6 time
      rw [dateTimeParse, if_neg (by simp [expandedLayout, Layout.fill, hyphen]),
        if_pos (by simp [expandedLayout, Layout.fill]), Layout.read_fill hfits, Option.bind_some]
      exact isoTime_isoGroups h hwide (by simp [hnegative])
    · rename_i hpositive
      have hfits : (expandedLayout 0x2B).Fits (isoGroups 6 time) := isoGroups_fits 6 time
      rw [dateTimeParse, if_pos (by simp [expandedLayout, Layout.fill]), Layout.read_fill hfits, Option.bind_some]
      exact isoTime_isoGroups h hwide (by simp; omega)

end RoundTrip

end NestStorageExample.Dates
