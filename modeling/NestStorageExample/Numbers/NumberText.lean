import NestStorageExample.Numbers.Double
import NestStorageExample.Text.Json
import NestStorageExample.Text.Layouts
import NestStorageExample.Text.Whitespace

/-! `Number` of a text: blanks at its ends, a sign, a decimal literal with an exponent, or an
integer of another radix. -/
namespace NestStorageExample.Numbers
open Text

/-- The double nearest to `x`, with what is too large for one as an infinity. -/
def nearestNumber (x : ℚ) : JsNumber :=
  if |toDouble x| < 2 ^ 1024 then .finite (toDouble x) else .infinite (x < 0)

def negated : JsNumber → JsNumber
  | .finite value => .finite (-value)
  | .infinite negative => .infinite (!negative)
  | .nan => .nan

/-- The value of a digit, a letter standing for ten and more. -/
def digitValue (u : CodeUnit) : Option Nat :=
  if isDigit u then some (u.toNat - 0x30)
  else if 0x61 ≤ u.toNat ∧ u.toNat ≤ 0x7A then some (u.toNat - 0x57)
  else if 0x41 ≤ u.toNat ∧ u.toNat ≤ 0x5A then some (u.toNat - 0x37)
  else none

/-- The digits of an integer of that radix, behind its two code units. -/
def readRadix (radix : Nat) (digits : JsString) : JsNumber :=
  if digits ≠ [] ∧ digits.all (fun u => (digitValue u).any (· < radix)) then
    nearestNumber (digits.foldl (fun n u => radix * n + (digitValue u).getD 0) 0 : Nat)
  else .nan

/-- The sign in front of some digits, and what stands behind it. -/
def readSign (s : JsString) : Bool × JsString :=
  if s.head? = some hyphen then (true, s.tail) else if s.head? = some 0x2B then (false, s.tail) else (false, s)

/-- `e` or `E`, a sign and digits; nothing is no exponent. -/
def readExponent (s : JsString) : Option Int :=
  if s = [] then some 0
  else if s.head? = some 0x65 ∨ s.head? = some 0x45 then
    let (negative, digits) := readSign s.tail
    if digits ≠ [] ∧ digits.all isDigit then
      some (if negative then -(readDecimal digits : Int) else readDecimal digits)
    else none
  else none

/-- A decimal literal without a sign. -/
def readUnsigned (s : JsString) : JsNumber :=
  if s = js "Infinity" then .infinite false
  else
    let whole := s.takeWhile isDigit
    let rest := s.dropWhile isDigit
    let pointed := rest.head? = some 0x2E
    let fraction := if pointed then rest.tail.takeWhile isDigit else []
    let behind := if pointed then rest.tail.dropWhile isDigit else rest
    match readExponent behind with
    | some exponent =>
      if whole = [] ∧ fraction = [] then .nan
      else nearestNumber (readDecimal (whole ++ fraction) * 10 ^ (exponent - fraction.length))
    | none => .nan

/-- `Number(s)` -/
def numberOf (s : JsString) : JsNumber :=
  let text := trim s
  let mark := text.take 2
  if text = [] then .finite 0
  else if mark = js "0x" ∨ mark = js "0X" then readRadix 16 (text.drop 2)
  else if mark = js "0o" ∨ mark = js "0O" then readRadix 8 (text.drop 2)
  else if mark = js "0b" ∨ mark = js "0B" then readRadix 2 (text.drop 2)
  else if (readSign text).1 then negated (readUnsigned (readSign text).2) else readUnsigned (readSign text).2

/-! A natural number reads as itself. -/

theorem decimal_ne_nil (n : Nat) : decimal n ≠ [] := by
  rw [decimal_eq, Ne, List.map_eq_nil_iff]
  exact Nat.toDigits_ne_nil

theorem decimal_digits (n : Nat) : ∀ u ∈ decimal n, isDigit u = true := by
  rw [decimal_eq]
  intro u hu
  obtain ⟨c, hc, rfl⟩ := List.mem_map.mp hu
  have hdigit : 0x30 ≤ c.toNat ∧ c.toNat ≤ 0x39 :=
    Char.isDigit_iff_toNat.mp (Nat.isDigit_of_mem_toDigits (by decide) (by decide) hc)
  rw [isDigit, UInt16.toNat_ofNat', Bool.and_eq_true, decide_eq_true_eq, decide_eq_true_eq]
  omega

theorem isAscii_decimal (n : Nat) : IsAscii (decimal n) := by
  intro u hu
  have hdigit := decimal_digits n u hu
  rw [isDigit, Bool.and_eq_true, decide_eq_true_eq, decide_eq_true_eq] at hdigit
  omega

theorem isSpace_of_isDigit {u : CodeUnit} (h : isDigit u = true) : isSpace u = false := by
  rw [isDigit, Bool.and_eq_true, decide_eq_true_eq, decide_eq_true_eq] at h
  simp only [isSpace, List.contains_eq_mem, Bool.or_eq_false_iff, Bool.and_eq_false_iff, decide_eq_false_iff_not,
    List.mem_cons, List.not_mem_nil, or_false]
  omega

section Digits
variable {s : JsString} (hs : ∀ u ∈ s, isDigit u = true)
include hs

/-- Nothing that holds a code unit other than a digit starts a text of digits. -/
theorem take_ne_of_digits {mark : JsString} {u : CodeUnit} (hu : u ∈ mark) (hdigit : isDigit u = false) (n : Nat) :
    s.take n ≠ mark := by
  rintro rfl
  rw [hs u (List.mem_of_mem_take hu)] at hdigit
  cases hdigit

theorem head?_ne_of_digits {u : CodeUnit} (hdigit : isDigit u = false) : s.head? ≠ some u := by
  intro hhead
  rw [hs u (List.mem_of_mem_head? hhead)] at hdigit
  cases hdigit

theorem readSign_digits : readSign s = (false, s) := by
  rw [readSign, if_neg (head?_ne_of_digits hs (by decide)), if_neg (head?_ne_of_digits hs (by decide))]

theorem trim_digits : trim s = s :=
  trim_of_trimmed (trimmed_of_no_space fun u hu => isSpace_of_isDigit (hs u hu))

theorem readUnsigned_digits (hne : s ≠ []) : readUnsigned s = nearestNumber (readDecimal s) := by
  have hinfinity : s ≠ js "Infinity" := by
    have htake : s.take s.length ≠ js "Infinity" :=
      take_ne_of_digits hs (show 0x49 ∈ js "Infinity" by decide) (by decide) s.length
    rwa [List.take_length] at htake
  have hwhole : s.takeWhile isDigit = s := List.takeWhile_eq_self_iff.mpr hs
  have hrest : s.dropWhile isDigit = [] := List.dropWhile_eq_nil_iff.mpr hs
  simp only [readUnsigned, if_neg hinfinity, hwhole, hrest, List.head?_nil, readExponent, reduceCtorEq, if_false,
    if_true, hne, false_and, List.append_nil, List.length_nil, Nat.cast_zero, sub_zero, zpow_zero, mul_one]

end Digits

theorem nearestNumber_natCast {n : Nat} (h : n ≤ 2 ^ 53) : nearestNumber n = .finite n := by
  have hsize : |(n : ℚ)| < 2 ^ 1024 := by
    rw [abs_of_nonneg (Nat.cast_nonneg n)]
    calc (n : ℚ) ≤ 2 ^ 53 := by exact_mod_cast h
      _ < 2 ^ 1024 := pow_lt_pow_right₀ (by norm_num) (by norm_num)
  rw [nearestNumber, toDouble_natCast h, if_pos hsize]

theorem numberOf_decimal {n : Nat} (h : n ≤ 2 ^ 53) : numberOf (decimal n) = .finite n := by
  have hdigits := decimal_digits n
  have hmark (mark : JsString) (u : CodeUnit) (hu : u ∈ mark) (hdigit : isDigit u = false) :
      (decimal n).take 2 ≠ mark := take_ne_of_digits hdigits hu hdigit 2
  simp only [numberOf, trim_digits hdigits, decimal_ne_nil, if_false, hmark (js "0x") 0x78 (by decide) (by decide),
    hmark (js "0X") 0x58 (by decide) (by decide), hmark (js "0o") 0x6F (by decide) (by decide),
    hmark (js "0O") 0x4F (by decide) (by decide), hmark (js "0b") 0x62 (by decide) (by decide),
    hmark (js "0B") 0x42 (by decide) (by decide), or_self, readSign_digits hdigits, Bool.false_eq_true]
  rw [readUnsigned_digits hdigits (decimal_ne_nil n), readDecimal_decimal, nearestNumber_natCast h]

end NestStorageExample.Numbers
