import Mathlib.Data.Nat.Digits.Lemmas
import NestStorageExample.Text.PercentEncoding
import NestStorageExample.Text.Whitespace

/-! Numbers in hexadecimal: how they are written with zeros in front, and that what was
written can be read. -/
namespace NestStorageExample.Text

def lowerHexDigit (n : Nat) : CodeUnit := UInt16.ofNat (if n < 10 then 0x30 + n else 0x57 + n)

/-- The digits of a number, the most significant one first. -/
def hexDigits (n : Nat) : List Nat := if n = 0 then [0] else (Nat.digits 16 n).reverse

/-- `n.toString(16)` -/
def toHex (n : Nat) : JsString := (hexDigits n).map lowerHexDigit

/-- `s.padStart(length, fill)` for a fill of one code unit. -/
def padStart (length : Nat) (fill : CodeUnit) (s : JsString) : JsString := s.leftpad length fill

/-- `s.padEnd(length, fill)` for a fill of one code unit. -/
def padEnd (length : Nat) (fill : CodeUnit) (s : JsString) : JsString := s.rightpad length fill

/-- `toUpperCase()` of ASCII text. -/
def upperUnit (u : CodeUnit) : CodeUnit := if 0x61 ≤ u.toNat ∧ u.toNat ≤ 0x7A then u - 0x20 else u

def zeroUnit : CodeUnit := 0x30

/-- `n.toString(16).padStart(width, '0').toUpperCase()` -/
def paddedHex (width n : Nat) : JsString := (padStart width zeroUnit (toHex n)).map upperUnit

def hexUnitValue (u : CodeUnit) : Option Nat :=
  if 0x30 ≤ u.toNat ∧ u.toNat ≤ 0x39 then some (u.toNat - 0x30)
  else if 0x41 ≤ u.toNat ∧ u.toNat ≤ 0x46 then some (u.toNat - 0x37)
  else none

/-- The number that a text of uppercase digits stands for. -/
def readHex (s : JsString) : Option Nat := (s.mapM hexUnitValue).map fun digits => Nat.ofDigits 16 digits.reverse

theorem upperUnit_lowerHexDigit : ∀ n < 16, upperUnit (lowerHexDigit n) = hexDigit n := by decide

theorem hexUnitValue_hexDigit : ∀ n < 16, hexUnitValue (hexDigit n) = some n := by decide

theorem hexDigit_not_space : ∀ n < 16, isSpace (hexDigit n) = false := by decide

theorem hexDigits_lt (n : Nat) : ∀ d ∈ hexDigits n, d < 16 := by
  intro d hd
  rw [hexDigits] at hd
  split at hd
  · rw [List.mem_singleton.mp hd]
    decide
  · exact Nat.digits_lt_base (by decide) (List.mem_reverse.mp hd)

/-- The digits of a padded number, zeros included. -/
def paddedDigits (width n : Nat) : List Nat := List.replicate (width - (hexDigits n).length) 0 ++ hexDigits n

theorem paddedDigits_lt (width n : Nat) : ∀ d ∈ paddedDigits width n, d < 16 := by
  intro d hd
  rcases List.mem_append.mp hd with hd | hd
  · rw [List.eq_of_mem_replicate hd]
    decide
  · exact hexDigits_lt n d hd

theorem paddedHex_eq (width n : Nat) : paddedHex width n = (paddedDigits width n).map hexDigit := by
  rw [paddedHex, padStart, List.leftpad, paddedDigits, toHex, List.length_map, List.map_append, List.map_append,
    List.map_replicate,
    List.map_replicate, List.map_map]
  congr 1
  exact List.map_congr_left fun d hd => upperUnit_lowerHexDigit d (hexDigits_lt n d hd)

theorem mapM_hexUnitValue {digits : List Nat} (h : ∀ d ∈ digits, d < 16) :
    (digits.map hexDigit).mapM hexUnitValue = some digits := by
  induction digits with
  | nil => rfl
  | cons d digits ih =>
    rw [List.map_cons, List.mapM_cons, hexUnitValue_hexDigit d (h d List.mem_cons_self),
      ih (fun e he => h e (List.mem_cons_of_mem d he))]
    rfl

/-- Writing and padding lose nothing. -/
theorem readHex_paddedHex (width n : Nat) : readHex (paddedHex width n) = some n := by
  rw [readHex, paddedHex_eq, mapM_hexUnitValue (paddedDigits_lt width n), Option.map_some, paddedDigits,
    List.reverse_append, List.reverse_replicate, Nat.ofDigits_append, Nat.ofDigits_replicate_zero, Nat.mul_zero,
    Nat.add_zero, hexDigits]
  split
  · rename_i hzero
    rw [hzero]
    rfl
  · rw [List.reverse_reverse, Nat.ofDigits_digits]

theorem hexDigits_length_le {width n : Nat} (hwidth : 0 < width) (h : n < 16 ^ width) :
    (hexDigits n).length ≤ width := by
  rw [hexDigits]
  split
  · exact hwidth
  · rw [List.length_reverse]
    exact (Nat.digits_length_le_iff (by decide) n).mpr h

theorem paddedHex_length {width n : Nat} (hwidth : 0 < width) (h : n < 16 ^ width) :
    (paddedHex width n).length = width := by
  have hle := hexDigits_length_le hwidth h
  rw [paddedHex_eq, List.length_map, paddedDigits, List.length_append, List.length_replicate]
  omega

theorem paddedHex_not_space (width n : Nat) : ∀ u ∈ paddedHex width n, isSpace u = false := by
  intro u hu
  rw [paddedHex_eq] at hu
  obtain ⟨d, hd, rfl⟩ := List.mem_map.mp hu
  exact hexDigit_not_space d (paddedDigits_lt width n d hd)

end NestStorageExample.Text
