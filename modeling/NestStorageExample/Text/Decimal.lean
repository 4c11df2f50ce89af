import NestStorageExample.Text.CodeUnits

/-! Decimal texts of natural numbers, and the one header that carries two of them. -/
namespace NestStorageExample.Text

/-- `String(n)`, for an integer that a double tells from its neighbours. -/
def decimal (n : Nat) : JsString := js (toString n)

def readDecimal (s : JsString) : Nat := s.foldl (fun value u => 10 * value + (u.toNat - 0x30)) 0

def hyphen : CodeUnit := 0x2D

/-- A `Range` header that asks for the bytes from `first` to `last`, both included. -/
def rangeHeader (first last : Nat) : JsString := js "bytes=" ++ decimal first ++ hyphen :: decimal last

/-- The two ends of a range, as a server reads them. -/
def readRange (header : JsString) : Option (Nat × Nat) :=
  if js "bytes=" <+: header then
    match (header.drop (js "bytes=").length).splitOn hyphen with
    | [first, last] => some (readDecimal first, readDecimal last)
    | _ => none
  else none

private theorem digit_bounds {c : Char} (h : c.isDigit = true) : 0x30 ≤ c.toNat ∧ c.toNat ≤ 0x39 :=
  Char.isDigit_iff_toNat.mp h

private theorem isDigit_toDigits (n : Nat) : ∀ c ∈ Nat.toDigits 10 n, c.isDigit = true :=
  fun _ hc => Nat.isDigit_of_mem_toDigits (by decide) (by decide) hc

theorem decimal_eq (n : Nat) : decimal n = (Nat.toDigits 10 n).map (fun c => UInt16.ofNat c.toNat) := by
  have hdigits := isDigit_toDigits n
  rw [decimal, js, Nat.toString_eq_repr, Nat.toList_repr]
  generalize Nat.toDigits 10 n = digits at hdigits
  induction digits with
  | nil => rfl
  | cons c digits ih =>
    have hc := digit_bounds (hdigits c List.mem_cons_self)
    rw [List.flatMap_cons, ih (fun d hd => hdigits d (List.mem_cons_of_mem c hd)), utf16, if_pos (by omega)]
    rfl

theorem readDecimal_decimal (n : Nat) : readDecimal (decimal n) = n := by
  have hread (digits : List Char) (value : Nat) (h : ∀ c ∈ digits, c.isDigit = true) :
      (digits.map (fun c => UInt16.ofNat c.toNat)).foldl (fun value u => 10 * value + (u.toNat - 0x30)) value =
        Nat.ofDigitChars 10 digits value := by
    induction digits generalizing value with
    | nil => rfl
    | cons c digits ih =>
      have hc := digit_bounds (h c List.mem_cons_self)
      have hunit : (UInt16.ofNat c.toNat).toNat = c.toNat := by
        rw [UInt16.toNat_ofNat']
        omega
      rw [List.map_cons, List.foldl_cons, hunit, ih _ (fun d hd => h d (List.mem_cons_of_mem c hd)),
        Nat.ofDigitChars_cons]
      rfl
  rw [readDecimal, decimal_eq, hread _ 0 (isDigit_toDigits n),
    Nat.ofDigitChars_ten_toDigits]

theorem hyphen_not_mem_decimal (n : Nat) : hyphen ∉ decimal n := by
  rw [decimal_eq, List.mem_map]
  rintro ⟨c, hc, heq⟩
  have hdigit := digit_bounds (isDigit_toDigits n c hc)
  have hvalue := congrArg UInt16.toNat heq
  rw [UInt16.toNat_ofNat', show hyphen.toNat = 0x2D from rfl] at hvalue
  omega

theorem readRange_rangeHeader (first last : Nat) : readRange (rangeHeader first last) = some (first, last) := by
  have hdrop : (rangeHeader first last).drop (js "bytes=").length = decimal first ++ hyphen :: decimal last := by
    rw [rangeHeader, List.append_assoc]
    exact List.drop_left
  have hsplit : (decimal first ++ hyphen :: decimal last).splitOn hyphen = [decimal first, decimal last] := by
    rw [List.splitOn_append_cons_self_of_not_mem (hyphen_not_mem_decimal first),
      List.splitOn_eq_singleton (hyphen_not_mem_decimal last)]
  have hprefix : js "bytes=" <+: rangeHeader first last := by
    rw [rangeHeader, List.append_assoc]
    exact List.prefix_append _ _
  rw [readRange, if_pos hprefix, hdrop, hsplit]
  simp only [readDecimal_decimal]

end NestStorageExample.Text
