import Mathlib.Data.List.DropRight
import NestStorageExample.Text.CodeUnits

/-! Base64 with padding: how long an encoding is, and that it can be read back, group by
group and by `atob`. -/
namespace NestStorageExample.Text

/-- The digit for a value below 64. -/
def base64Digit (n : Nat) : CodeUnit :=
  if n < 26 then UInt16.ofNat (0x41 + n)
  else if n < 52 then UInt16.ofNat (0x61 + (n - 26))
  else if n < 62 then UInt16.ofNat (0x30 + (n - 52))
  else if n = 62 then 0x2B
  else 0x2F

def base64Pad : CodeUnit := 0x3D

/-- `Buffer.from(bytes).toString('base64')` -/
def base64 : List Byte → JsString
  | [] => []
  | [a] => [base64Digit (a.toNat / 4), base64Digit (a.toNat % 4 * 16), base64Pad, base64Pad]
  | [a, b] =>
    [base64Digit (a.toNat / 4), base64Digit (a.toNat % 4 * 16 + b.toNat / 16), base64Digit (b.toNat % 16 * 4), base64Pad]
  | a :: b :: c :: rest =>
    base64Digit (a.toNat / 4) :: base64Digit (a.toNat % 4 * 16 + b.toNat / 16) ::
      base64Digit (b.toNat % 16 * 4 + c.toNat / 64) :: base64Digit (c.toNat % 64) :: base64 rest

def base64Value (u : CodeUnit) : Nat :=
  if 0x61 ≤ u.toNat then u.toNat - 0x61 + 26
  else if 0x41 ≤ u.toNat then u.toNat - 0x41
  else if 0x30 ≤ u.toNat then u.toNat - 0x30 + 52
  else if u = 0x2B then 62
  else 63

/-- Reads an encoding back, group by group. -/
def base64Decode : JsString → List Byte
  | d :: e :: f :: g :: rest =>
    if f = base64Pad then [UInt8.ofNat (base64Value d * 4 + base64Value e / 16)]
    else if g = base64Pad then
      [UInt8.ofNat (base64Value d * 4 + base64Value e / 16),
        UInt8.ofNat (base64Value e % 16 * 16 + base64Value f / 4)]
    else
      UInt8.ofNat (base64Value d * 4 + base64Value e / 16) ::
        UInt8.ofNat (base64Value e % 16 * 16 + base64Value f / 4) ::
        UInt8.ofNat (base64Value f % 4 * 64 + base64Value g) :: base64Decode rest
  | _ => []

theorem base64Digit_spec : ∀ n < 64, base64Value (base64Digit n) = n ∧ base64Digit n ≠ base64Pad ∧
    (base64Digit n).toNat < 0x80 := by
  decide

theorem base64Value_digit {n : Nat} (h : n < 64) : base64Value (base64Digit n) = n := (base64Digit_spec n h).1

theorem base64Digit_ne_pad {n : Nat} (h : n < 64) : base64Digit n ≠ base64Pad := (base64Digit_spec n h).2.1

/-- The four values of a group are digits. -/
theorem base64_group_lt (a b c : Byte) : a.toNat / 4 < 64 ∧ a.toNat % 4 * 16 < 64 ∧
    a.toNat % 4 * 16 + b.toNat / 16 < 64 ∧ b.toNat % 16 * 4 < 64 ∧
    b.toNat % 16 * 4 + c.toNat / 64 < 64 ∧ c.toNat % 64 < 64 := by
  have ha := a.toNat_lt
  have hb := b.toNat_lt
  have hc := c.toNat_lt
  omega

theorem base64_length (bytes : List Byte) : (base64 bytes).length = 4 * ((bytes.length + 2) / 3) := by
  induction bytes using base64.induct with
  | case1 => simp [base64]
  | case2 a => simp [base64]
  | case3 a b => simp [base64]
  | case4 a b c rest ih =>
    simp only [base64, List.length_cons, ih]
    omega

theorem base64_isAscii (bytes : List Byte) : IsAscii (base64 bytes) := by
  have hdigit {n : Nat} (h : n < 64) : (base64Digit n).toNat < 0x80 := (base64Digit_spec n h).2.2
  have hpad : base64Pad.toNat < 0x80 := by decide
  intro u hu
  induction bytes using base64.induct with
  | case1 => cases hu
  | case2 a =>
    obtain ⟨h1, h2, -⟩ := base64_group_lt a 0 0
    simp only [base64, List.mem_cons, List.not_mem_nil, or_false] at hu
    rcases hu with rfl | rfl | rfl | rfl
    exacts [hdigit h1, hdigit h2, hpad, hpad]
  | case3 a b =>
    obtain ⟨h1, -, h3, h4, -⟩ := base64_group_lt a b 0
    simp only [base64, List.mem_cons, List.not_mem_nil, or_false] at hu
    rcases hu with rfl | rfl | rfl | rfl
    exacts [hdigit h1, hdigit h3, hdigit h4, hpad]
  | case4 a b c rest ih =>
    obtain ⟨h1, -, h3, -, h5, h6⟩ := base64_group_lt a b c
    simp only [base64, List.mem_cons] at hu
    rcases hu with rfl | rfl | rfl | rfl | hu
    exacts [hdigit h1, hdigit h3, hdigit h5, hdigit h6, ih hu]

/-- The digits of a group carry its three bytes. -/
theorem base64_group (a b c : Byte) :
    UInt8.ofNat (a.toNat / 4 * 4 + (a.toNat % 4 * 16 + b.toNat / 16) / 16) = a ∧
    UInt8.ofNat ((a.toNat % 4 * 16 + b.toNat / 16) % 16 * 16 + (b.toNat % 16 * 4 + c.toNat / 64) / 4) = b ∧
    UInt8.ofNat ((b.toNat % 16 * 4 + c.toNat / 64) % 4 * 64 + c.toNat % 64) = c := by
  have ha := a.toNat_lt
  have hb := b.toNat_lt
  have hc := c.toNat_lt
  refine ⟨?_, ?_, ?_⟩
  · rw [show a.toNat / 4 * 4 + (a.toNat % 4 * 16 + b.toNat / 16) / 16 = a.toNat by omega, UInt8.ofNat_toNat]
  · rw [show (a.toNat % 4 * 16 + b.toNat / 16) % 16 * 16 + (b.toNat % 16 * 4 + c.toNat / 64) / 4 = b.toNat by omega,
      UInt8.ofNat_toNat]
  · rw [show (b.toNat % 16 * 4 + c.toNat / 64) % 4 * 64 + c.toNat % 64 = c.toNat by omega, UInt8.ofNat_toNat]

theorem base64Decode_base64 (bytes : List Byte) : base64Decode (base64 bytes) = bytes := by
  induction bytes using base64.induct with
  | case1 => rfl
  | case2 a =>
    obtain ⟨h1, h2, -⟩ := base64_group_lt a 0 0
    have hgroup := (base64_group a 0 0).1
    rw [UInt8.toNat_zero, Nat.zero_div, Nat.add_zero] at hgroup
    rw [base64, base64Decode, if_pos rfl, base64Value_digit h1, base64Value_digit h2, hgroup]
  | case3 a b =>
    obtain ⟨h1, -, h3, h4, -⟩ := base64_group_lt a b 0
    obtain ⟨ha, hb, -⟩ := base64_group a b 0
    rw [UInt8.toNat_zero, Nat.zero_div, Nat.add_zero] at hb
    rw [base64, base64Decode, if_neg (base64Digit_ne_pad h4), if_pos rfl, base64Value_digit h1, base64Value_digit h3,
      base64Value_digit h4, ha, hb]
  | case4 a b c rest ih =>
    obtain ⟨h1, -, h3, -, h5, h6⟩ := base64_group_lt a b c
    obtain ⟨ha, hb, hc⟩ := base64_group a b c
    rw [base64, base64Decode, if_neg (base64Digit_ne_pad h5), if_neg (base64Digit_ne_pad h6), base64Value_digit h1,
      base64Value_digit h3, base64Value_digit h5, base64Value_digit h6, ha, hb, hc, ih]

theorem base64_injective : Function.Injective base64 :=
  Function.LeftInverse.injective base64Decode_base64

def isBase64Digit (u : CodeUnit) : Bool :=
  (0x41 ≤ u.toNat && u.toNat ≤ 0x5A) || (0x61 ≤ u.toNat && u.toNat ≤ 0x7A) || (0x30 ≤ u.toNat && u.toNat ≤ 0x39) ||
    u == 0x2B || u == 0x2F

def isAsciiWhitespace (u : CodeUnit) : Bool := [0x09, 0x0A, 0x0C, 0x0D, 0x20].contains u.toNat

/-- Without the padding at the end, of which at most two signs count. -/
def dropPadding (s : JsString) : JsString :=
  s.take (s.length - min 2 (s.rtakeWhile (· == base64Pad)).length)

/-- The bytes of digits without padding; the last group may be of two or three. -/
def decodeDigits : JsString → List Byte
  | d :: e :: f :: g :: rest =>
    UInt8.ofNat (base64Value d * 4 + base64Value e / 16) ::
      UInt8.ofNat (base64Value e % 16 * 16 + base64Value f / 4) ::
      UInt8.ofNat (base64Value f % 4 * 64 + base64Value g) :: decodeDigits rest
  | [d, e, f] =>
    [UInt8.ofNat (base64Value d * 4 + base64Value e / 16), UInt8.ofNat (base64Value e % 16 * 16 + base64Value f / 4)]
  | [d, e] => [UInt8.ofNat (base64Value d * 4 + base64Value e / 16)]
  | _ => []

/-- The forgiving decoder of the web platform; `none` is a failure. -/
def forgivingDecode (s : JsString) : Option (List Byte) :=
  let data := s.filter (fun u => !isAsciiWhitespace u)
  let digits := if data.length % 4 = 0 then dropPadding data else data
  if digits.length % 4 = 1 ∨ ¬ digits.all isBase64Digit then none else some (decodeDigits digits)

/-- `atob(s)`, a string with a code unit for each byte; `none` is the error it throws. -/
def atob (s : JsString) : Option JsString := (forgivingDecode s).map fun bytes => bytes.map UInt8.toUInt16

/-- An encoding without its padding. -/
def base64Digits : List Byte → JsString
  | [] => []
  | [a] => [base64Digit (a.toNat / 4), base64Digit (a.toNat % 4 * 16)]
  | [a, b] =>
    [base64Digit (a.toNat / 4), base64Digit (a.toNat % 4 * 16 + b.toNat / 16), base64Digit (b.toNat % 16 * 4)]
  | a :: b :: c :: rest =>
    base64Digit (a.toNat / 4) :: base64Digit (a.toNat % 4 * 16 + b.toNat / 16) ::
      base64Digit (b.toNat % 16 * 4 + c.toNat / 64) :: base64Digit (c.toNat % 64) :: base64Digits rest

def paddingLength (length : Nat) : Nat := (3 - length % 3) % 3

theorem base64_eq (bytes : List Byte) :
    base64 bytes = base64Digits bytes ++ List.replicate (paddingLength bytes.length) base64Pad := by
  induction bytes using base64.induct with
  | case1 => rfl
  | case2 a => rfl
  | case3 a b => rfl
  | case4 a b c rest ih =>
    have hpadding : paddingLength (a :: b :: c :: rest).length = paddingLength rest.length := by
      simp only [paddingLength, List.length_cons]
      omega
    rw [base64, base64Digits, ih, hpadding]
    rfl

/-- What holds of every digit holds of an encoding without its padding. -/
theorem forall_base64Digits {p : CodeUnit → Prop} (h : ∀ n < 64, p (base64Digit n)) (bytes : List Byte) :
    ∀ u ∈ base64Digits bytes, p u := by
  intro u hu
  induction bytes using base64.induct with
  | case1 => cases hu
  | case2 a =>
    obtain ⟨h1, h2, -⟩ := base64_group_lt a 0 0
    simp only [base64Digits, List.mem_cons, List.not_mem_nil, or_false] at hu
    rcases hu with rfl | rfl
    exacts [h _ h1, h _ h2]
  | case3 a b =>
    obtain ⟨h1, -, h3, h4, -⟩ := base64_group_lt a b 0
    simp only [base64Digits, List.mem_cons, List.not_mem_nil, or_false] at hu
    rcases hu with rfl | rfl | rfl
    exacts [h _ h1, h _ h3, h _ h4]
  | case4 a b c rest ih =>
    obtain ⟨h1, -, h3, -, h5, h6⟩ := base64_group_lt a b c
    simp only [base64Digits, List.mem_cons] at hu
    rcases hu with rfl | rfl | rfl | rfl | hu
    exacts [h _ h1, h _ h3, h _ h5, h _ h6, ih hu]

theorem decodeDigits_base64Digits (bytes : List Byte) : decodeDigits (base64Digits bytes) = bytes := by
  induction bytes using base64.induct with
  | case1 => rfl
  | case2 a =>
    obtain ⟨h1, h2, -⟩ := base64_group_lt a 0 0
    have hgroup := (base64_group a 0 0).1
    rw [UInt8.toNat_zero, Nat.zero_div, Nat.add_zero] at hgroup
    rw [base64Digits, decodeDigits, base64Value_digit h1, base64Value_digit h2, hgroup]
  | case3 a b =>
    obtain ⟨h1, -, h3, h4, -⟩ := base64_group_lt a b 0
    obtain ⟨ha, hb, -⟩ := base64_group a b 0
    rw [UInt8.toNat_zero, Nat.zero_div, Nat.add_zero] at hb
    rw [base64Digits, decodeDigits, base64Value_digit h1, base64Value_digit h3, base64Value_digit h4, ha, hb]
  | case4 a b c rest ih =>
    obtain ⟨h1, -, h3, -, h5, h6⟩ := base64_group_lt a b c
    obtain ⟨ha, hb, hc⟩ := base64_group a b c
    rw [base64Digits, decodeDigits, base64Value_digit h1, base64Value_digit h3, base64Value_digit h5,
      base64Value_digit h6, ha, hb, hc, ih]

theorem dropPadding_append {digits : JsString} (h : base64Pad ∉ digits) {n : Nat} (hn : n ≤ 2) :
    dropPadding (digits ++ List.replicate n base64Pad) = digits := by
  have htail : (digits ++ List.replicate n base64Pad).rtakeWhile (· == base64Pad) = List.replicate n base64Pad := by
    have hhead : digits.reverse.takeWhile (· == base64Pad) = [] := by
      cases hreverse : digits.reverse with
      | nil => rfl
      | cons u rest =>
        have hu : u ∈ digits := List.mem_reverse.mp (by rw [hreverse]; exact List.mem_cons_self)
        rw [List.takeWhile_cons_of_neg]
        rw [beq_iff_eq]
        rintro rfl
        exact h hu
    rw [List.rtakeWhile, List.reverse_append, List.reverse_replicate, List.takeWhile_append_of_pos, hhead,
      List.append_nil, List.reverse_replicate]
    intro u hu
    rw [List.eq_of_mem_replicate hu, beq_self_eq_true]
  rw [dropPadding, htail, List.length_append, List.length_replicate, Nat.min_eq_right hn, Nat.add_sub_cancel,
    List.take_left]

theorem base64Digit_plain : ∀ n < 64, isBase64Digit (base64Digit n) = true ∧
    isAsciiWhitespace (base64Digit n) = false := by
  decide

/-- `atob` reads every encoding back. -/
theorem atob_base64 (bytes : List Byte) : atob (base64 bytes) = some (bytes.map UInt8.toUInt16) := by
  have hplain : ∀ u ∈ base64Digits bytes, isBase64Digit u = true ∧ isAsciiWhitespace u = false :=
    forall_base64Digits base64Digit_plain bytes
  have hpad : base64Pad ∉ base64Digits bytes := fun hmem => absurd (hplain base64Pad hmem).1 (by decide)
  have hspaces : (base64 bytes).filter (fun u => !isAsciiWhitespace u) = base64 bytes := by
    rw [List.filter_eq_self, base64_eq]
    intro u hu
    rcases List.mem_append.mp hu with hu | hu
    · rw [(hplain u hu).2]
      rfl
    · rw [List.eq_of_mem_replicate hu]
      decide
  have hdigits : (base64Digits bytes).all isBase64Digit = true := List.all_eq_true.mpr fun u hu => (hplain u hu).1
  have hlength : (base64 bytes).length % 4 = 0 := by
    rw [base64_length]
    omega
  have hpadding : paddingLength bytes.length ≤ 2 := by
    unfold paddingLength
    omega
  rw [atob, forgivingDecode]
  rw [hspaces, if_pos hlength, base64_eq, dropPadding_append hpad hpadding, if_neg, Option.map_some,
    decodeDigits_base64Digits]
  rintro (hone | hall)
  · rw [base64_eq, List.length_append, List.length_replicate] at hlength
    omega
  · exact hall hdigits

end NestStorageExample.Text
