import Mathlib.Algebra.Order.Ring.Unbundled.Rat
import Mathlib.Data.Int.Log
import Mathlib.Data.Rat.Floor
import Mathlib.Tactic.Linarith
import Mathlib.Tactic.NormNum
import Mathlib.Tactic.FieldSimp

/-! Doubles as the rationals they stand for. An operation on them is the exact one and then
a rounding to 53 bits, ties to even. Overflow is left out: what is computed here stays
below `2 ^ 1024`. -/
namespace NestStorageExample.Numbers

/-- The nearest integer, of two equally near the even one. -/
def roundHalfEven (q : ℚ) : ℤ :=
  if q - ⌊q⌋ < 1 / 2 then ⌊q⌋
  else if 1 / 2 < q - ⌊q⌋ then ⌊q⌋ + 1
  else if ⌊q⌋ % 2 = 0 then ⌊q⌋ else ⌊q⌋ + 1

/-- The exponent of the last bit of the double nearest to `x`. -/
def lastExponent (x : ℚ) : ℤ := max (Int.log 2 |x| - 52) (-1074)

/-- The double nearest to `x`. -/
def toDouble (x : ℚ) : ℚ := roundHalfEven (x / 2 ^ lastExponent x) * 2 ^ lastExponent x

namespace Double

def add (x y : ℚ) : ℚ := toDouble (x + y)

def sub (x y : ℚ) : ℚ := toDouble (x - y)

def mul (x y : ℚ) : ℚ := toDouble (x * y)

def div (x y : ℚ) : ℚ := toDouble (x / y)

/-- `Math.ceil`, which is exact. -/
def ceil (x : ℚ) : ℚ := ⌈x⌉

end Double

theorem roundHalfEven_intCast (n : ℤ) : roundHalfEven n = n := by
  rw [roundHalfEven, Int.floor_intCast, sub_self, if_pos (by norm_num)]

theorem abs_sub_roundHalfEven (q : ℚ) : |q - roundHalfEven q| ≤ 1 / 2 := by
  have hfloor := Int.floor_le q
  have hlt := Int.lt_floor_add_one q
  rw [abs_le]
  unfold roundHalfEven
  split
  · constructor <;> linarith
  · split
    · push_cast
      constructor <;> linarith
    · split
      · constructor <;> linarith
      · push_cast
        constructor <;> linarith

/-- What is a whole multiple of its last bit is a double. -/
theorem toDouble_of_multiple {x : ℚ} {n : ℤ} (h : x = n * 2 ^ lastExponent x) : toDouble x = x := by
  have hpos : (2 : ℚ) ^ lastExponent x ≠ 0 := zpow_ne_zero _ (by norm_num)
  have hdiv : x / 2 ^ lastExponent x = n := by
    rw [div_eq_iff hpos]
    exact h
  rw [toDouble, hdiv, roundHalfEven_intCast]
  exact h.symm

/-- A double is off by at most half of the last bit. -/
theorem abs_sub_toDouble (x : ℚ) : |x - toDouble x| ≤ 2 ^ lastExponent x / 2 := by
  have hpos : (0 : ℚ) < 2 ^ lastExponent x := zpow_pos (by norm_num) _
  have hround := abs_sub_roundHalfEven (x / 2 ^ lastExponent x)
  have hscaled : x - toDouble x =
      (x / 2 ^ lastExponent x - roundHalfEven (x / 2 ^ lastExponent x)) * 2 ^ lastExponent x := by
    rw [sub_mul, div_mul_cancel₀ _ hpos.ne', toDouble]
  rw [hscaled, abs_mul, abs_of_pos hpos]
  have := mul_le_mul_of_nonneg_right hround hpos.le
  linarith

/-- A magnitude below `2 ^ k` has a last bit of at most `2 ^ (k - 53)`. -/
theorem lastExponent_le {x : ℚ} {k : ℤ} (hk : -1021 ≤ k) (hx : x ≠ 0) (h : |x| < 2 ^ k) :
    lastExponent x ≤ k - 53 := by
  have hlog : Int.log 2 |x| < k := by
    rw [← Int.lt_zpow_iff_log_lt (by norm_num) (abs_pos.mpr hx)]
    exact_mod_cast h
  unfold lastExponent
  omega

/-- Integers of up to 53 bits are doubles, at any scale. -/
theorem toDouble_scaled {m : ℤ} (hm : |m| < 2 ^ 53) (e : ℕ) : toDouble (m * 2 ^ e) = m * 2 ^ e := by
  by_cases hzero : m = 0
  · rw [hzero, Int.cast_zero, zero_mul]
    exact @toDouble_of_multiple 0 0 (by rw [Int.cast_zero, zero_mul])
  have hx : (m : ℚ) * 2 ^ e ≠ 0 := mul_ne_zero (Int.cast_ne_zero.mpr hzero) (pow_ne_zero _ (by norm_num))
  have hsize : |(m : ℚ) * 2 ^ e| < 2 ^ ((53 + e : ℕ) : ℤ) := by
    rw [abs_mul, abs_of_pos (pow_pos (by norm_num) e : (0 : ℚ) < 2 ^ e), zpow_natCast, pow_add]
    have hm' : |(m : ℚ)| < 2 ^ 53 := by exact_mod_cast hm
    exact mul_lt_mul_of_pos_right hm' (pow_pos (by norm_num) e)
  have hlast := lastExponent_le (by omega) hx hsize
  have hshift (l : ℤ) (hl : l ≤ e) : (2 : ℚ) ^ e = 2 ^ (e - l).toNat * 2 ^ l := by
    calc (2 : ℚ) ^ e = 2 ^ (((e - l).toNat : ℤ) + l) := by rw [← zpow_natCast]; congr 1; omega
      _ = 2 ^ (e - l).toNat * 2 ^ l := by rw [zpow_add₀ (by norm_num), zpow_natCast]
  apply @toDouble_of_multiple _ (m * 2 ^ (e - lastExponent (m * 2 ^ e)).toNat)
  push_cast
  rw [mul_assoc, ← hshift _ (by omega)]

/-- Natural numbers of up to `2 ^ 53` are doubles. -/
theorem toDouble_natCast {n : ℕ} (h : n ≤ 2 ^ 53) : toDouble n = n := by
  rcases Nat.lt_or_eq_of_le h with hlt | rfl
  · have hscaled := @toDouble_scaled n (by rw [abs_of_nonneg] <;> omega) 0
    rwa [pow_zero, mul_one] at hscaled
  · have hscaled := @toDouble_scaled 1 (by norm_num) 53
    norm_num at hscaled ⊢
    exact hscaled

theorem roundHalfEven_le {k : ℤ} {q : ℚ} (h : q ≤ k) : roundHalfEven q ≤ k := by
  rcases h.lt_or_eq with hlt | rfl
  · have hfloor := Int.floor_lt.mpr hlt
    unfold roundHalfEven
    split_ifs <;> omega
  · rw [roundHalfEven_intCast]

theorem zpow_lastExponent_pos (x : ℚ) : (0 : ℚ) < 2 ^ lastExponent x := zpow_pos (by norm_num) _

/-- A natural number is a multiple of every last bit that is no larger than one. -/
theorem natCast_eq_multiple (n : ℕ) {l : ℤ} (hl : l ≤ 0) : (n : ℚ) = ((n * 2 ^ (-l).toNat : ℕ) : ℤ) * 2 ^ l := by
  have hpow : (2 : ℚ) ^ (-l).toNat = 2 ^ (-l) := by
    rw [← zpow_natCast, Int.toNat_of_nonneg (by omega)]
  push_cast
  rw [hpow, mul_assoc, ← zpow_add₀ (by norm_num), neg_add_cancel, zpow_zero, mul_one]

/-- Above the subnormal numbers a double has 53 bits. -/
theorem zpow_lastExponent_le {x : ℚ} (hx : 0 < x) (hl : -1074 < lastExponent x) :
    2 ^ 52 * 2 ^ lastExponent x ≤ x := by
  have hlog : Int.log 2 x = 52 + lastExponent x := by
    have hlast : lastExponent x = max (Int.log 2 x - 52) (-1074) := by rw [lastExponent, abs_of_pos hx]
    omega
  have hself := Int.zpow_log_le_self (b := 2) (by norm_num) hx
  rw [hlog, zpow_add₀ (by norm_num)] at hself
  exact_mod_cast hself

/-- A last bit larger than one belongs to a number from `2 ^ 53` on. -/
theorem two_pow_le_of_lastExponent_pos {x : ℚ} (hx : 0 ≤ x) (hl : 0 < lastExponent x) :
    (2 : ℚ) ≤ 2 ^ lastExponent x ∧ 2 ^ 52 * 2 ^ lastExponent x ≤ x := by
  have hpos : 0 < x := by
    rcases hx.lt_or_eq with hpos | rfl
    · exact hpos
    · rw [lastExponent, abs_zero, Int.log_zero_right] at hl
      omega
  have hmono := zpow_le_zpow_right₀ (by norm_num : (1 : ℚ) ≤ 2) (show 1 ≤ lastExponent x by omega)
  rw [zpow_one] at hmono
  exact ⟨hmono, zpow_lastExponent_le hpos (by omega)⟩

/-- Rounding never crosses a natural number that is a double. -/
theorem toDouble_le {n : ℕ} (hn : n ≤ 2 ^ 53) {x : ℚ} (hx : 0 ≤ x) (h : x ≤ n) : toDouble x ≤ n := by
  have hpos := zpow_lastExponent_pos x
  rcases le_or_gt (lastExponent x) 0 with hl | hl
  · have hmultiple := natCast_eq_multiple n hl
    rw [hmultiple, ← div_le_iff₀ hpos] at h
    rw [hmultiple, toDouble]
    exact mul_le_mul_of_nonneg_right (by exact_mod_cast roundHalfEven_le h) hpos.le
  · obtain ⟨htwo, hlarge⟩ := two_pow_le_of_lastExponent_pos hx hl
    have hbound : (n : ℚ) ≤ 2 ^ 53 := by exact_mod_cast hn
    rw [le_antisymm h (by linarith), toDouble_natCast hn]

/-- No power of two that is a whole number lies between two neighbouring integers. -/
theorem zpow_ne_between {q : ℕ} {x : ℚ} (hlow : q < x) (hhigh : x < q + 1) {k : ℤ} (hk : 0 ≤ k) :
    (2 : ℚ) ^ k ≠ x := by
  rintro rfl
  obtain ⟨k, rfl⟩ := Int.eq_ofNat_of_zero_le hk
  rw [zpow_natCast] at hlow hhigh
  have hlow' : q < 2 ^ k := by exact_mod_cast hlow
  have hhigh' : 2 ^ k < q + 1 := by exact_mod_cast hhigh
  omega

/-- Half of the last bit of a quotient is less than what separates it from an integer. -/
theorem zpow_lastExponent_div_lt {n p q : ℕ} (hp : 0 < p) (hp' : p ≤ 2 ^ 53) (hn : n ≤ 2 ^ 53) (hpos : 0 < n)
    (hlow : (q : ℚ) < n / p) (hhigh : (n : ℚ) / p < q + 1) : (2 : ℚ) ^ lastExponent (n / p) < 2 * (1 / p) := by
  have hp0 : (0 : ℚ) < p := by exact_mod_cast hp
  have hn1 : (1 : ℚ) ≤ n := by exact_mod_cast hpos
  have hx : (0 : ℚ) < n / p := div_pos (by linarith) hp0
  have hlast : -1074 < lastExponent ((n : ℚ) / p) := by
    have hsmall : ((2 : ℕ) : ℚ) ^ (-53 : ℤ) ≤ n / p := by
      calc ((2 : ℕ) : ℚ) ^ (-53 : ℤ) = 1 / 2 ^ 53 := by norm_num
        _ ≤ 1 / p := one_div_le_one_div_of_le hp0 (by exact_mod_cast hp')
        _ ≤ n / p := div_le_div_of_nonneg_right hn1 hp0.le
    have hlog := (Int.zpow_le_iff_le_log (by norm_num) hx).mp hsmall
    rw [lastExponent, abs_of_pos hx]
    omega
  have hbits := zpow_lastExponent_le hx hlast
  have hbound : (n : ℚ) / p ≤ 2 ^ 53 * (1 / p) := by
    rw [div_eq_mul_one_div]
    exact mul_le_mul_of_nonneg_right (by exact_mod_cast hn) (by positivity)
  rcases hbits.lt_or_eq with hlt | heq
  · linarith
  rcases hn.lt_or_eq with hlt | rfl
  · have hstrict : (n : ℚ) / p < 2 ^ 53 * (1 / p) := by
      rw [div_eq_mul_one_div]
      exact mul_lt_mul_of_pos_right (by exact_mod_cast hlt) (by positivity)
    linarith
  -- a quotient of `2 ^ 53` that is a power of two is whole
  · have hone : (1 : ℚ) ≤ ((2 ^ 53 : ℕ) : ℚ) / p := by
      rw [one_le_div hp0]
      exact_mod_cast hp'
    have hwhole : (0 : ℤ) ≤ 52 + lastExponent (((2 ^ 53 : ℕ) : ℚ) / p) := by
      have hlog := Int.log_mono_right (b := 2) one_pos hone
      rw [Int.log_one_right] at hlog
      rw [lastExponent, abs_of_pos hx]
      omega
    refine absurd ?_ (zpow_ne_between hlow hhigh hwhole)
    rw [zpow_add₀ (by norm_num)]
    exact_mod_cast heq

/-- Rounding a quotient never crosses an integer. -/
theorem ceil_toDouble_div {n p : ℕ} (hp : 0 < p) (hp' : p ≤ 2 ^ 53) (hn : n ≤ 2 ^ 53) :
    ⌈toDouble (n / p)⌉ = ((n + p - 1) / p : ℕ) := by
  obtain ⟨q, r, hr, rfl⟩ : ∃ q r, r < p ∧ n = p * q + r :=
    ⟨n / p, n % p, Nat.mod_lt n hp, (Nat.div_add_mod n p).symm⟩
  have hp0 : (0 : ℚ) < p := by exact_mod_cast hp
  have hq : q ≤ p * q := Nat.le_mul_of_pos_left q hp
  have hdiv : ((p * q + r : ℕ) : ℚ) / p = q + r / p := by
    push_cast
    rw [add_div, mul_div_cancel_left₀ _ hp0.ne']
  by_cases hzero : r = 0
  · subst hzero
    have hcount : (p * q + 0 + p - 1) / p = q := by
      apply Nat.div_eq_of_lt_le
      · rw [Nat.mul_comm q p]
        omega
      · rw [Nat.succ_mul, Nat.mul_comm q p]
        omega
    rw [hdiv, Nat.cast_zero, zero_div, add_zero, toDouble_natCast (by omega), Int.ceil_natCast, hcount]
  have hcount : (p * q + r + p - 1) / p = q + 1 := by
    apply Nat.div_eq_of_lt_le
    · rw [Nat.succ_mul, Nat.mul_comm q p]
      omega
    · rw [Nat.succ_mul, Nat.succ_mul, Nat.mul_comm q p]
      omega
  have hless : (r : ℚ) / p < 1 := by
    rw [div_lt_one hp0]
    exact_mod_cast hr
  have hone : (1 : ℚ) / p ≤ r / p := by
    apply div_le_div_of_nonneg_right _ hp0.le
    exact_mod_cast Nat.pos_of_ne_zero hzero
  have hpart : (0 : ℚ) < 1 / p := one_div_pos.mpr hp0
  have hbit := @zpow_lastExponent_div_lt (p * q + r) p q hp hp' hn (by omega) (by rw [hdiv]; linarith)
    (by rw [hdiv]; linarith)
  have herror := (abs_le.mp (abs_sub_toDouble (((p * q + r : ℕ) : ℚ) / p))).2
  have hupper := @toDouble_le (q + 1) (by omega) (((p * q + r : ℕ) : ℚ) / p) (by positivity) (by
    rw [hdiv]
    push_cast
    linarith)
  rw [hdiv] at herror hbit hupper ⊢
  rw [hcount, Int.ceil_eq_iff]
  push_cast at hupper ⊢
  constructor <;> linarith

theorem le_roundHalfEven {k : ℤ} {q : ℚ} (h : k ≤ q) : k ≤ roundHalfEven q := by
  have hfloor := Int.le_floor.mpr h
  unfold roundHalfEven
  split_ifs <;> omega

/-- Nor does it from above. -/
theorem le_toDouble {n : ℕ} (hn : n ≤ 2 ^ 53) {x : ℚ} (h : n ≤ x) : n ≤ toDouble x := by
  have hpos := zpow_lastExponent_pos x
  have hx : 0 ≤ x := le_trans (Nat.cast_nonneg n) h
  rcases le_or_gt (lastExponent x) 0 with hl | hl
  · have hmultiple := natCast_eq_multiple n hl
    rw [hmultiple, ← le_div_iff₀ hpos] at h
    rw [hmultiple, toDouble]
    exact mul_le_mul_of_nonneg_right (by exact_mod_cast le_roundHalfEven h) hpos.le
  · obtain ⟨htwo, hlarge⟩ := two_pow_le_of_lastExponent_pos hx hl
    have hbound : (n : ℚ) ≤ 2 ^ 53 := by exact_mod_cast hn
    have hbits : ((2 ^ 52 : ℤ) : ℚ) ≤ x / 2 ^ lastExponent x := by
      rw [le_div_iff₀ hpos]
      push_cast
      exact hlarge
    have hround : ((2 ^ 52 : ℤ) : ℚ) ≤ roundHalfEven (x / 2 ^ lastExponent x) := by
      exact_mod_cast le_roundHalfEven hbits
    have hscaled := mul_le_mul_of_nonneg_right hround hpos.le
    rw [toDouble]
    push_cast at hscaled
    linarith

/-- The floor of a quotient survives its rounding. -/
theorem floor_toDouble_div {n p : ℕ} (hp : 0 < p) (hp' : p ≤ 2 ^ 53) (hn : n ≤ 2 ^ 53) :
    ⌊toDouble (n / p)⌋ = (n / p : ℕ) := by
  obtain ⟨q, r, hr, rfl⟩ : ∃ q r, r < p ∧ n = p * q + r :=
    ⟨n / p, n % p, Nat.mod_lt n hp, (Nat.div_add_mod n p).symm⟩
  have hp0 : (0 : ℚ) < p := by exact_mod_cast hp
  have hq : q ≤ p * q := Nat.le_mul_of_pos_left q hp
  have hdiv : ((p * q + r : ℕ) : ℚ) / p = q + r / p := by
    push_cast
    rw [add_div, mul_div_cancel_left₀ _ hp0.ne']
  have hcount : (p * q + r) / p = q := by
    rw [Nat.mul_add_div hp, Nat.div_eq_of_lt hr, Nat.add_zero]
  by_cases hzero : r = 0
  · subst hzero
    rw [hdiv, Nat.cast_zero, zero_div, add_zero, toDouble_natCast (by omega), Int.floor_natCast, hcount]
  have hless : (r : ℚ) / p ≤ 1 - 1 / p := by
    rw [le_sub_iff_add_le, ← add_div, div_le_one hp0]
    exact_mod_cast hr
  have hpart : (0 : ℚ) < r / p := div_pos (by exact_mod_cast Nat.pos_of_ne_zero hzero) hp0
  have hstep : (0 : ℚ) < 1 / p := one_div_pos.mpr hp0
  have hbit := @zpow_lastExponent_div_lt (p * q + r) p q hp hp' hn (by omega) (by rw [hdiv]; linarith)
    (by rw [hdiv]; linarith)
  have herror := (abs_le.mp (abs_sub_toDouble (((p * q + r : ℕ) : ℚ) / p))).1
  have hlower := @le_toDouble q (by omega) (((p * q + r : ℕ) : ℚ) / p) (by rw [hdiv]; linarith)
  rw [hdiv] at herror hbit hlower ⊢
  rw [hcount, Int.floor_eq_iff]
  push_cast at hlower ⊢
  constructor <;> linarith

end NestStorageExample.Numbers
