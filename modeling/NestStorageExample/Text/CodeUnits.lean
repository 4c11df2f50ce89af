import Mathlib.Data.List.Basic
import Mathlib.Data.List.Infix
import Mathlib.Data.UInt
import Mathlib.Tactic.Common

/-! JavaScript strings as the language has them: finite sequences of 16-bit code
units, lone surrogates included. Their code points are what every encoder reads. -/
namespace NestStorageExample.Text

abbrev CodeUnit := UInt16
abbrev JsString := List CodeUnit
abbrev Byte := UInt8

instance : LawfulBEq JsString := List.instLawfulBEq

/-- The code units of one code point. -/
def utf16 (cp : Nat) : JsString :=
  if cp < 0x10000 then [UInt16.ofNat cp]
  else [UInt16.ofNat (0xD800 + (cp - 0x10000) / 0x400), UInt16.ofNat (0xDC00 + (cp - 0x10000) % 0x400)]

/-- A string literal of the source. -/
def js (s : String) : JsString := s.toList.flatMap (fun c => utf16 c.toNat)

def isHighSurrogate (u : CodeUnit) : Bool := 0xD800 ≤ u.toNat && u.toNat ≤ 0xDBFF

def isLowSurrogate (u : CodeUnit) : Bool := 0xDC00 ≤ u.toNat && u.toNat ≤ 0xDFFF

/-- The code point a high and a low surrogate stand for together. -/
def pairValue (hi lo : CodeUnit) : Nat :=
  0x10000 + (hi.toNat - 0xD800) * 0x400 + (lo.toNat - 0xDC00)

/-- The code points of a string, in order. A surrogate without its partner is a
code point of its own, as for the `String` iterator. -/
def codePoints : JsString → List Nat
  | [] => []
  | [c] => [c.toNat]
  | c :: d :: rest =>
    if isHighSurrogate c && isLowSurrogate d then pairValue c d :: codePoints rest
    else c.toNat :: codePoints (d :: rest)

def IsSurrogate (cp : Nat) : Prop := 0xD800 ≤ cp ∧ cp ≤ 0xDFFF

instance (cp : Nat) : Decidable (IsSurrogate cp) := inferInstanceAs (Decidable (_ ∧ _))

/-- A code point an encoder writes as it stands. -/
def IsScalar (cp : Nat) : Prop := cp < 0x110000 ∧ ¬ IsSurrogate cp

instance (cp : Nat) : Decidable (IsScalar cp) := inferInstanceAs (Decidable (_ ∧ _))

/-- No surrogate stands alone (`String.prototype.isWellFormed`). -/
def WellFormed (s : JsString) : Prop := ∀ cp ∈ codePoints s, ¬ IsSurrogate cp

instance (s : JsString) : Decidable (WellFormed s) := List.decidableBAll _ _

def IsAscii (s : JsString) : Prop := ∀ u ∈ s, u.toNat < 0x80

instance (s : JsString) : Decidable (IsAscii s) := List.decidableBAll _ _

theorem codeUnit_ext {u v : CodeUnit} (h : u.toNat = v.toNat) : u = v := UInt16.toNat_inj.mp h

theorem pairValue_bounds {hi lo : CodeUnit} (hh : isHighSurrogate hi = true)
    (hl : isLowSurrogate lo = true) : 0x10000 ≤ pairValue hi lo ∧ pairValue hi lo < 0x110000 := by
  simp only [isHighSurrogate, isLowSurrogate, Bool.and_eq_true, decide_eq_true_eq] at hh hl
  unfold pairValue
  omega

theorem utf16_toNat (u : CodeUnit) : utf16 u.toNat = [u] := by
  simp [utf16, u.toNat_lt]

theorem utf16_pairValue {hi lo : CodeUnit} (hh : isHighSurrogate hi = true)
    (hl : isLowSurrogate lo = true) : utf16 (pairValue hi lo) = [hi, lo] := by
  have hb := pairValue_bounds hh hl
  simp only [isHighSurrogate, isLowSurrogate, Bool.and_eq_true, decide_eq_true_eq] at hh hl
  have h1 : 0xD800 + (pairValue hi lo - 0x10000) / 0x400 = hi.toNat := by unfold pairValue; omega
  have h2 : 0xDC00 + (pairValue hi lo - 0x10000) % 0x400 = lo.toNat := by unfold pairValue; omega
  rw [utf16, if_neg (by omega), h1, h2, UInt16.ofNat_toNat, UInt16.ofNat_toNat]

theorem codePoints_pair {c d : CodeUnit} (hc : isHighSurrogate c = true) (hd : isLowSurrogate d = true)
    (rest : JsString) : codePoints (c :: d :: rest) = pairValue c d :: codePoints rest := by
  simp [codePoints, hc, hd]

theorem codePoints_cons_of_not_high {c : CodeUnit} (hc : isHighSurrogate c = false) (s : JsString) :
    codePoints (c :: s) = c.toNat :: codePoints s := by
  cases s with
  | nil => rfl
  | cons d rest => simp [codePoints, hc]

/-- Code points lose nothing: writing each one back as code units gives the string. -/
theorem utf16_codePoints (s : JsString) : (codePoints s).flatMap utf16 = s := by
  induction s using codePoints.induct with
  | case1 => rfl
  | case2 c => simp [codePoints, utf16_toNat]
  | case3 c d rest h ih =>
    simp only [Bool.and_eq_true] at h
    rw [codePoints_pair h.1 h.2, List.flatMap_cons, ih, utf16_pairValue h.1 h.2]
    rfl
  | case4 c d rest h ih =>
    rw [codePoints, if_neg h, List.flatMap_cons, ih, utf16_toNat]
    rfl

/-- Reading the code units of a scalar gives it back, whatever follows. -/
theorem codePoints_utf16_append {cp : Nat} (h : IsScalar cp) (s : JsString) :
    codePoints (utf16 cp ++ s) = cp :: codePoints s := by
  obtain ⟨hlt, hs⟩ := h
  have hs' : ¬ (0xD800 ≤ cp ∧ cp ≤ 0xDFFF) := hs
  rw [utf16]
  split
  · rename_i hsmall
    have hunit : (UInt16.ofNat cp).toNat = cp := by
      rw [UInt16.toNat_ofNat']
      omega
    have hhigh : isHighSurrogate (UInt16.ofNat cp) = false := by
      rw [isHighSurrogate, hunit, Bool.and_eq_false_iff, decide_eq_false_iff_not, decide_eq_false_iff_not]
      omega
    rw [List.singleton_append, codePoints_cons_of_not_high hhigh, hunit]
  · have hhi : (UInt16.ofNat (0xD800 + (cp - 0x10000) / 0x400)).toNat = 0xD800 + (cp - 0x10000) / 0x400 := by
      rw [UInt16.toNat_ofNat']
      omega
    have hlo : (UInt16.ofNat (0xDC00 + (cp - 0x10000) % 0x400)).toNat = 0xDC00 + (cp - 0x10000) % 0x400 := by
      rw [UInt16.toNat_ofNat']
      omega
    have hhigh : isHighSurrogate (UInt16.ofNat (0xD800 + (cp - 0x10000) / 0x400)) = true := by
      rw [isHighSurrogate, hhi, decide_eq_true (by omega), decide_eq_true (by omega)]
      rfl
    have hlow : isLowSurrogate (UInt16.ofNat (0xDC00 + (cp - 0x10000) % 0x400)) = true := by
      rw [isLowSurrogate, hlo, decide_eq_true (by omega), decide_eq_true (by omega)]
      rfl
    have hpair : pairValue (UInt16.ofNat (0xD800 + (cp - 0x10000) / 0x400))
        (UInt16.ofNat (0xDC00 + (cp - 0x10000) % 0x400)) = cp := by
      unfold pairValue
      omega
    exact (codePoints_pair hhigh hlow s).trans (congrArg (· :: codePoints s) hpair)

theorem codePoints_flatMap_utf16 {cps : List Nat} (h : ∀ cp ∈ cps, IsScalar cp) :
    codePoints (cps.flatMap utf16) = cps := by
  induction cps with
  | nil => rfl
  | cons cp rest ih =>
    rw [List.flatMap_cons, codePoints_utf16_append (h cp List.mem_cons_self),
      ih (fun c hc => h c (List.mem_cons_of_mem cp hc))]

theorem codePoints_lt (s : JsString) : ∀ cp ∈ codePoints s, cp < 0x110000 := by
  induction s using codePoints.induct with
  | case1 => simp [codePoints]
  | case2 c =>
    intro cp hcp
    have := c.toNat_lt
    simp only [codePoints, List.mem_singleton] at hcp
    omega
  | case3 c d rest h ih =>
    simp only [Bool.and_eq_true] at h
    intro cp hcp
    rw [codePoints_pair h.1 h.2] at hcp
    rcases List.mem_cons.mp hcp with he | hcp
    · rw [he]
      exact (pairValue_bounds h.1 h.2).2
    · exact ih cp hcp
  | case4 c d rest h ih =>
    intro cp hcp
    have := c.toNat_lt
    rw [codePoints, if_neg h] at hcp
    rcases List.mem_cons.mp hcp with rfl | hcp
    · omega
    · exact ih cp hcp

theorem WellFormed.scalar {s : JsString} (h : WellFormed s) : ∀ cp ∈ codePoints s, IsScalar cp :=
  fun cp hcp => ⟨codePoints_lt s cp hcp, h cp hcp⟩

theorem ascii_not_high {u : CodeUnit} (h : u.toNat < 0x80) : isHighSurrogate u = false := by
  have : ¬ 0xD800 ≤ u.toNat := by omega
  simp [isHighSurrogate, this]

theorem ascii_not_low {u : CodeUnit} (h : u.toNat < 0x80) : isLowSurrogate u = false := by
  have : ¬ 0xDC00 ≤ u.toNat := by omega
  simp [isLowSurrogate, this]

/-- A code unit below the surrogates cuts a string: what stands before it and
what stands after it are read apart. -/
theorem codePoints_append_ascii {u : CodeUnit} (hu : u.toNat < 0x80) (s t : JsString) :
    codePoints (s ++ u :: t) = codePoints s ++ u.toNat :: codePoints t := by
  induction s using codePoints.induct with
  | case1 => exact codePoints_cons_of_not_high (ascii_not_high hu) t
  | case2 c =>
    change codePoints (c :: u :: t) = c.toNat :: u.toNat :: codePoints t
    rw [codePoints, if_neg (by simp [ascii_not_low hu]),
      codePoints_cons_of_not_high (ascii_not_high hu)]
  | case3 c d rest h ih =>
    simp only [Bool.and_eq_true] at h
    change codePoints (c :: d :: (rest ++ u :: t)) = _
    rw [codePoints_pair h.1 h.2, codePoints_pair h.1 h.2, ih, List.cons_append]
  | case4 c d rest h ih =>
    change codePoints (c :: d :: (rest ++ u :: t)) = _
    rw [codePoints, if_neg h, codePoints, if_neg h]
    exact congrArg (c.toNat :: ·) ih

theorem codePoints_ascii {s : JsString} (h : IsAscii s) : codePoints s = s.map UInt16.toNat := by
  induction s with
  | nil => rfl
  | cons u s ih =>
    rw [codePoints_cons_of_not_high (ascii_not_high (h u (by simp))),
      ih (fun v hv => h v (by simp [hv])), List.map_cons]

/-- The part of a string from a code unit below the surrogates on is well formed
exactly when what follows that unit is. -/
theorem wellFormed_append_ascii {u : CodeUnit} (hu : u.toNat < 0x80) (s t : JsString) :
    WellFormed (s ++ u :: t) ↔ WellFormed s ∧ WellFormed t := by
  have hs : ¬ IsSurrogate u.toNat := fun h => by have := h.1; omega
  simp only [WellFormed, codePoints_append_ascii hu, List.mem_append, List.mem_cons]
  constructor
  · intro h
    exact ⟨fun cp hcp => h cp (Or.inl hcp), fun cp hcp => h cp (Or.inr (Or.inr hcp))⟩
  · rintro ⟨h1, h2⟩ cp (hcp | rfl | hcp)
    · exact h1 cp hcp
    · exact hs
    · exact h2 cp hcp

theorem IsAscii.wellFormed {s : JsString} (h : IsAscii s) : WellFormed s := by
  rw [WellFormed, codePoints_ascii h]
  intro cp hcp
  obtain ⟨u, hu, rfl⟩ := List.mem_map.mp hcp
  have := h u hu
  exact fun hsurrogate => by have := hsurrogate.1; omega

theorem IsAscii.append {s t : JsString} (hs : IsAscii s) (ht : IsAscii t) : IsAscii (s ++ t) :=
  fun u hu => (List.mem_append.mp hu).elim (hs u) (ht u)

end NestStorageExample.Text
