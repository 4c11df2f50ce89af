import NestStorageExample.Text.Utf8
import NestStorageExample.Text.Segments

/-! `encodeURIComponent`, and the percent-decoding by which a URL path is read. -/
namespace NestStorageExample.Text

/-- `A-Z a-z 0-9 - _ . ! ~ * ' ( )`. -/
def isUnreserved (cp : Nat) : Bool :=
  (0x41 ≤ cp && cp ≤ 0x5A) || (0x61 ≤ cp && cp ≤ 0x7A) || (0x30 ≤ cp && cp ≤ 0x39) ||
    [0x2D, 0x5F, 0x2E, 0x21, 0x7E, 0x2A, 0x27, 0x28, 0x29].contains cp

def percentSign : CodeUnit := 0x25

def hexDigit (n : Nat) : CodeUnit := UInt16.ofNat (if n < 10 then 0x30 + n else 0x37 + n)

def percentEncodeByte (b : Byte) : JsString :=
  [percentSign, hexDigit (b.toNat / 16), hexDigit (b.toNat % 16)]

def encodeCodePoint (cp : Nat) : JsString :=
  if isUnreserved cp then [UInt16.ofNat cp] else (utf8CodePoint cp).flatMap percentEncodeByte

/-- `encodeURIComponent(s)`; `none` is the `URIError` a lone surrogate throws. -/
def encodeURIComponent (s : JsString) : Option JsString :=
  if WellFormed s then some ((codePoints s).flatMap encodeCodePoint) else none

def hexValue (b : Byte) : Option Nat :=
  if 0x30 ≤ b.toNat ∧ b.toNat ≤ 0x39 then some (b.toNat - 0x30)
  else if 0x41 ≤ b.toNat ∧ b.toNat ≤ 0x46 then some (b.toNat - 0x37)
  else if 0x61 ≤ b.toNat ∧ b.toNat ≤ 0x66 then some (b.toNat - 0x57)
  else none

/-- The byte an escape `%hl` stands for. -/
def escapeValue (b h l : Byte) : Option Byte :=
  if b.toNat = 0x25 then
    (hexValue h).bind fun high => (hexValue l).map fun low => UInt8.ofNat (16 * high + low)
  else none

def percentDecodeBytes : List Byte → List Byte
  | b :: h :: l :: rest =>
    match escapeValue b h l with
    | some v => v :: percentDecodeBytes rest
    | none => b :: percentDecodeBytes (h :: l :: rest)
  | bs => bs

/-- What a percent-encoded path segment names. -/
def percentDecode (s : JsString) : JsString := decodeUtf8 (percentDecodeBytes (encodeUtf8 s))

theorem hexDigit_toNat {n : Nat} (h : n < 16) :
    (hexDigit n).toNat = if n < 10 then 0x30 + n else 0x37 + n := by
  unfold hexDigit
  rw [UInt16.toNat_ofNat_of_lt']
  split <;> simp [UInt16.size] <;> omega

theorem isUnreserved_spec {cp : Nat} (h : isUnreserved cp = true) :
    cp < 0x80 ∧ cp ≠ 0x25 ∧ cp ≠ 0x2F := by
  simp only [isUnreserved, Bool.or_eq_true, Bool.and_eq_true, decide_eq_true_eq, List.contains_eq_mem,
    List.mem_cons, List.not_mem_nil, or_false] at h
  omega

theorem isUnreserved_hexDigit {n : Nat} (h : n < 16) : isUnreserved (hexDigit n).toNat = true := by
  simp only [isUnreserved, Bool.or_eq_true, Bool.and_eq_true, decide_eq_true_eq]
  have hd := hexDigit_toNat h
  split at hd
  · exact Or.inl (Or.inr ⟨by omega, by omega⟩)
  · exact Or.inl (Or.inl (Or.inl ⟨by omega, by omega⟩))

/-- What an encoded code point is written with. -/
theorem encodeCodePoint_units (cp : Nat) : ∀ u ∈ encodeCodePoint cp, isUnreserved u.toNat = true ∨ u = percentSign := by
  intro u hu
  unfold encodeCodePoint at hu
  split at hu
  · rename_i h
    have hs := isUnreserved_spec h
    have hn : (UInt16.ofNat cp).toNat = cp := UInt16.toNat_ofNat_of_lt' (by simp only [UInt16.size]; omega)
    rw [List.mem_singleton.mp hu, hn]
    exact Or.inl h
  · obtain ⟨b, -, hb⟩ := List.mem_flatMap.mp hu
    have hlt := b.toNat_lt
    simp only [percentEncodeByte, List.mem_cons, List.not_mem_nil, or_false] at hb
    rcases hb with rfl | rfl | rfl
    · exact Or.inr rfl
    · exact Or.inl (isUnreserved_hexDigit (by omega))
    · exact Or.inl (isUnreserved_hexDigit (by omega))

theorem encodeURIComponent_unreserved {s e : JsString} (h : encodeURIComponent s = some e) :
    ∀ u ∈ e, isUnreserved u.toNat = true ∨ u = percentSign := by
  unfold encodeURIComponent at h
  split at h
  · cases h
    intro u hu
    obtain ⟨cp, -, hcp⟩ := List.mem_flatMap.mp hu
    exact encodeCodePoint_units cp u hcp
  · cases h

/-- An encoded component is ASCII, and there is no slash in it. -/
theorem encodeURIComponent_units {s e : JsString} (h : encodeURIComponent s = some e) :
    ∀ u ∈ e, u.toNat < 0x80 ∧ u ≠ slash := by
  intro u hu
  rcases encodeURIComponent_unreserved h u hu with hu | rfl
  · have hs := isUnreserved_spec hu
    refine ⟨hs.1, ?_⟩
    rintro rfl
    exact hs.2.2 rfl
  · exact ⟨by decide, by decide⟩

theorem encodeURIComponent_isSome (s : JsString) : (encodeURIComponent s).isSome = true ↔ WellFormed s := by
  unfold encodeURIComponent
  split <;> simp_all

private theorem hexValue_hexDigit {n : Nat} (h : n < 16) :
    hexValue (UInt8.ofNat (hexDigit n).toNat) = some n := by
  have hd := hexDigit_toNat h
  rw [hexValue, UInt8.toNat_ofNat_of_lt' (by rw [hd]; simp only [UInt8.size]; split <;> omega), hd]
  split
  · rw [if_pos (by omega), Nat.add_sub_cancel_left]
  · rw [if_neg (by omega), if_pos (by omega), Nat.add_sub_cancel_left]

/-- Reading an escape gives back the byte it was written for. -/
theorem percentDecodeBytes_escape (b : Byte) (rest : List Byte) :
    percentDecodeBytes ((percentEncodeByte b).map (fun u => UInt8.ofNat u.toNat) ++ rest) =
      b :: percentDecodeBytes rest := by
  have hlt := b.toNat_lt
  have hv : escapeValue (UInt8.ofNat percentSign.toNat) (UInt8.ofNat (hexDigit (b.toNat / 16)).toNat)
      (UInt8.ofNat (hexDigit (b.toNat % 16)).toNat) = some b := by
    rw [escapeValue, if_pos (by decide), hexValue_hexDigit (by omega), hexValue_hexDigit (by omega)]
    change some (UInt8.ofNat (16 * (b.toNat / 16) + b.toNat % 16)) = some b
    rw [Nat.div_add_mod, UInt8.ofNat_toNat]
  simp only [percentEncodeByte, List.map_cons, List.map_nil, List.cons_append, List.nil_append]
  rw [percentDecodeBytes, hv]

theorem percentDecodeBytes_cons {b : Byte} (hb : b.toNat ≠ 0x25) (rest : List Byte) :
    percentDecodeBytes (b :: rest) = b :: percentDecodeBytes rest := by
  match rest with
  | [] => rfl
  | [h] => rfl
  | h :: l :: rest => rw [percentDecodeBytes, escapeValue, if_neg hb]

private theorem percentDecodeBytes_codePoint (cp : Nat) (rest : List Byte) :
    percentDecodeBytes ((encodeCodePoint cp).map (fun u => UInt8.ofNat u.toNat) ++ rest) =
      utf8CodePoint cp ++ percentDecodeBytes rest := by
  unfold encodeCodePoint
  split
  · rename_i h
    have hs := isUnreserved_spec h
    have hu : (UInt16.ofNat cp).toNat = cp := UInt16.toNat_ofNat_of_lt' (by simp only [UInt16.size]; omega)
    have hb : (UInt8.ofNat cp).toNat = cp := UInt8.toNat_ofNat_of_lt' (by simp only [UInt8.size]; omega)
    simp only [List.map_cons, List.map_nil, List.singleton_append, hu]
    rw [percentDecodeBytes_cons (by omega), utf8CodePoint, if_pos hs.1]
    rfl
  · generalize utf8CodePoint cp = bytes
    induction bytes with
    | nil => rfl
    | cons b bytes ih =>
      rw [List.flatMap_cons, List.map_append, List.append_assoc, percentDecodeBytes_escape, ih, List.cons_append]

/-- A component the encoder accepts is what its encoding decodes to. -/
theorem percentDecode_encodeURIComponent {s e : JsString} (h : encodeURIComponent s = some e) :
    percentDecode e = s := by
  have hascii : IsAscii e := fun u hu => (encodeURIComponent_units h u hu).1
  have hwf : WellFormed s := (encodeURIComponent_isSome s).mp (by rw [h]; rfl)
  rw [encodeURIComponent, if_pos hwf, Option.some.injEq] at h
  have hrun (cps : List Nat) (hc : ∀ cp ∈ cps, IsScalar cp) :
      percentDecodeBytes ((cps.flatMap encodeCodePoint).map (fun u => UInt8.ofNat u.toNat)) =
        cps.flatMap (fun cp => utf8CodePoint (if IsSurrogate cp then replacement else cp)) := by
    induction cps with
    | nil => rfl
    | cons cp cps ih =>
      rw [List.flatMap_cons, List.flatMap_cons, List.map_append, percentDecodeBytes_codePoint,
        ih (fun c hcs => hc c (by simp [hcs])), if_neg (hc cp (by simp)).2]
  calc
    percentDecode e = decodeUtf8 (percentDecodeBytes (e.map (fun u => UInt8.ofNat u.toNat))) := by
      rw [percentDecode, encodeUtf8_ascii hascii]
    _ = decodeUtf8 (encodeUtf8 s) := by rw [← h, hrun _ hwf.scalar, encodeUtf8]
    _ = s := decodeUtf8_encodeUtf8 hwf

end NestStorageExample.Text
