import NestStorageExample.Api.StorageConfig

/-! The PDF validator against the signature itself: it compares text that was decoded as
ASCII, and that decoding forgets the top bit of every byte. -/
namespace NestStorageExample.Api
open Text

/-- `%PDF` in bytes. -/
def pdfSignature : List Byte := [0x25, 0x50, 0x44, 0x46]

/-- An upload declared as a PDF, with a peek that returns its leading bytes. -/
def declaredPdf (body : List Byte) : ValidatorContext :=
  ⟨js "application/pdf", some (fun n => body.take n)⟩

/-- The first four bytes spell the signature in their low seven bits, and some of them has its
top bit set. -/
def ForgedByTopBit (body : List Byte) : Prop :=
  (body.take 4).map (· &&& 0x7F) = pdfSignature ∧ ∃ byte ∈ body.take 4, 0x80 ≤ byte.toNat

instance (body : List Byte) : Decidable (ForgedByTopBit body) := inferInstanceAs (Decidable (_ ∧ _))

theorem lowBits_toNat (byte : Byte) : (byte &&& 0x7F).toNat = byte.toNat % 0x80 := by
  rw [UInt8.toNat_and]
  exact Nat.and_two_pow_sub_one_eq_mod byte.toNat 7

theorem lowBits_eq_self_iff (byte : Byte) : byte &&& 0x7F = byte ↔ byte.toNat < 0x80 := by
  rw [← UInt8.toNat_inj, lowBits_toNat]
  omega

/-- Decoded texts are equal exactly when the bytes agree in their low seven bits. -/
theorem asciiText_eq_iff (bytes bytes' : List Byte) :
    asciiText bytes = asciiText bytes' ↔ bytes.map (· &&& 0x7F) = bytes'.map (· &&& 0x7F) := by
  have hinjective : Function.Injective UInt8.toUInt16 := fun a b h => UInt8.toUInt16_inj.mp h
  have hmap (bytes : List Byte) : asciiText bytes = (bytes.map (· &&& 0x7F)).map UInt8.toUInt16 := by
    rw [asciiText, List.map_map]
    rfl
  rw [hmap, hmap, (List.map_injective_iff.mpr hinjective).eq_iff]

/-- The decoding keeps apart what has no top bit set. -/
theorem map_lowBits_eq_self_iff (bytes : List Byte) :
    bytes.map (· &&& 0x7F) = bytes ↔ ∀ byte ∈ bytes, byte.toNat < 0x80 := by
  have hmap := @List.map_inj_left _ _ bytes (· &&& 0x7F) id
  rw [List.map_id] at hmap
  rw [hmap]
  exact forall₂_congr (fun byte _ => lowBits_eq_self_iff byte)

theorem declaredPdf_accepted_iff (body : List Byte) : PdfMagicByteValidator.validate (declaredPdf body) = .ok ↔
    (body.take 4).map (· &&& 0x7F) = pdfSignature := by
  have hmagic : PdfMagicByteValidator.pdfMagic = asciiText pdfSignature := by decide
  have hsignature : pdfSignature.map (· &&& 0x7F) = pdfSignature := by decide
  rw [PdfMagicByteValidator.validate_eq_ok_iff, hmagic]
  constructor
  · intro h
    have hpeek := h rfl _ rfl
    rwa [asciiText_eq_iff, hsignature] at hpeek
  · rintro h - readBytes hpeek
    cases hpeek
    rw [asciiText_eq_iff, hsignature]
    exact h

theorem startsWithSignature_iff (body : List Byte) : pdfSignature <+: body ↔ body.take 4 = pdfSignature := by
  rw [List.prefix_iff_eq_take, eq_comm]
  rfl

/-- The validator recognises the signature except in bodies whose first bytes hide it behind
their top bits. -/
theorem pdf_recognised_iff (body : List Byte) :
    (PdfMagicByteValidator.validate (declaredPdf body) = .ok ↔ pdfSignature <+: body) ↔ ¬ ForgedByTopBit body := by
  rw [declaredPdf_accepted_iff, startsWithSignature_iff]
  have hplain : pdfSignature.map (· &&& 0x7F) = pdfSignature := by decide
  rw [ForgedByTopBit, not_and, not_exists]
  simp only [not_and, Nat.not_le]
  rw [← map_lowBits_eq_self_iff]
  constructor
  · intro hsame hlow
    rw [hlow, hsame.mp hlow]
  · intro hself
    constructor
    · intro hlow
      rw [← hlow, hself hlow]
    · intro hsignature
      rw [hsignature, hplain]

/-- A5 50 44 46 decodes to `%PDF`. -/
theorem forged_pdf_accepted : PdfMagicByteValidator.validate (declaredPdf [0xA5, 0x50, 0x44, 0x46]) = .ok ∧
    ¬ (PdfMagicByteValidator.validate (declaredPdf [0xA5, 0x50, 0x44, 0x46]) = .ok ↔
      pdfSignature <+: [0xA5, 0x50, 0x44, 0x46]) := by
  have haccepted := (declaredPdf_accepted_iff [0xA5, 0x50, 0x44, 0x46]).mpr (by decide)
  exact ⟨haccepted, fun h => absurd (h.mp haccepted) (by decide)⟩

end NestStorageExample.Api
