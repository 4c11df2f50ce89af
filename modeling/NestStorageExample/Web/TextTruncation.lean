import NestStorageExample.Web.TextLimit

/-! What `truncateToByteLength` leaves of a text: the longest part from its start, in whole
code points, whose bytes fit. -/
namespace NestStorageExample.Web
open Text

/-- `t` is a prefix of `s` that ends between two code points. -/
structure WholePrefix (t s : JsString) : Prop where
  starts : t <+: s
  whole : codePoints t <+: codePoints s

/-- U+FEFF, which a decoder takes for a byte order mark at the start of a text. -/
def zeroWidthNoBreakSpace : CodeUnit := 0xFEFF

/-- What a text is to be cut to. -/
structure LongestFittingPrefix (t s : JsString) (maxBytes : Nat) : Prop where
  isPrefix : WholePrefix t s
  fits : byteLength t ≤ maxBytes
  unchanged : byteLength s ≤ maxBytes → t = s
  longest : ∀ u, WholePrefix u s → byteLength u ≤ maxBytes → u.length ≤ t.length

theorem LongestFittingPrefix.length_unique {t t' s : JsString} {maxBytes : Nat} (h : LongestFittingPrefix t s maxBytes)
    (h' : LongestFittingPrefix t' s maxBytes) : t.length = t'.length :=
  Nat.le_antisymm (h'.longest t h.isPrefix h.fits) (h.longest t' h'.isPrefix h'.fits)

/-- The code units of the code points that the encoder takes. -/
def takenText (s : JsString) (maxBytes : Nat) : JsString := (fitting maxBytes (codePoints s)).flatMap utf16

theorem wellFormed_scalars {s : JsString} (h : WellFormed s) (maxBytes : Nat) :
    ∀ cp ∈ fitting maxBytes (codePoints s), IsScalar cp :=
  fun cp hcp => h.scalar cp ((fitting_isPrefix maxBytes (codePoints s)).subset hcp)

theorem codePoints_takenText {s : JsString} (h : WellFormed s) (maxBytes : Nat) :
    codePoints (takenText s maxBytes) = fitting maxBytes (codePoints s) :=
  codePoints_flatMap_utf16 (wellFormed_scalars h maxBytes)

theorem takenText_longest {s : JsString} (h : WellFormed s) (maxBytes : Nat) :
    LongestFittingPrefix (takenText s maxBytes) s maxBytes where
  isPrefix := by
    have hprefix := fitting_isPrefix maxBytes (codePoints s)
    refine ⟨?_, by rwa [codePoints_takenText h]⟩
    have hunits := hprefix.flatMap utf16
    rwa [utf16_codePoints] at hunits
  fits := by
    have hbytes := fitting_length_le maxBytes (codePoints s)
    rw [← codePoints_takenText h] at hbytes
    exact hbytes
  unchanged hfits := by
    rw [takenText, (fitting_eq_self_iff maxBytes (codePoints s)).mpr hfits, utf16_codePoints]
  longest u hu hbytes := by
    have hprefix := (isPrefix_fitting hu.whole hbytes).flatMap utf16
    rw [utf16_codePoints] at hprefix
    exact hprefix.length_le

/-- A text that does not fit comes back as what was taken, without U+FEFF at its start. -/
theorem truncateToByteLength_of_overflow {s : JsString} (h : WellFormed s) {maxBytes : Nat}
    (hover : ¬ byteLength s ≤ maxBytes) : truncateToByteLength s maxBytes =
      if (fitting maxBytes (codePoints s)).head? = some 0xFEFF then (fitting maxBytes (codePoints s)).tail.flatMap utf16
      else takenText s maxBytes := by
  unfold truncateToByteLength
  dsimp only
  rw [if_neg (fun hread => hover ((read_eq_length_iff s maxBytes).mp hread))]
  change decodeText ((fitting maxBytes (codePoints s)).flatMap encodedBytes) = _
  rw [decodeText_encoded (wellFormed_scalars h maxBytes)]
  split <;> rfl

theorem head_codePoints_iff (s : JsString) :
    (codePoints s).head? = some 0xFEFF ↔ s.head? = some zeroWidthNoBreakSpace := by
  cases s with
  | nil => exact iff_of_false nofun nofun
  | cons c rest =>
    have hunit : c = zeroWidthNoBreakSpace ↔ c.toNat = 0xFEFF :=
      ⟨fun h => by rw [h]; rfl, fun h => codeUnit_ext (h.trans rfl)⟩
    rw [List.head?_cons, Option.some.injEq, hunit]
    cases rest with
    | nil => simp [codePoints]
    | cons d rest =>
      rw [codePoints]
      split
      · rename_i hpair
        -- a pair stands for a code point above, and its first half is no U+FEFF
        simp only [Bool.and_eq_true] at hpair
        have hvalue := (pairValue_bounds hpair.1 hpair.2).1
        have hhigh := hpair.1
        simp only [isHighSurrogate, Bool.and_eq_true, decide_eq_true_eq] at hhigh
        rw [List.head?_cons, Option.some.injEq]
        omega
      · rw [List.head?_cons, Option.some.injEq]

/-- The encoder takes U+FEFF at the start where its three bytes fit. -/
theorem fitting_head_iff (s : JsString) (maxBytes : Nat) : (fitting maxBytes (codePoints s)).head? = some 0xFEFF ↔
    s.head? = some zeroWidthNoBreakSpace ∧ 3 ≤ maxBytes := by
  have hmark : (encodedBytes 0xFEFF).length = 3 := by decide
  rw [← head_codePoints_iff]
  cases codePoints s with
  | nil => simp [fitting]
  | cons cp rest =>
    rw [fitting, List.head?_cons, Option.some.injEq]
    split
    · rename_i hroom
      rw [List.head?_cons, Option.some.injEq, iff_self_and]
      rintro rfl
      rwa [hmark] at hroom
    · rename_i hroom
      constructor
      · intro hnone
        cases hnone
      · intro h
        rw [h.1, hmark] at hroom
        exact absurd h.2 hroom

theorem truncateToByteLength_ascii {s : JsString} (h : IsAscii s) (maxBytes : Nat) :
    truncateToByteLength s maxBytes = s.take maxBytes := by
  by_cases hfits : byteLength s ≤ maxBytes
  · rw [(truncateToByteLength_eq_self_iff h.wellFormed maxBytes).mpr hfits]
    rw [byteLength_ascii h] at hfits
    exact (List.take_of_length_le hfits).symm
  · have hascii : ∀ cp ∈ s.map UInt16.toNat, cp < 0x80 := List.forall_mem_map.mpr h
    have htake : IsAscii (s.take maxBytes) := fun u hu => h u (List.mem_of_mem_take hu)
    have hhead : ¬ (fitting maxBytes (codePoints s)).head? = some 0xFEFF := by
      intro hmark
      have hmem := List.mem_of_head? ((fitting_head_iff s maxBytes).mp hmark).1
      exact absurd (h _ hmem) (by decide)
    rw [truncateToByteLength_of_overflow h.wellFormed hfits, if_neg hhead, takenText, codePoints_ascii h,
      fitting_ascii hascii, ← List.map_take, ← codePoints_ascii htake, utf16_codePoints]

/-- The truncation keeps its promise unless the text overflows, starts with U+FEFF and the
limit leaves room for that. -/
theorem truncation_longest_iff {s : JsString} (h : WellFormed s) (maxBytes : Nat) :
    LongestFittingPrefix (truncateToByteLength s maxBytes) s maxBytes ↔
      byteLength s ≤ maxBytes ∨ s.head? ≠ some zeroWidthNoBreakSpace ∨ maxBytes < 3 := by
  have htaken := takenText_longest h maxBytes
  by_cases hfits : byteLength s ≤ maxBytes
  · refine iff_of_true ?_ (Or.inl hfits)
    rw [htaken.unchanged hfits] at htaken
    rwa [(truncateToByteLength_eq_self_iff h maxBytes).mpr hfits]
  · have hmark := fitting_head_iff s maxBytes
    rw [truncateToByteLength_of_overflow h hfits]
    split
    · rename_i hhead
      obtain ⟨hstart, hthree⟩ := hmark.mp hhead
      apply iff_of_false
      · -- what comes back is shorter than what fits
        intro hlongest
        have hlength := hlongest.length_unique htaken
        rw [takenText] at hlength
        cases htext : fitting maxBytes (codePoints s) with
        | nil =>
          rw [htext] at hhead
          cases hhead
        | cons cp rest =>
          have hpos := utf16_length_pos cp
          rw [htext, List.tail_cons, List.flatMap_cons, List.length_append] at hlength
          omega
      · rintro (hfits' | hstart' | hthree')
        · exact hfits hfits'
        · exact hstart' hstart
        · omega
    · rename_i hhead
      refine iff_of_true htaken (Or.inr ?_)
      by_contra hnot
      rw [not_or, not_not, Nat.not_lt] at hnot
      exact hhead (hmark.mpr hnot)

theorem hello_longest : LongestFittingPrefix (truncateToByteLength (js "hello") 3) (js "hello") 3 :=
  (truncation_longest_iff (by decide) 3).mpr (Or.inr (Or.inl (by decide)))

/-- Four bytes hold U+FEFF and one letter; only the letter comes back. -/
theorem marked_text_loses_mark : WellFormed [0xFEFF, 0x61, 0x62] ∧
    truncateToByteLength [0xFEFF, 0x61, 0x62] 4 = [0x61] ∧ WholePrefix [0xFEFF, 0x61] [0xFEFF, 0x61, 0x62] ∧
      byteLength [0xFEFF, 0x61] = 4 ∧
      ¬ LongestFittingPrefix (truncateToByteLength [0xFEFF, 0x61, 0x62] 4) [0xFEFF, 0x61, 0x62] 4 := by
  refine ⟨by decide, by decide, ⟨by decide, by decide⟩, by decide, ?_⟩
  intro hlongest
  exact absurd hlongest.isPrefix.starts (by decide)

end NestStorageExample.Web
