import NestStorageExample.Text.Utf8

/-! `TextEncoder` writing into a buffer of fixed size, and `TextDecoder`. The encoder stops
in front of the first code point that does not fit whole. -/
namespace NestStorageExample.Text

/-- The bytes an encoder writes for a code point. -/
def encodedBytes (cp : Nat) : List Byte := utf8CodePoint (if IsSurrogate cp then replacement else cp)

/-- The code points that fit into `room` bytes, from the first on. -/
def fitting : Nat → List Nat → List Nat
  | _, [] => []
  | room, cp :: rest =>
    if (encodedBytes cp).length ≤ room then cp :: fitting (room - (encodedBytes cp).length) rest else []

structure EncodeIntoResult where
  /-- code units of the source -/
  read : Nat
  written : List Byte

/-- `new TextEncoder().encodeInto(s, new Uint8Array(room))` -/
def encodeInto (s : JsString) (room : Nat) : EncodeIntoResult :=
  let taken := fitting room (codePoints s)
  ⟨(taken.flatMap utf16).length, taken.flatMap encodedBytes⟩

def byteOrderMark : List Byte := [0xEF, 0xBB, 0xBF]

/-- `new TextDecoder().decode(bytes)`, which drops a byte order mark at the start. -/
def decodeText (bytes : List Byte) : JsString :=
  decodeUtf8 (if byteOrderMark <+: bytes then bytes.drop byteOrderMark.length else bytes)

theorem fitting_isPrefix (room : Nat) (cps : List Nat) : fitting room cps <+: cps := by
  induction cps generalizing room with
  | nil => exact List.prefix_refl []
  | cons cp rest ih =>
    rw [fitting]
    split
    · exact List.cons_prefix_cons.mpr ⟨rfl, ih _⟩
    · exact List.nil_prefix

theorem fitting_length_le (room : Nat) (cps : List Nat) : ((fitting room cps).flatMap encodedBytes).length ≤ room := by
  induction cps generalizing room with
  | nil => exact Nat.zero_le room
  | cons cp rest ih =>
    rw [fitting]
    split
    · have hrest := ih (room - (encodedBytes cp).length)
      rw [List.flatMap_cons, List.length_append]
      omega
    · exact Nat.zero_le room

/-- One byte for each, as far as there is room. -/
theorem fitting_ascii {cps : List Nat} (h : ∀ cp ∈ cps, cp < 0x80) (room : Nat) : fitting room cps = cps.take room := by
  induction cps generalizing room with
  | nil => rw [fitting, List.take_nil]
  | cons cp rest ih =>
    obtain ⟨hcp, hrest⟩ := List.forall_mem_cons.mp h
    have hsurrogate : ¬ IsSurrogate cp := fun hs => by have := hs.1; omega
    have hbyte : (encodedBytes cp).length = 1 := by
      rw [encodedBytes, if_neg hsurrogate, utf8CodePoint, if_pos hcp]
      rfl
    rw [fitting, hbyte, ih hrest]
    cases room with
    | zero => rfl
    | succ room => rw [if_pos (Nat.le_add_left 1 room), Nat.add_sub_cancel, List.take_succ_cons]

/-- Everything fits exactly when the whole encoding does. -/
theorem fitting_eq_self_iff (room : Nat) (cps : List Nat) :
    fitting room cps = cps ↔ (cps.flatMap encodedBytes).length ≤ room := by
  constructor
  · intro h
    have hle := fitting_length_le room cps
    rwa [h] at hle
  · intro h
    induction cps generalizing room with
    | nil => rfl
    | cons cp rest ih =>
      rw [List.flatMap_cons, List.length_append] at h
      rw [fitting, if_pos (by omega), ih _ (by omega)]

/-- No further code point fits: what starts the text and fits starts what was taken. -/
theorem isPrefix_fitting {room : Nat} {taken cps : List Nat} (h : taken <+: cps)
    (hroom : (taken.flatMap encodedBytes).length ≤ room) : taken <+: fitting room cps := by
  induction cps generalizing room taken with
  | nil => exact h
  | cons cp rest ih =>
    cases taken with
    | nil => exact List.nil_prefix
    | cons cp' taken =>
      obtain ⟨rfl, hrest⟩ := List.cons_prefix_cons.mp h
      rw [List.flatMap_cons, List.length_append] at hroom
      rw [fitting, if_pos (by omega)]
      exact List.cons_prefix_cons.mpr ⟨rfl, ih hrest (by omega)⟩

theorem utf16_length_pos (cp : Nat) : 0 < (utf16 cp).length := by
  unfold utf16
  split <;> simp

theorem utf8CodePoint_length_pos (cp : Nat) : 0 < (utf8CodePoint cp).length := by
  unfold utf8CodePoint
  split_ifs <;> simp

/-- A code point takes at least as many bytes as code units. -/
theorem utf16_length_le (cp : Nat) : (utf16 cp).length ≤ (encodedBytes cp).length := by
  rw [utf16]
  split
  · exact utf8CodePoint_length_pos _
  · rename_i hlarge
    have hscalar : ¬ IsSurrogate cp := fun h => by have := h.2; omega
    rw [encodedBytes, if_neg hscalar, utf8CodePoint, if_neg (by omega), if_neg (by omega), if_neg hlarge]
    exact Nat.le_add_left 2 2

theorem flatMap_utf16_length_le (cps : List Nat) :
    (cps.flatMap utf16).length ≤ (cps.flatMap encodedBytes).length := by
  induction cps with
  | nil => exact Nat.le_refl 0
  | cons cp rest ih =>
    have hcp := utf16_length_le cp
    rw [List.flatMap_cons, List.flatMap_cons, List.length_append, List.length_append]
    omega

theorem length_le_byteLength (s : JsString) : s.length ≤ byteLength s := by
  have hle := flatMap_utf16_length_le (codePoints s)
  rwa [utf16_codePoints] at hle

/-- A code unit takes three bytes at most. -/
theorem byteLength_le_length (s : JsString) : byteLength s ≤ 3 * s.length := by
  have hcp (cp : Nat) : (encodedBytes cp).length ≤ 3 * (utf16 cp).length := by
    rw [encodedBytes, utf16]
    by_cases hsurrogate : IsSurrogate cp
    · have hunit : cp < 0x10000 := Nat.lt_of_le_of_lt hsurrogate.2 (by decide)
      rw [if_pos hsurrogate, if_pos hunit]
      exact Nat.le_refl 3
    · rw [if_neg hsurrogate, utf8CodePoint]
      split_ifs <;> simp
  have hcps (cps : List Nat) : (cps.flatMap encodedBytes).length ≤ 3 * (cps.flatMap utf16).length := by
    induction cps with
    | nil => exact Nat.le_refl 0
    | cons cp cps ih =>
      have hfirst := hcp cp
      rw [List.flatMap_cons, List.flatMap_cons, List.length_append, List.length_append]
      omega
  have hle := hcps (codePoints s)
  rwa [utf16_codePoints] at hle

/-- Only a sequence of three bytes starts like a byte order mark. -/
theorem encodedBytes_of_byteOrderMark {cp : Nat} (h : IsScalar cp) {bytes : List Byte}
    (hmark : byteOrderMark <+: encodedBytes cp ++ bytes) : encodedBytes cp = byteOrderMark := by
  obtain ⟨hlt, hs⟩ := h
  have hfirst : (encodedBytes cp ++ bytes).head? = some 0xEF := by
    obtain ⟨rest, heq⟩ := hmark
    rw [← heq]
    rfl
  have hbyte {n : Nat} (hn : n < 0x100) (hne : n ≠ 0xEF) : UInt8.ofNat n ≠ 0xEF := by
    intro h
    have hvalue := congrArg UInt8.toNat h
    rw [UInt8.toNat_ofNat', Nat.mod_eq_of_lt hn] at hvalue
    exact hne hvalue
  have hlength : (encodedBytes cp).length = byteOrderMark.length := by
    rw [encodedBytes, if_neg hs] at hfirst ⊢
    unfold utf8CodePoint at hfirst ⊢
    split_ifs at hfirst ⊢ with h1 h2 h3
    · exact absurd (Option.some.inj hfirst) (hbyte (by omega) (by omega))
    · exact absurd (Option.some.inj hfirst) (hbyte (by omega) (by omega))
    · rfl
    · exact absurd (Option.some.inj hfirst) (hbyte (by omega) (by omega))
  exact ((List.prefix_of_prefix_length_le hmark (List.prefix_append _ _) hlength.ge).eq_of_length hlength.symm).symm

/-- An encoding that starts with a byte order mark starts with U+FEFF. -/
theorem byteOrderMark_isPrefix {cp : Nat} (h : IsScalar cp) {bytes : List Byte}
    (hmark : byteOrderMark <+: encodedBytes cp ++ bytes) :
    (encodedBytes cp ++ bytes).drop byteOrderMark.length = bytes := by
  rw [← encodedBytes_of_byteOrderMark h hmark]
  exact List.drop_left

theorem codePoint_of_byteOrderMark {cp : Nat} (h : IsScalar cp) {bytes : List Byte}
    (hmark : byteOrderMark <+: encodedBytes cp ++ bytes) : cp = 0xFEFF := by
  have hmarked : encodedBytes 0xFEFF = byteOrderMark := by decide
  have hdecode {c : Nat} (hc : IsScalar c) : decodeUtf8 (encodedBytes c) = utf16 c := by
    have hone := @decodeUtf8_scalars [c] (fun c' hc' => by rwa [List.mem_singleton.mp hc'])
    rwa [List.flatMap_singleton, List.flatMap_singleton] at hone
  have hunits : utf16 cp = utf16 0xFEFF := by
    rw [← hdecode h, encodedBytes_of_byteOrderMark h hmark, ← hmarked, hdecode (by decide)]
  have hcodes := congrArg (fun s => codePoints (s ++ [])) hunits
  simp only [codePoints_utf16_append h, codePoints_utf16_append (show IsScalar 0xFEFF by decide)] at hcodes
  exact (List.cons.inj hcodes).1

/-- Decoding what was encoded of scalars gives their code units, without U+FEFF at the start. -/
theorem decodeText_encoded {cps : List Nat} (h : ∀ cp ∈ cps, IsScalar cp) :
    decodeText (cps.flatMap encodedBytes) = (if cps.head? = some 0xFEFF then cps.tail else cps).flatMap utf16 := by
  have hdecode {rest : List Nat} (hrest : ∀ cp ∈ rest, IsScalar cp) :
      decodeUtf8 (rest.flatMap encodedBytes) = rest.flatMap utf16 := decodeUtf8_scalars hrest
  cases cps with
  | nil => rfl
  | cons cp rest =>
    have hrest : ∀ c ∈ rest, IsScalar c := fun c hc => h c (List.mem_cons_of_mem cp hc)
    have hcp := h cp List.mem_cons_self
    rw [decodeText, List.head?_cons, List.tail_cons]
    split
    · rename_i hmark
      rw [List.flatMap_cons] at hmark ⊢
      rw [byteOrderMark_isPrefix hcp hmark, if_pos (congrArg some (codePoint_of_byteOrderMark hcp hmark)),
        hdecode hrest]
    · rename_i hmark
      rw [if_neg, hdecode h]
      rintro hcode
      cases hcode
      exact hmark (List.prefix_append _ _)

/-- A well formed text that begins with an ASCII unit survives its encoding. -/
theorem decodeText_encodeUtf8 {s : JsString} (hs : WellFormed s) (hbegins : ∀ u ∈ s.head?, u.toNat < 0x80) :
    decodeText (encodeUtf8 s) = s := by
  have hdecoded := decodeText_encoded hs.scalar
  have hmark : (codePoints s).head? ≠ some 0xFEFF := by
    cases s with
    | nil => simp [codePoints]
    | cons u rest =>
      have hu := hbegins u rfl
      rw [codePoints_cons_of_not_high (ascii_not_high hu), List.head?_cons, ne_eq, Option.some.injEq]
      omega
  rw [if_neg hmark, utf16_codePoints] at hdecoded
  exact hdecoded

theorem decodeText_length_le {cps : List Nat} (h : ∀ cp ∈ cps, IsScalar cp) :
    (decodeText (cps.flatMap encodedBytes)).length ≤ (cps.flatMap utf16).length := by
  rw [decodeText_encoded h]
  split
  · cases cps with
    | nil => exact Nat.le_refl 0
    | cons cp rest =>
      rw [List.tail_cons, List.flatMap_cons, List.length_append]
      exact Nat.le_add_left _ _
  · exact Nat.le_refl _

end NestStorageExample.Text
