import NestStorageExample.Text.CodeUnits

/-! UTF-8 as Node's `Buffer` reads and writes it. Encoding writes a lone surrogate
as U+FFFD; decoding is the streaming decoder of the Encoding standard, one byte at a
time, which answers every malformed subsequence with U+FFFD. -/
namespace NestStorageExample.Text

/-- U+FFFD, what both directions write for input they cannot represent. -/
def replacement : Nat := 0xFFFD

def utf8CodePoint (cp : Nat) : List Byte :=
  if cp < 0x80 then [UInt8.ofNat cp]
  else if cp < 0x800 then [UInt8.ofNat (0xC0 + cp / 0x40), UInt8.ofNat (0x80 + cp % 0x40)]
  else if cp < 0x10000 then
    [UInt8.ofNat (0xE0 + cp / 0x1000), UInt8.ofNat (0x80 + cp / 0x40 % 0x40), UInt8.ofNat (0x80 + cp % 0x40)]
  else
    [UInt8.ofNat (0xF0 + cp / 0x40000), UInt8.ofNat (0x80 + cp / 0x1000 % 0x40),
      UInt8.ofNat (0x80 + cp / 0x40 % 0x40), UInt8.ofNat (0x80 + cp % 0x40)]

/-- `Buffer.from(s, 'utf8')`. -/
def encodeUtf8 (s : JsString) : List Byte :=
  (codePoints s).flatMap (fun cp => utf8CodePoint (if IsSurrogate cp then replacement else cp))

/-- `Buffer.byteLength(s, 'utf8')`. -/
def byteLength (s : JsString) : Nat := (encodeUtf8 s).length

/-- A sequence begun but not finished: the continuation bytes still owed, the
range the next one must lie in, and the value read so far. -/
structure Pending where
  owed : Nat
  lower : Nat
  upper : Nat
  value : Nat
  deriving DecidableEq, Repr

def startByte (b : Byte) : JsString × Option Pending :=
  if b.toNat < 0x80 then ([UInt16.ofNat b.toNat], none)
  else if 0xC2 ≤ b.toNat ∧ b.toNat ≤ 0xDF then ([], some ⟨1, 0x80, 0xBF, b.toNat - 0xC0⟩)
  else if 0xE0 ≤ b.toNat ∧ b.toNat ≤ 0xEF then
    ([], some ⟨2, if b.toNat = 0xE0 then 0xA0 else 0x80, if b.toNat = 0xED then 0x9F else 0xBF, b.toNat - 0xE0⟩)
  else if 0xF0 ≤ b.toNat ∧ b.toNat ≤ 0xF4 then
    ([], some ⟨3, if b.toNat = 0xF0 then 0x90 else 0x80, if b.toNat = 0xF4 then 0x8F else 0xBF, b.toNat - 0xF0⟩)
  else ([UInt16.ofNat replacement], none)

def decodeByte : Option Pending → Byte → JsString × Option Pending
  | none, b => startByte b
  | some p, b =>
    if p.lower ≤ b.toNat ∧ b.toNat ≤ p.upper then
      if p.owed = 1 then (utf16 (p.value * 0x40 + (b.toNat - 0x80)), none)
      else ([], some ⟨p.owed - 1, 0x80, 0xBF, p.value * 0x40 + (b.toNat - 0x80)⟩)
    -- the byte that breaks a sequence is read again as the start of the next one
    else (UInt16.ofNat replacement :: (startByte b).1, (startByte b).2)

/-- What an unfinished sequence leaves behind where it is cut off. -/
def flush : Option Pending → JsString
  | none => []
  | some _ => [UInt16.ofNat replacement]

def decodeFrom : Option Pending → List Byte → JsString
  | p, [] => flush p
  | p, b :: bs => (decodeByte p b).1 ++ decodeFrom (decodeByte p b).2 bs

/-- `buffer.toString('utf8')`. -/
def decodeUtf8 (bs : List Byte) : JsString := decodeFrom none bs

/-- A pending sequence can only end in a code point above ASCII and below 0x110000. -/
structure Pending.Valid (p : Pending) : Prop where
  owed : 1 ≤ p.owed ∧ p.owed ≤ 3
  range : 0x80 ≤ p.lower ∧ p.upper ≤ 0xBF
  least : (if p.owed = 1 then 0x80 else 2) ≤ p.value * 0x40 + (p.lower - 0x80)
  greatest : p.value * 0x40 + (p.upper - 0x80) <
    if p.owed = 1 then 0x110000 else if p.owed = 2 then 0x4400 else 0x110

def ValidState (state : Option Pending) : Prop := ∀ p ∈ state, p.Valid

theorem validState_none : ValidState none := fun _ h => by cases h

private theorem utf16_above_ascii {cp : Nat} (h : 0x80 ≤ cp) (hlt : cp < 0x110000) :
    utf16 cp ≠ [] ∧ ∀ u ∈ utf16 cp, 0x80 ≤ u.toNat := by
  unfold utf16
  split
  · refine ⟨by simp, ?_⟩
    intro u hu
    rw [List.mem_singleton.mp hu, UInt16.toNat_ofNat']
    omega
  · refine ⟨by simp, ?_⟩
    intro u hu
    simp only [List.mem_cons, List.not_mem_nil, or_false] at hu
    rcases hu with rfl | rfl <;> rw [UInt16.toNat_ofNat'] <;> omega

private theorem startByte_ascii {b : Byte} (h : b.toNat < 0x80) :
    startByte b = ([UInt16.ofNat b.toNat], none) := if_pos h

private theorem startByte_spec (b : Byte) : ValidState (startByte b).2 ∧
    (0x80 ≤ b.toNat → (∀ u ∈ (startByte b).1, 0x80 ≤ u.toNat) ∧
      ((startByte b).1 = [] → (startByte b).2 ≠ none)) := by
  unfold startByte
  split
  · exact ⟨validState_none, fun h => by omega⟩
  split
  · refine ⟨?_, fun _ => by simp⟩
    rintro _ ⟨⟩
    exact ⟨by simp, by simp, by simp; omega, by simp; omega⟩
  split
  · refine ⟨?_, fun _ => by simp⟩
    rintro _ ⟨⟩
    refine ⟨by simp, ?_, ?_, ?_⟩ <;> dsimp only <;> split_ifs <;> omega
  split
  · refine ⟨?_, fun _ => by simp⟩
    rintro _ ⟨⟩
    refine ⟨by simp, ?_, ?_, ?_⟩ <;> dsimp only <;> split_ifs <;> omega
  · refine ⟨validState_none, fun _ => ⟨?_, by simp⟩⟩
    intro u hu
    rw [List.mem_singleton.mp hu]
    decide

private theorem decodeByte_valid {state : Option Pending} (hs : ValidState state) (b : Byte) :
    ValidState (decodeByte state b).2 := by
  cases state with
  | none => exact (startByte_spec b).1
  | some p =>
    obtain ⟨ho, hr, hl, hg⟩ := hs p rfl
    simp only [decodeByte]
    split
    · split
      · exact validState_none
      · rintro _ ⟨⟩
        refine ⟨?_, by simp, ?_, ?_⟩ <;> dsimp only <;> split_ifs at * <;> omega
    · exact (startByte_spec b).1

private theorem decodeByte_ascii {state : Option Pending} (hs : ValidState state) {b : Byte}
    (hb : b.toNat < 0x80) : decodeByte state b = (flush state ++ [UInt16.ofNat b.toNat], none) := by
  cases state with
  | none => exact startByte_ascii hb
  | some p =>
    have := (hs p rfl).range.1
    rw [decodeByte, if_neg (by omega), startByte_ascii hb]
    rfl

private theorem decodeByte_above {state : Option Pending} (hs : ValidState state) {b : Byte}
    (hb : 0x80 ≤ b.toNat) : (∀ u ∈ (decodeByte state b).1, 0x80 ≤ u.toNat) ∧
      ((decodeByte state b).1 = [] → (decodeByte state b).2 ≠ none) := by
  cases state with
  | none => exact (startByte_spec b).2 hb
  | some p =>
    obtain ⟨ho, hr, hl, hg⟩ := hs p rfl
    simp only [decodeByte]
    split
    · split
      · rename_i ho1
        rw [if_pos ho1] at hl hg
        generalize hv : p.value * 0x40 + (b.toNat - 0x80) = value
        have ha := utf16_above_ascii (show 0x80 ≤ value by omega) (by omega)
        exact ⟨ha.2, fun h => absurd h ha.1⟩
      · simp
    · refine ⟨?_, by simp⟩
      intro u hu
      rcases List.mem_cons.mp hu with rfl | hu
      · decide
      · exact ((startByte_spec b).2 hb).1 u hu

theorem encodeUtf8_ascii {s : JsString} (h : IsAscii s) :
    encodeUtf8 s = s.map (fun u => UInt8.ofNat u.toNat) := by
  rw [encodeUtf8, codePoints_ascii h, List.flatMap_map]
  induction s with
  | nil => rfl
  | cons u s ih =>
    have hu := h u (by simp)
    have hs : ¬ IsSurrogate u.toNat := fun hs => by have := hs.1; omega
    rw [List.flatMap_cons, ih (fun v hv => h v (by simp [hv])), if_neg hs, utf8CodePoint, if_pos hu]
    rfl

/-- Encoding reads the two sides of a code unit below the surrogates apart. -/
theorem encodeUtf8_append_ascii {u : CodeUnit} (hu : u.toNat < 0x80) (s t : JsString) :
    encodeUtf8 (s ++ u :: t) = encodeUtf8 s ++ UInt8.ofNat u.toNat :: encodeUtf8 t := by
  have hs : ¬ IsSurrogate u.toNat := fun hs => by have := hs.1; omega
  simp only [encodeUtf8, codePoints_append_ascii hu, List.flatMap_append, List.flatMap_cons, if_neg hs]
  rw [utf8CodePoint, if_pos hu]
  rfl

theorem byteLength_ascii {s : JsString} (h : IsAscii s) : byteLength s = s.length := by
  rw [byteLength, encodeUtf8_ascii h, List.length_map]

theorem byteLength_replicate {u : CodeUnit} (hu : u.toNat < 0x80) (n : Nat) : byteLength (List.replicate n u) = n := by
  rw [byteLength_ascii (fun v hv => (List.eq_of_mem_replicate hv) ▸ hu), List.length_replicate]

theorem byteLength_append_ascii {u : CodeUnit} (hu : u.toNat < 0x80) (s t : JsString) :
    byteLength (s ++ u :: t) = byteLength s + 1 + byteLength t := by
  simp only [byteLength, encodeUtf8_append_ascii hu, List.length_append, List.length_cons]
  omega

theorem byteLength_ascii_append {s : JsString} (h : IsAscii s) (t : JsString) :
    byteLength (s ++ t) = s.length + byteLength t := by
  induction s with
  | nil => simp
  | cons u s ih =>
    have hcons := byteLength_append_ascii (h u (by simp)) [] (s ++ t)
    have hnil : byteLength [] = 0 := rfl
    rw [List.nil_append, hnil, ih (fun v hv => h v (by simp [hv]))] at hcons
    rw [List.cons_append, hcons, List.length_cons]
    omega

private theorem byte_widen {u : CodeUnit} (hu : u.toNat < 0x80) :
    UInt16.ofNat (UInt8.ofNat u.toNat).toNat = u := by
  apply codeUnit_ext
  rw [UInt16.toNat_ofNat', UInt8.toNat_ofNat']
  omega

private theorem byte_narrow_lt {u : CodeUnit} (hu : u.toNat < 0x80) : (UInt8.ofNat u.toNat).toNat < 0x80 := by
  rw [UInt8.toNat_ofNat']
  omega

private theorem byte_of_unit {u : CodeUnit} {b : Byte} (h : u = UInt16.ofNat b.toNat) :
    UInt8.ofNat u.toNat = b := by
  have hb := b.toNat_lt
  apply UInt8.toNat_inj.mp
  rw [h, UInt8.toNat_ofNat', UInt16.toNat_ofNat']
  omega

private theorem decodeFrom_starts {needle : JsString} (ha : IsAscii needle) (hne : needle ≠ [])
    (bs : List Byte) : ∀ state, ValidState state → needle <+: decodeFrom state bs →
      state = none ∧ needle.map (fun u => UInt8.ofNat u.toNat) <+: bs := by
  induction bs generalizing needle with
  | nil =>
    intro state _ h
    cases state with
    | none => exact absurd (List.prefix_nil.mp h) hne
    | some p =>
      obtain ⟨u, rest, rfl⟩ := List.exists_cons_of_ne_nil hne
      have hu := ha u (by simp)
      rw [decodeFrom, flush, List.cons_prefix_cons] at h
      rw [h.1] at hu
      exact absurd hu (by decide)
  | cons b bs ih =>
    intro state hs h
    obtain ⟨u, rest, rfl⟩ := List.exists_cons_of_ne_nil hne
    have hu := ha u (by simp)
    rw [decodeFrom] at h
    by_cases hb : b.toNat < 0x80
    · rw [decodeByte_ascii hs hb] at h
      cases state with
      | some p =>
        rw [flush, List.cons_append, List.cons_append, List.cons_prefix_cons] at h
        rw [h.1] at hu
        exact absurd hu (by decide)
      | none =>
        rw [flush, List.nil_append, List.cons_append, List.cons_prefix_cons] at h
        refine ⟨rfl, ?_⟩
        rw [List.map_cons, List.cons_prefix_cons]
        refine ⟨byte_of_unit h.1, ?_⟩
        by_cases hr : rest = []
        · simp [hr]
        · exact (ih (fun v hv => ha v (by simp [hv])) hr none validState_none h.2).2
    · obtain ⟨habove, hempty⟩ := decodeByte_above hs (Nat.le_of_not_lt hb)
      cases hout : (decodeByte state b).1 with
      | nil =>
        rw [hout, List.nil_append] at h
        exact absurd (ih ha hne _ (decodeByte_valid hs b) h).1 (hempty hout)
      | cons v out =>
        rw [hout, List.cons_append, List.cons_prefix_cons] at h
        have := habove v (by simp [hout])
        rw [h.1] at hu
        omega

private theorem infix_of_append_disjoint {needle out t : JsString} (hne : needle ≠ [])
    (hd : ∀ u ∈ out, u ∉ needle) (h : needle <:+: out ++ t) : needle <:+: t := by
  induction out with
  | nil => exact h
  | cons u out ih =>
    rw [List.cons_append, List.infix_cons_iff] at h
    rcases h with h | h
    · obtain ⟨v, tail, rfl⟩ := List.exists_cons_of_ne_nil hne
      rw [List.cons_prefix_cons] at h
      exact absurd (by simp [h.1]) (hd u (by simp))
    · exact ih (fun v hv => hd v (by simp [hv])) h

private theorem infix_of_decodeFrom {needle : JsString} (ha : IsAscii needle) (hne : needle ≠ [])
    (bs : List Byte) : ∀ state, ValidState state → needle <:+: decodeFrom state bs →
      needle.map (fun u => UInt8.ofNat u.toNat) <:+: bs := by
  have hlow : ∀ u, 0x80 ≤ u.toNat → u ∉ needle := fun u hu hm => by have := ha u hm; omega
  have hflush : ∀ state, ∀ u ∈ flush state, u ∉ needle := by
    intro state u hu
    cases state with
    | none => cases hu
    | some p =>
      rw [List.mem_singleton.mp hu]
      exact hlow _ (by decide)
  induction bs with
  | nil =>
    intro state _ h
    have := infix_of_append_disjoint (t := []) hne (hflush state) (by simpa [decodeFrom] using h)
    exact absurd (List.infix_nil.mp this) hne
  | cons b bs ih =>
    intro state hs h
    rw [decodeFrom] at h
    by_cases hb : b.toNat < 0x80
    · rw [decodeByte_ascii hs hb, List.append_assoc] at h
      have hrest := infix_of_append_disjoint hne (hflush state) h
      rw [List.singleton_append, List.infix_cons_iff] at hrest
      rcases hrest with hpre | hrest
      · have hstart : decodeFrom none (b :: bs) = UInt16.ofNat b.toNat :: decodeFrom none bs := by
          rw [decodeFrom, decodeByte_ascii validState_none hb]
          rfl
        rw [← hstart] at hpre
        exact (decodeFrom_starts ha hne _ none validState_none hpre).2.isInfix
      · exact (ih none validState_none hrest).trans (List.suffix_cons b bs).isInfix
    · have habove := (decodeByte_above hs (Nat.le_of_not_lt hb)).1
      have hrest := infix_of_append_disjoint hne (fun u hu => hlow u (habove u hu)) h
      exact (ih _ (decodeByte_valid hs b) hrest).trans (List.suffix_cons b bs).isInfix

/-- Decoding a prefix first: what it has written, and where it stands. -/
private theorem decodeFrom_append (pre : List Byte) : ∀ state, ValidState state →
    ∃ out next, ValidState next ∧ ∀ bs, decodeFrom state (pre ++ bs) = out ++ decodeFrom next bs := by
  induction pre with
  | nil => exact fun state hs => ⟨[], state, hs, fun _ => rfl⟩
  | cons b pre ih =>
    intro state hs
    obtain ⟨out, next, hn, he⟩ := ih _ (decodeByte_valid hs b)
    refine ⟨(decodeByte state b).1 ++ out, next, hn, fun bs => ?_⟩
    rw [List.cons_append, decodeFrom, he, List.append_assoc]

private theorem decodeFrom_ascii {needle : JsString} (ha : IsAscii needle) (bs : List Byte) :
    decodeFrom none (needle.map (fun u => UInt8.ofNat u.toNat) ++ bs) = needle ++ decodeFrom none bs := by
  induction needle with
  | nil => rfl
  | cons u rest ih =>
    have hu := ha u (by simp)
    rw [List.map_cons, List.cons_append, decodeFrom, decodeByte_ascii validState_none (byte_narrow_lt hu),
      ih (fun v hv => ha v (by simp [hv])), byte_widen hu]
    rfl

/-- Decoding neither invents nor hides ASCII text: a nonempty ASCII string occurs
in the decoded text exactly when its bytes occur in the buffer, whatever malformed
sequences stand around it. -/
theorem ascii_infix_decodeUtf8 {needle : JsString} (ha : IsAscii needle) (hne : needle ≠ [])
    (bs : List Byte) : needle <:+: decodeUtf8 bs ↔ encodeUtf8 needle <:+: bs := by
  rw [encodeUtf8_ascii ha]
  constructor
  · exact infix_of_decodeFrom ha hne bs none validState_none
  · rintro ⟨pre, post, rfl⟩
    obtain ⟨out, next, hn, he⟩ := decodeFrom_append pre none validState_none
    obtain ⟨u, rest, rfl⟩ := List.exists_cons_of_ne_nil hne
    have hu := ha u (by simp)
    rw [decodeUtf8, List.append_assoc, he, List.map_cons, List.cons_append, decodeFrom,
      decodeByte_ascii hn (byte_narrow_lt hu), decodeFrom_ascii (fun v hv => ha v (by simp [hv])), byte_widen hu]
    exact ⟨out ++ flush next, decodeFrom none post, by simp⟩

private theorem decodeFrom_codePoint {cp : Nat} (h : IsScalar cp) (bs : List Byte) :
    decodeFrom none (utf8CodePoint cp ++ bs) = utf16 cp ++ decodeFrom none bs := by
  obtain ⟨hlt, hs⟩ := h
  have hs' : ¬ (0xD800 ≤ cp ∧ cp ≤ 0xDFFF) := hs
  unfold utf8CodePoint
  split
  · rename_i h1
    have hb : (UInt8.ofNat cp).toNat = cp := by rw [UInt8.toNat_ofNat']; omega
    rw [List.singleton_append, decodeFrom, decodeByte, startByte, hb, if_pos h1, utf16, if_pos (by omega)]
  split
  · rename_i h1 h2
    have hb : (UInt8.ofNat (0xC0 + cp / 0x40)).toNat = 0xC0 + cp / 0x40 := by rw [UInt8.toNat_ofNat']; omega
    have hc : (UInt8.ofNat (0x80 + cp % 0x40)).toNat = 0x80 + cp % 0x40 := by rw [UInt8.toNat_ofNat']; omega
    have hv : (0xC0 + cp / 0x40 - 0xC0) * 0x40 + (0x80 + cp % 0x40 - 0x80) = cp := by omega
    simp only [List.cons_append, List.nil_append, decodeFrom, decodeByte, startByte, hb]
    rw [if_neg (by omega), if_pos (by omega)]
    simp only [hc]
    rw [if_pos (by omega), if_pos trivial, hv]
    rfl
  split
  · rename_i h1 h2 h3
    have hq : cp / 0x1000 = cp / 0x40 / 0x40 := by rw [Nat.div_div_eq_div_mul]
    have hb : (UInt8.ofNat (0xE0 + cp / 0x1000)).toNat = 0xE0 + cp / 0x1000 := by
      rw [UInt8.toNat_ofNat']; omega
    have hc : (UInt8.ofNat (0x80 + cp / 0x40 % 0x40)).toNat = 0x80 + cp / 0x40 % 0x40 := by
      rw [UInt8.toNat_ofNat']; omega
    have hd : (UInt8.ofNat (0x80 + cp % 0x40)).toNat = 0x80 + cp % 0x40 := by rw [UInt8.toNat_ofNat']; omega
    have hv : ((0xE0 + cp / 0x1000 - 0xE0) * 0x40 + (0x80 + cp / 0x40 % 0x40 - 0x80)) * 0x40 +
        (0x80 + cp % 0x40 - 0x80) = cp := by
      simp only [Nat.add_sub_cancel_left]
      omega
    simp only [List.cons_append, List.nil_append, decodeFrom, decodeByte, startByte, hb]
    rw [if_neg (by omega), if_neg (by omega), if_pos (by omega)]
    simp only [hc]
    rw [if_pos (by split_ifs <;> omega), if_neg (by omega)]
    simp only [hd]
    rw [if_pos (by omega), if_pos trivial, hv]
    rfl
  · rename_i h1 h2 h3
    have hq : cp / 0x1000 = cp / 0x40 / 0x40 := by rw [Nat.div_div_eq_div_mul]
    have hr : cp / 0x40000 = cp / 0x1000 / 0x40 := by rw [Nat.div_div_eq_div_mul]
    have hb : (UInt8.ofNat (0xF0 + cp / 0x40000)).toNat = 0xF0 + cp / 0x40000 := by
      rw [UInt8.toNat_ofNat']; omega
    have hc : (UInt8.ofNat (0x80 + cp / 0x1000 % 0x40)).toNat = 0x80 + cp / 0x1000 % 0x40 := by
      rw [UInt8.toNat_ofNat']; omega
    have hd : (UInt8.ofNat (0x80 + cp / 0x40 % 0x40)).toNat = 0x80 + cp / 0x40 % 0x40 := by
      rw [UInt8.toNat_ofNat']; omega
    have he : (UInt8.ofNat (0x80 + cp % 0x40)).toNat = 0x80 + cp % 0x40 := by rw [UInt8.toNat_ofNat']; omega
    have hv : (((0xF0 + cp / 0x40000 - 0xF0) * 0x40 + (0x80 + cp / 0x1000 % 0x40 - 0x80)) * 0x40 +
        (0x80 + cp / 0x40 % 0x40 - 0x80)) * 0x40 + (0x80 + cp % 0x40 - 0x80) = cp := by
      simp only [Nat.add_sub_cancel_left]
      omega
    simp only [List.cons_append, List.nil_append, decodeFrom, decodeByte, startByte, hb]
    rw [if_neg (by omega), if_neg (by omega), if_neg (by omega), if_pos (by omega)]
    simp only [hc]
    rw [if_pos (by split_ifs <;> omega), if_neg (by omega)]
    simp only [hd]
    rw [if_pos (by omega), if_neg (by omega)]
    simp only [he]
    rw [if_pos (by omega), if_pos trivial, hv]
    rfl

/-- Encoded scalars decode to their own code units. -/
theorem decodeUtf8_scalars {cps : List Nat} (h : ∀ cp ∈ cps, IsScalar cp) :
    decodeUtf8 (cps.flatMap (fun cp => utf8CodePoint (if IsSurrogate cp then replacement else cp))) =
      cps.flatMap utf16 := by
  rw [decodeUtf8]
  induction cps with
  | nil => rfl
  | cons cp cps ih =>
    have hcp := h cp (by simp)
    rw [List.flatMap_cons, List.flatMap_cons, if_neg hcp.2, decodeFrom_codePoint hcp,
      ih (fun c hc => h c (by simp [hc]))]

/-- Well-formed text survives the round trip through its bytes. -/
theorem decodeUtf8_encodeUtf8 {s : JsString} (h : WellFormed s) : decodeUtf8 (encodeUtf8 s) = s := by
  calc
    decodeUtf8 (encodeUtf8 s) = (codePoints s).flatMap utf16 := decodeUtf8_scalars h.scalar
    _ = s := utf16_codePoints s

end NestStorageExample.Text
