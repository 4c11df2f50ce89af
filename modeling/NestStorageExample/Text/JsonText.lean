import NestStorageExample.Collections.InsertionMap
import NestStorageExample.Numbers.NumberText
import NestStorageExample.Text.HexText

/-! The text of a JSON value: how it is written and read, and that what was written is read
back. Numbers with a fraction are not written here. -/
namespace NestStorageExample.Text
open Numbers Collections

def quoteMark : CodeUnit := 0x22

def backslash : CodeUnit := 0x5C

/-- The code points that are escaped with one letter. -/
def letterEscapes : List (Nat × CodeUnit) :=
  [(0x08, 0x62), (0x09, 0x74), (0x0A, 0x6E), (0x0C, 0x66), (0x0D, 0x72), (0x22, 0x22), (0x5C, 0x5C)]

/-- `\uXXXX` -/
def unicodeEscape (cp : Nat) : JsString :=
  [backslash, 0x75, lowerHexDigit (cp / 4096), lowerHexDigit (cp / 256 % 16), lowerHexDigit (cp / 16 % 16),
    lowerHexDigit (cp % 16)]

/-- Controls and lone surrogates are escaped. -/
def quoteCodePoint (cp : Nat) : JsString :=
  match letterEscapes.lookup cp with
  | some letter => [backslash, letter]
  | none => if cp < 0x20 ∨ IsSurrogate cp then unicodeEscape cp else utf16 cp

def quote (s : JsString) : JsString := quoteMark :: ((codePoints s).flatMap quoteCodePoint ++ [quoteMark])

def wholeText (n : Int) : JsString := if n < 0 then hyphen :: decimal n.natAbs else decimal n.natAbs

/-- The texts with a comma between them. -/
def joinCommas : List JsString → JsString
  | [] => []
  | [text] => text
  | text :: texts => text ++ 0x2C :: joinCommas texts

mutual

/-- `JSON.stringify`; `none` where a number is not written here. -/
def stringify : Json → Option JsString
  | .null => some (js "null")
  | .bool b => some (js (if b then "true" else "false"))
  | .number (.finite x) => if x.den = 1 ∧ x.num.natAbs < 10 ^ 21 then some (wholeText x.num) else none
  | .number _ => some (js "null")
  | .string s => some (quote s)
  | .array items => (stringifyItems items).map fun texts => 0x5B :: (joinCommas texts ++ [0x5D])
  | .object entries => (stringifyEntries entries).map fun texts => 0x7B :: (joinCommas texts ++ [0x7D])

def stringifyItems : List Json → Option (List JsString)
  | [] => some []
  | item :: items => (stringify item).bind fun text => (stringifyItems items).map (text :: ·)

def stringifyEntries : List (JsString × Json) → Option (List JsString)
  | [] => some []
  | (name, value) :: entries =>
    (stringify value).bind fun text => (stringifyEntries entries).map ((quote name ++ 0x3A :: text) :: ·)

end

/-! Reading. A reader returns what it has read and what stands behind it. -/

def isJsonBlank (u : CodeUnit) : Bool := [0x20, 0x09, 0x0A, 0x0D].contains u

def skipBlanks (s : JsString) : JsString := s.dropWhile isJsonBlank

/-- The code unit that an escaped letter stands for. -/
def readLetter (letter : CodeUnit) : Option CodeUnit :=
  ((0x2F, 0x2F) :: letterEscapes.map fun escape => (escape.2, UInt16.ofNat escape.1)).lookup letter

/-- The code unit of four hexadecimal digits, in either case. -/
def readUnit (digits : List CodeUnit) : Option CodeUnit :=
  if digits.all (fun u => (digitValue u).any (· < 16)) then
    some (UInt16.ofNat (digits.foldl (fun n u => 16 * n + (digitValue u).getD 0) 0))
  else none

/-- A string behind its first quotation mark. -/
def readString : JsString → Option (JsString × JsString)
  | [] => none
  | c :: rest =>
    if c = quoteMark then some ([], rest)
    else if c = backslash then
      match rest with
      | 0x75 :: a :: b :: c :: d :: rest =>
        (readUnit [a, b, c, d]).bind fun u => (readString rest).map fun r => (u :: r.1, r.2)
      | letter :: rest => (readLetter letter).bind fun u => (readString rest).map fun r => (u :: r.1, r.2)
      | [] => none
    else if c.toNat < 0x20 then none
    else (readString rest).map fun r => (c :: r.1, r.2)

def isNumberUnit (u : CodeUnit) : Bool := isDigit u || [0x2B, 0x2D, 0x2E, 0x45, 0x65].contains u

/-- No zero in front of other digits, and digits behind a point. -/
def IsJsonNumber (token : JsString) : Prop :=
  let unsigned := if token.head? = some hyphen then token.tail else token
  let whole := unsigned.takeWhile isDigit
  let rest := unsigned.dropWhile isDigit
  let pointed := rest.head? = some 0x2E
  let fraction := if pointed then rest.tail.takeWhile isDigit else []
  let behind := if pointed then rest.tail.dropWhile isDigit else rest
  whole ≠ [] ∧ (whole.head? = some 0x30 → whole.length = 1) ∧ (pointed → fraction ≠ []) ∧
    (readExponent behind).isSome = true

instance (token : JsString) : Decidable (IsJsonNumber token) := by
  unfold IsJsonNumber
  infer_instance

def readLiteral (s : JsString) : Option (Json × JsString) :=
  if js "null" <+: s then some (.null, s.drop 4)
  else if js "true" <+: s then some (.bool true, s.drop 4)
  else if js "false" <+: s then some (.bool false, s.drop 5)
  else if IsJsonNumber (s.takeWhile isNumberUnit) then
    some (.number (numberOf (s.takeWhile isNumberUnit)), s.dropWhile isNumberUnit)
  else none

/-- Of two entries with one name the later value stays. -/
def lastOfEach (entries : List (JsString × Json)) : List (JsString × Json) :=
  entries.foldl (fun kept entry => InsertionMap.setEntries kept entry.1 entry.2) []

section Readers
variable (value : JsString → Option (Json × JsString)) (items : JsString → Option (List Json × JsString))
  (entries : JsString → Option (List (JsString × Json) × JsString))

def readValue (s : JsString) : Option (Json × JsString) :=
  match s with
  | [] => none
  | c :: rest =>
    if c = quoteMark then (readString rest).map fun r => (.string r.1, r.2)
    else if c = 0x5B then
      if (skipBlanks rest).head? = some 0x5D then some (.array [], (skipBlanks rest).tail)
      else (items rest).map fun r => (.array r.1, r.2)
    else if c = 0x7B then
      if (skipBlanks rest).head? = some 0x7D then some (.object [], (skipBlanks rest).tail)
      else (entries rest).map fun r => (.object (lastOfEach r.1), r.2)
    else readLiteral (c :: rest)

/-- What goes on behind a comma or ends at the closing bracket. -/
def readMore {β : Type} (more : JsString → Option (List β × JsString)) (closing : CodeUnit) (b : β) (s : JsString) :
    Option (List β × JsString) :=
  if (skipBlanks s).head? = some 0x2C then (more (skipBlanks s).tail).map fun r => (b :: r.1, r.2)
  else if (skipBlanks s).head? = some closing then some ([b], (skipBlanks s).tail)
  else none

def readItems (s : JsString) : Option (List Json × JsString) :=
  (value s).bind fun r => readMore items 0x5D r.1 r.2

def readEntries (s : JsString) : Option (List (JsString × Json) × JsString) :=
  if (skipBlanks s).head? = some quoteMark then
    (readString (skipBlanks s).tail).bind fun name =>
      if (skipBlanks name.2).head? = some 0x3A then
        (value (skipBlanks name.2).tail).bind fun r => readMore entries 0x7D (name.1, r.1) r.2
      else none
  else none

end Readers

mutual

/-- A value with this many nested calls at most. -/
def valueWithin : Nat → JsString → Option (Json × JsString)
  | 0, _ => none
  | fuel + 1, s => readValue (itemsWithin fuel) (entriesWithin fuel) (skipBlanks s)

def itemsWithin : Nat → JsString → Option (List Json × JsString)
  | 0, _ => none
  | fuel + 1, s => readItems (valueWithin fuel) (itemsWithin fuel) s

def entriesWithin : Nat → JsString → Option (List (JsString × Json) × JsString)
  | 0, _ => none
  | fuel + 1, s => readEntries (valueWithin fuel) (entriesWithin fuel) s

end

/-- `JSON.parse`; a text opens at most as many brackets as it has code units. -/
def parseJson (s : JsString) : Option Json :=
  (valueWithin (2 * s.length + 1) s).bind fun r => if skipBlanks r.2 = [] then some r.1 else none

/-! Strings. -/

theorem readString_plain {u : CodeUnit} (hquote : u ≠ quoteMark) (hslash : u ≠ backslash) (h : 0x20 ≤ u.toNat)
    (rest : JsString) : readString (u :: rest) = (readString rest).map fun r => (u :: r.1, r.2) := by
  rw [readString.eq_def]
  simp only [hquote, hslash, if_false, if_neg (Nat.not_lt.mpr h)]

theorem readString_escape (a b c d : CodeUnit) (rest : JsString) :
    readString (backslash :: 0x75 :: a :: b :: c :: d :: rest) =
      (readUnit [a, b, c, d]).bind fun u => (readString rest).map fun r => (u :: r.1, r.2) := rfl

theorem digitValue_lowerHexDigit : ∀ n < 16, digitValue (lowerHexDigit n) = some n := by decide

theorem readUnit_unicodeEscape {cp : Nat} (h : cp < 0x10000) : readUnit [lowerHexDigit (cp / 4096),
    lowerHexDigit (cp / 256 % 16), lowerHexDigit (cp / 16 % 16), lowerHexDigit (cp % 16)] = some (UInt16.ofNat cp) := by
  have h3 := digitValue_lowerHexDigit (cp / 4096) (by omega)
  have h2 := digitValue_lowerHexDigit (cp / 256 % 16) (by omega)
  have h1 := digitValue_lowerHexDigit (cp / 16 % 16) (by omega)
  have h0 := digitValue_lowerHexDigit (cp % 16) (by omega)
  have hsum : 16 * (16 * (16 * (16 * 0 + cp / 4096) + cp / 256 % 16) + cp / 16 % 16) + cp % 16 = cp := by omega
  rw [readUnit, if_pos]
  · simp only [List.foldl_cons, List.foldl_nil, h0, h1, h2, h3, Option.getD_some, hsum]
  · simp only [List.all_cons, List.all_nil, h0, h1, h2, h3, Option.any_some, Bool.and_true, Bool.and_eq_true,
      decide_eq_true_eq]
    omega

theorem readString_utf16 {cp : Nat} (h : cp < 0x110000) (hplain : cp ≠ 0x22 ∧ cp ≠ 0x5C) (hlow : 0x20 ≤ cp)
    (rest : JsString) :
    readString (utf16 cp ++ rest) = (readString rest).map fun r => (utf16 cp ++ r.1, r.2) := by
  have hunit {n : Nat} (hn : n < 0x10000) (hne : n ≠ 0x22 ∧ n ≠ 0x5C) (hle : 0x20 ≤ n) (tail : JsString) :
      readString (UInt16.ofNat n :: tail) = (readString tail).map fun r => (UInt16.ofNat n :: r.1, r.2) := by
    have hnat : (UInt16.ofNat n).toNat = n := by
      rw [UInt16.toNat_ofNat']
      omega
    apply readString_plain
    · intro heq
      have := congrArg UInt16.toNat heq
      rw [hnat] at this
      exact hne.1 this
    · intro heq
      have := congrArg UInt16.toNat heq
      rw [hnat] at this
      exact hne.2 this
    · rw [hnat]
      exact hle
  by_cases hsmall : cp < 0x10000
  · rw [utf16, if_pos hsmall]
    exact hunit hsmall hplain hlow rest
  · rw [utf16, if_neg hsmall, List.cons_append, List.cons_append, List.nil_append, hunit (by omega) (by omega) (by omega),
      hunit (by omega) (by omega) (by omega), Option.map_map]
    rfl

theorem readString_quoteCodePoint {cp : Nat} (h : cp < 0x110000) (rest : JsString) :
    readString (quoteCodePoint cp ++ rest) = (readString rest).map fun r => (utf16 cp ++ r.1, r.2) := by
  rw [quoteCodePoint]
  cases hletter : letterEscapes.lookup cp with
  | some letter =>
    obtain ⟨before, after, hsplit, -⟩ := List.lookup_eq_some_iff.mp hletter
    have hmem : (cp, letter) ∈ letterEscapes := by
      rw [hsplit]
      exact List.mem_append_right _ List.mem_cons_self
    simp only [letterEscapes, List.mem_cons, Prod.mk.injEq, List.not_mem_nil, or_false] at hmem
    rcases hmem with ⟨rfl, rfl⟩ | ⟨rfl, rfl⟩ | ⟨rfl, rfl⟩ | ⟨rfl, rfl⟩ | ⟨rfl, rfl⟩ | ⟨rfl, rfl⟩ | ⟨rfl, rfl⟩ <;> rfl
  | none =>
    have hplain : cp ≠ 0x22 ∧ cp ≠ 0x5C := by
      constructor <;> rintro rfl <;> cases hletter
    dsimp only
    split
    · rename_i hescaped
      have hsmall : cp < 0x10000 := by
        rcases hescaped with hcontrol | ⟨-, hhigh⟩ <;> omega
      have hunit : utf16 cp = [UInt16.ofNat cp] := if_pos hsmall
      rw [unicodeEscape, hunit]
      change readString (backslash :: 0x75 :: _ :: _ :: _ :: _ :: rest) = _
      rw [readString_escape, readUnit_unicodeEscape hsmall]
      rfl
    · rename_i hscalar
      have hprinted : 0x20 ≤ cp ∧ ¬ IsSurrogate cp := by
        constructor
        · by_contra hlow
          exact hscalar (Or.inl (by omega))
        · exact fun hsurrogate => hscalar (Or.inr hsurrogate)
      exact readString_utf16 h hplain hprinted.1 rest

/-- A quoted string is read back, whatever code units it has. -/
theorem readString_quote (s rest : JsString) :
    readString ((codePoints s).flatMap quoteCodePoint ++ quoteMark :: rest) = some (s, rest) := by
  have hread (cps : List Nat) (h : ∀ cp ∈ cps, cp < 0x110000) :
      readString (cps.flatMap quoteCodePoint ++ quoteMark :: rest) = some (cps.flatMap utf16, rest) := by
    induction cps with
    | nil =>
      change readString (quoteMark :: rest) = some ([], rest)
      rw [readString.eq_def]
      exact if_pos rfl
    | cons cp cps ih =>
      rw [List.flatMap_cons, List.append_assoc, readString_quoteCodePoint (h cp List.mem_cons_self),
        ih (fun c hc => h c (List.mem_cons_of_mem cp hc))]
      rfl
  rw [hread _ (codePoints_lt s), utf16_codePoints]

/-! Numbers. -/

/-- No digit of a number stands next. -/
def EndsNumber (rest : JsString) : Prop := ∀ u ∈ rest.head?, isNumberUnit u = false

theorem head?_decimal {n : Nat} (h : (decimal n).head? = some 0x30) : n = 0 := by
  rw [decimal_eq, List.head?_map] at h
  induction n using Nat.strongRecOn with
  | ind n ih =>
    rcases Nat.lt_or_ge n 10 with hlt | hge
    · rw [Nat.toDigits_of_lt_base hlt] at h
      interval_cases n <;> first | rfl | cases h
    · rw [Nat.toDigits_of_base_le (by decide) hge, List.head?_append_of_ne_nil _ Nat.toDigits_ne_nil] at h
      have := ih (n / 10) (by omega) h
      omega

theorem isNumberUnit_of_isDigit {u : CodeUnit} (h : isDigit u = true) : isNumberUnit u = true := by
  rw [isNumberUnit, h, Bool.true_or]

theorem wholeText_units (n : Int) : ∀ u ∈ wholeText n, isNumberUnit u = true := by
  intro u hu
  rw [wholeText] at hu
  split at hu
  · rcases List.mem_cons.mp hu with rfl | hu
    · rfl
    · exact isNumberUnit_of_isDigit (decimal_digits _ u hu)
  · exact isNumberUnit_of_isDigit (decimal_digits _ u hu)

theorem isJsonNumber_wholeText (n : Int) : IsJsonNumber (wholeText n) := by
  have hdigits := decimal_digits n.natAbs
  have hunsigned : (if (wholeText n).head? = some hyphen then (wholeText n).tail else wholeText n) =
      decimal n.natAbs := by
    rw [wholeText]
    split
    · rfl
    · rw [if_neg (head?_ne_of_digits hdigits (by decide))]
  have hwhole : (decimal n.natAbs).takeWhile isDigit = decimal n.natAbs := List.takeWhile_eq_self_iff.mpr hdigits
  have hrest : (decimal n.natAbs).dropWhile isDigit = [] := List.dropWhile_eq_nil_iff.mpr hdigits
  rw [IsJsonNumber]
  simp only [hunsigned, hwhole, hrest, List.head?_nil, reduceCtorEq, if_false, false_implies, true_and]
  refine ⟨decimal_ne_nil _, fun hzero => ?_, rfl⟩
  rw [head?_decimal hzero]
  rfl

theorem numberOf_negative {n : Nat} (h : n ≤ 2 ^ 53) : numberOf (hyphen :: decimal n) = .finite (-n) := by
  have hdigits := decimal_digits n
  have htrim : trim (hyphen :: decimal n) = hyphen :: decimal n := by
    apply trim_of_trimmed (trimmed_of_no_space _)
    intro u hu
    rcases List.mem_cons.mp hu with rfl | hu
    · rfl
    · exact isSpace_of_isDigit (hdigits u hu)
  have hmark (mark : JsString) (hzero : mark.head? = some 0x30) : (hyphen :: decimal n).take 2 ≠ mark := by
    rintro rfl
    cases hzero
  have hsign : readSign (hyphen :: decimal n) = (true, decimal n) := rfl
  simp only [numberOf, htrim, List.cons_ne_nil, if_false, hmark (js "0x") rfl, hmark (js "0X") rfl, hmark (js "0o") rfl,
    hmark (js "0O") rfl, hmark (js "0b") rfl, hmark (js "0B") rfl, or_self, hsign, if_true]
  rw [readUnsigned_digits hdigits (decimal_ne_nil n), readDecimal_decimal, nearestNumber_natCast h]
  rfl

theorem numberOf_wholeText {n : Int} (h : n.natAbs ≤ 2 ^ 53) : numberOf (wholeText n) = .finite n := by
  rw [wholeText]
  split
  · rename_i hneg
    rw [numberOf_negative h, ← Int.cast_natCast, ← Int.cast_neg, Int.ofNat_natAbs_of_nonpos hneg.le, neg_neg]
  · rename_i hpos
    rw [numberOf_decimal h, ← Int.cast_natCast, Int.natAbs_of_nonneg (not_lt.mp hpos)]

theorem wholeText_ne_nil (n : Int) : wholeText n ≠ [] := by
  rw [wholeText]
  split
  · exact List.cons_ne_nil _ _
  · exact decimal_ne_nil _

theorem takeWhile_append_of_stops {p : CodeUnit → Bool} {s rest : JsString} (hs : ∀ u ∈ s, p u = true)
    (hrest : ∀ u ∈ rest.head?, p u = false) : (s ++ rest).takeWhile p = s ∧ (s ++ rest).dropWhile p = rest := by
  rw [List.takeWhile_append_of_pos hs, List.dropWhile_append_of_pos hs]
  cases rest with
  | nil => simp
  | cons u rest => simp [hrest u rfl]

/-- A whole number is read up to where it ends. -/
theorem readLiteral_wholeText {n : Int} (h : n.natAbs ≤ 2 ^ 53) {rest : JsString} (hrest : EndsNumber rest) :
    readLiteral (wholeText n ++ rest) = some (.number (.finite n), rest) := by
  obtain ⟨htake, hdrop⟩ := takeWhile_append_of_stops (wholeText_units n) hrest
  have hword (word : JsString) (hletter : isNumberUnit (word.headD 0) = false) (hne : word ≠ []) :
      ¬ word <+: wholeText n ++ rest := by
    rintro ⟨tail, htail⟩
    obtain ⟨u, units, hunits⟩ := List.exists_cons_of_ne_nil (wholeText_ne_nil n)
    obtain ⟨c, cs, rfl⟩ := List.exists_cons_of_ne_nil hne
    rw [hunits] at htail
    have hc : c = u := (List.cons.inj htail).1
    have hnumber := wholeText_units n u (by rw [hunits]; exact List.mem_cons_self)
    rw [← hc] at hnumber
    rw [List.headD_cons, hnumber] at hletter
    cases hletter
  rw [readLiteral, if_neg (hword _ (by decide) (by decide)), if_neg (hword _ (by decide) (by decide)),
    if_neg (hword _ (by decide) (by decide)), htake, hdrop, if_pos (isJsonNumber_wholeText n), numberOf_wholeText h]

/-! What is written has no lone surrogate, whatever its strings have. -/

theorem wellFormed_flatMap {cps : List Nat} (h : ∀ cp ∈ cps, IsScalar cp) : WellFormed (cps.flatMap utf16) := by
  rw [WellFormed, codePoints_flatMap_utf16 h]
  exact fun cp hcp => (h cp hcp).2

theorem WellFormed.append {s t : JsString} (hs : WellFormed s) (ht : WellFormed t) : WellFormed (s ++ t) := by
  rw [← utf16_codePoints s, ← utf16_codePoints t, ← List.flatMap_append]
  apply wellFormed_flatMap
  intro cp hcp
  rcases List.mem_append.mp hcp with hcp | hcp
  · exact hs.scalar cp hcp
  · exact ht.scalar cp hcp

theorem lowerHexDigit_ascii : ∀ n < 16, (lowerHexDigit n).toNat < 0x80 := by decide

theorem quoteCodePoint_wellFormed {cp : Nat} (h : cp < 0x110000) : WellFormed (quoteCodePoint cp) := by
  rw [quoteCodePoint]
  cases hletter : letterEscapes.lookup cp with
  | some letter =>
    obtain ⟨before, after, hsplit, -⟩ := List.lookup_eq_some_iff.mp hletter
    have hascii : ∀ escape ∈ letterEscapes, IsAscii [backslash, escape.2] := by decide
    apply IsAscii.wellFormed
    apply hascii (cp, letter)
    rw [hsplit]
    exact List.mem_append_right _ List.mem_cons_self
  | none =>
    dsimp only
    split
    · rename_i hescaped
      have hsmall : cp < 0x10000 := by
        rcases hescaped with hcontrol | ⟨-, hhigh⟩ <;> omega
      apply IsAscii.wellFormed
      simp only [unicodeEscape, IsAscii, List.forall_mem_cons]
      exact ⟨by decide, by decide, lowerHexDigit_ascii _ (by omega), lowerHexDigit_ascii _ (by omega),
        lowerHexDigit_ascii _ (by omega), lowerHexDigit_ascii _ (by omega), by simp⟩
    · rename_i hscalar
      have hone := @wellFormed_flatMap [cp] (by
        intro c hc
        rw [List.mem_singleton.mp hc]
        exact ⟨h, fun hsurrogate => hscalar (Or.inr hsurrogate)⟩)
      simpa using hone

theorem quote_wellFormed (s : JsString) : WellFormed (quote s) := by
  have hquoted (cps : List Nat) (h : ∀ cp ∈ cps, cp < 0x110000) : WellFormed (cps.flatMap quoteCodePoint) := by
    induction cps with
    | nil => exact IsAscii.wellFormed (by decide)
    | cons cp cps ih =>
      exact (quoteCodePoint_wellFormed (h cp List.mem_cons_self)).append
        (ih fun c hc => h c (List.mem_cons_of_mem cp hc))
  have hmark : WellFormed [quoteMark] := IsAscii.wellFormed (by decide)
  exact hmark.append ((hquoted _ (codePoints_lt s)).append hmark)

/-- The bytes that an escape takes beyond those of the code point itself. -/
def escapeCost (cp : Nat) : Nat :=
  if (letterEscapes.lookup cp).isSome then 1 else if cp < 0x20 then 5 else 0

theorem byteLength_utf16 {cp : Nat} (h : IsScalar cp) (rest : JsString) :
    byteLength (utf16 cp ++ rest) = (utf8CodePoint cp).length + byteLength rest := by
  simp only [byteLength, encodeUtf8, codePoints_utf16_append h, List.flatMap_cons, if_neg h.2, List.length_append]

theorem byteLength_scalars {cps : List Nat} (h : ∀ cp ∈ cps, IsScalar cp) :
    byteLength (cps.flatMap utf16) = (cps.map fun cp => (utf8CodePoint cp).length).sum := by
  induction cps with
  | nil => rfl
  | cons cp cps ih =>
    rw [List.flatMap_cons, byteLength_utf16 (h cp List.mem_cons_self), List.map_cons, List.sum_cons,
      ih fun c hc => h c (List.mem_cons_of_mem cp hc)]

theorem byteLength_quoteCodePoint {cp : Nat} (h : IsScalar cp) (rest : JsString) :
    byteLength (quoteCodePoint cp ++ rest) = (utf8CodePoint cp).length + escapeCost cp + byteLength rest := by
  rw [quoteCodePoint, escapeCost]
  cases hletter : letterEscapes.lookup cp with
  | some letter =>
    have hletters : ∀ escape ∈ letterEscapes, escape.1 < 0x80 ∧ escape.2.toNat < 0x80 := by decide
    obtain ⟨before, after, hsplit, -⟩ := List.lookup_eq_some_iff.mp hletter
    obtain ⟨hcp, hascii⟩ := hletters (cp, letter) (by rw [hsplit]; exact List.mem_append_right _ List.mem_cons_self)
    have hpair : IsAscii [backslash, letter] := by
      intro u hu
      simp only [List.mem_cons, List.not_mem_nil, or_false] at hu
      obtain rfl | rfl := hu
      · decide
      · exact hascii
    rw [byteLength_ascii_append hpair, utf8CodePoint, if_pos hcp]
    rfl
  | none =>
    dsimp only [Option.isSome_none]
    rw [if_neg Bool.false_ne_true]
    by_cases hcontrol : cp < 0x20
    · have hescape : IsAscii (unicodeEscape cp) := by
        intro u hu
        simp only [unicodeEscape, List.mem_cons, List.not_mem_nil, or_false] at hu
        obtain rfl | rfl | rfl | rfl | rfl | rfl := hu
        · decide
        · decide
        all_goals exact lowerHexDigit_ascii _ (by omega)
      rw [if_pos (Or.inl hcontrol), if_pos hcontrol, byteLength_ascii_append hescape, utf8CodePoint,
        if_pos (by omega : cp < 0x80)]
      rfl
    · rw [if_neg (not_or.mpr ⟨hcontrol, h.2⟩), if_neg hcontrol, byteLength_utf16 h, Nat.add_zero]

/-- A quoted text has its own bytes, two marks and what its escapes cost. -/
theorem byteLength_quote {s : JsString} (h : WellFormed s) :
    byteLength (quote s) = byteLength s + ((codePoints s).map escapeCost).sum + 2 := by
  have hcodes (cps : List Nat) (hcps : ∀ cp ∈ cps, IsScalar cp) : byteLength (cps.flatMap quoteCodePoint ++ [quoteMark]) =
      (cps.map fun cp => (utf8CodePoint cp).length).sum + (cps.map escapeCost).sum + 1 := by
    induction cps with
    | nil => rfl
    | cons cp cps ih =>
      rw [List.flatMap_cons, List.append_assoc, byteLength_quoteCodePoint (hcps cp List.mem_cons_self),
        ih fun c hc => hcps c (List.mem_cons_of_mem cp hc), List.map_cons, List.map_cons, List.sum_cons, List.sum_cons]
      omega
  have hbytes := byteLength_scalars h.scalar
  rw [utf16_codePoints] at hbytes
  have hmark := byteLength_append_ascii (by decide : quoteMark.toNat < 0x80) []
    ((codePoints s).flatMap quoteCodePoint ++ [quoteMark])
  rw [List.nil_append, hcodes _ h.scalar] at hmark
  have hempty : byteLength [] = 0 := rfl
  rw [quote, hmark, hbytes, hempty]
  omega

theorem wholeText_ascii (n : Int) : IsAscii (wholeText n) := by
  rw [wholeText]
  split
  · exact List.forall_mem_cons.mpr ⟨by decide, isAscii_decimal _⟩
  · exact isAscii_decimal _

/-! Values. -/

/-- The numbers are whole and safe, and no object has a name twice. -/
inductive Plain : Json → Prop where
  | null : Plain .null
  | bool (b : Bool) : Plain (.bool b)
  | number {n : Int} (h : n.natAbs ≤ 2 ^ 53) : Plain (.number (.finite n))
  | string (s : JsString) : Plain (.string s)
  | array {items : List Json} (h : ∀ item ∈ items, Plain item) : Plain (.array items)
  | object {entries : List (JsString × Json)} (hnames : (entries.map Prod.fst).Nodup)
      (h : ∀ entry ∈ entries, Plain entry.2) : Plain (.object entries)

/-- A text that is read as this value, wherever it stands. -/
structure Written (value : Json) (text : JsString) : Prop where
  wellFormed : WellFormed text
  begins : ∀ u ∈ text.head?, u.toNat < 0x80 ∧ isJsonBlank u = false ∧ u ≠ 0x5D
  ne_nil : text ≠ []
  reads : ∀ fuel rest, text.length ≤ fuel → EndsNumber rest → valueWithin fuel (text ++ rest) = some (value, rest)

theorem skipBlanks_of_begins {s : JsString} (h : ∀ u ∈ s.head?, isJsonBlank u = false) : skipBlanks s = s := by
  cases s with
  | nil => rfl
  | cons u s => exact List.dropWhile_cons_of_neg (by rw [h u rfl]; exact Bool.false_ne_true)

theorem valueWithin_begins {fuel : Nat} {s : JsString} (h : ∀ u ∈ s.head?, isJsonBlank u = false) :
    valueWithin (fuel + 1) s = readValue (itemsWithin fuel) (entriesWithin fuel) s := by
  rw [valueWithin, skipBlanks_of_begins h]

theorem written_word {value : Json} {text : JsString} (hascii : IsAscii text)
    (hbegins : ∀ u ∈ text.head?, isJsonBlank u = false ∧ u ≠ 0x5D ∧ u ≠ quoteMark ∧ u ≠ 0x5B ∧ u ≠ 0x7B) (hne : text ≠ [])
    (hliteral : ∀ rest, readLiteral (text ++ rest) = some (value, rest)) : Written value text := by
  refine ⟨hascii.wellFormed, fun u hu => ⟨hascii u (List.mem_of_mem_head? hu), (hbegins u hu).1, (hbegins u hu).2.1⟩,
    hne, ?_⟩
  intro fuel rest hfuel _
  obtain ⟨u, units, rfl⟩ := List.exists_cons_of_ne_nil hne
  obtain ⟨hblank, -, hquote, harray, hobject⟩ := hbegins u rfl
  obtain ⟨fuel, rfl⟩ : ∃ n, fuel = n + 1 := ⟨fuel - 1, by rw [List.length_cons] at hfuel; omega⟩
  rw [valueWithin_begins (by intro v hv; cases hv; exact hblank), List.cons_append, readValue, if_neg hquote,
    if_neg harray, if_neg hobject]
  exact hliteral rest

theorem isNumberUnit_begins {u : CodeUnit} (h : isNumberUnit u = true) :
    isJsonBlank u = false ∧ u ≠ 0x5D ∧ u ≠ quoteMark ∧ u ≠ 0x5B ∧ u ≠ 0x7B := by
  have hne (v : CodeUnit) (hv : isNumberUnit v = false) : u ≠ v := by
    rintro rfl
    rw [hv] at h
    cases h
  refine ⟨?_, hne _ rfl, hne _ rfl, hne _ rfl, hne _ rfl⟩
  simp [isJsonBlank, hne 0x20 rfl, hne 0x09 rfl, hne 0x0A rfl, hne 0x0D rfl]

theorem written_number {n : Int} (h : n.natAbs ≤ 2 ^ 53) : Written (.number (.finite n)) (wholeText n) := by
  have hunits := wholeText_units n
  obtain ⟨u, units, hcons⟩ := List.exists_cons_of_ne_nil (wholeText_ne_nil n)
  obtain ⟨hblank, hbracket, hquote, harray, hobject⟩ :=
    isNumberUnit_begins (hunits u (by rw [hcons]; exact List.mem_cons_self))
  refine ⟨(wholeText_ascii n).wellFormed, ?_, wholeText_ne_nil n, ?_⟩
  · rw [hcons]
    rintro v ⟨⟩
    exact ⟨wholeText_ascii n u (by rw [hcons]; exact List.mem_cons_self), hblank, hbracket⟩
  · intro fuel rest hfuel hrest
    have hliteral := readLiteral_wholeText h hrest
    rw [hcons] at hfuel hliteral ⊢
    obtain ⟨fuel, rfl⟩ : ∃ n, fuel = n + 1 := ⟨fuel - 1, by rw [List.length_cons] at hfuel; omega⟩
    rw [valueWithin_begins (by intro v hv; cases hv; exact hblank), List.cons_append, readValue, if_neg hquote,
      if_neg harray, if_neg hobject]
    exact hliteral

theorem written_string (s : JsString) : Written (.string s) (quote s) := by
  refine ⟨quote_wellFormed s, ?_, List.cons_ne_nil _ _, ?_⟩
  · rintro u ⟨⟩
    exact ⟨by decide, rfl, by decide⟩
  · intro fuel rest hfuel _
    rw [quote] at hfuel ⊢
    obtain ⟨fuel, rfl⟩ : ∃ n, fuel = n + 1 := ⟨fuel - 1, by rw [List.length_cons] at hfuel; omega⟩
    rw [valueWithin_begins (by rintro u ⟨⟩; rfl), List.cons_append, readValue, if_pos rfl, List.append_assoc,
      List.singleton_append, readString_quote]
    rfl

/-- What stands behind a value inside a bracket. -/
theorem endsNumber_cons {u : CodeUnit} (h : isNumberUnit u = false) (rest : JsString) : EndsNumber (u :: rest) := by
  rintro v ⟨⟩
  exact h

theorem readMore_comma {β : Type} (more : JsString → Option (List β × JsString)) {closing : CodeUnit} (b : β)
    {rest : JsString} {bs : List β} {after : JsString} (h : more rest = some (bs, after)) :
    readMore more closing b (0x2C :: rest) = some (b :: bs, after) := by
  rw [readMore, skipBlanks_of_begins (by rintro u ⟨⟩; rfl), List.head?_cons, if_pos rfl, List.tail_cons, h]
  rfl

theorem readMore_close {β : Type} (more : JsString → Option (List β × JsString)) {closing : CodeUnit} (b : β)
    (rest : JsString) (hblank : isJsonBlank closing = false) (hcomma : closing ≠ 0x2C) :
    readMore more closing b (closing :: rest) = some ([b], rest) := by
  have hhead : (closing :: rest).head? ≠ some 0x2C := fun heq => hcomma (Option.some.inj heq)
  rw [readMore, skipBlanks_of_begins (by rintro u ⟨⟩; exact hblank), if_neg hhead, List.head?_cons, if_pos rfl,
    List.tail_cons]

theorem joinCommas_cons {text next : JsString} {texts : List JsString} :
    joinCommas (text :: next :: texts) = text ++ 0x2C :: joinCommas (next :: texts) := rfl

theorem itemsWithin_joinCommas {items : List Json} {texts : List JsString} (h : List.Forall₂ Written items texts)
    (hne : items ≠ []) {fuel : Nat} (hfuel : (joinCommas texts).length < fuel) (rest : JsString) :
    itemsWithin fuel (joinCommas texts ++ 0x5D :: rest) = some (items, rest) := by
  induction h generalizing fuel with
  | nil => exact absurd rfl hne
  | @cons item text items texts hitem hitems ih =>
    obtain ⟨fuel, rfl⟩ : ∃ n, fuel = n + 1 := ⟨fuel - 1, by omega⟩
    rw [itemsWithin, readItems]
    cases hitems with
    | nil =>
      rw [joinCommas] at hfuel ⊢
      rw [hitem.reads fuel _ (by omega) (endsNumber_cons rfl rest)]
      exact readMore_close _ _ rest rfl (by decide)
    | @cons next nextText items texts hnext hrest =>
      rw [joinCommas_cons, List.length_append, List.length_cons] at hfuel
      rw [joinCommas_cons, List.append_assoc, List.cons_append, hitem.reads fuel _ (by omega) (endsNumber_cons rfl _)]
      exact readMore_comma _ _ (ih (List.cons_ne_nil _ _) (by omega))

/-- An entry's text is its name, a colon and the text of its value. -/
def WrittenEntry (entry : JsString × Json) (text : JsString) : Prop :=
  ∃ value, text = quote entry.1 ++ 0x3A :: value ∧ Written entry.2 value

theorem entriesWithin_joinCommas {entries : List (JsString × Json)} {texts : List JsString}
    (h : List.Forall₂ WrittenEntry entries texts) (hne : entries ≠ []) {fuel : Nat}
    (hfuel : (joinCommas texts).length < fuel) (rest : JsString) :
    entriesWithin fuel (joinCommas texts ++ 0x7D :: rest) = some (entries, rest) := by
  induction h generalizing fuel with
  | nil => exact absurd rfl hne
  | @cons entry text entries texts hentry hentries ih =>
    obtain ⟨fuel, rfl⟩ : ∃ n, fuel = n + 1 := ⟨fuel - 1, by omega⟩
    obtain ⟨value, rfl, hvalue⟩ := hentry
    have hread (tail : JsString) (hlength : value.length ≤ fuel) (htail : EndsNumber tail) :
        readEntries (valueWithin fuel) (entriesWithin fuel) ((quote entry.1 ++ 0x3A :: value) ++ tail) =
          readMore (entriesWithin fuel) 0x7D entry tail := by
      rw [quote, List.cons_append, List.cons_append, readEntries, skipBlanks_of_begins (by rintro u ⟨⟩; rfl),
        List.head?_cons, if_pos rfl, List.tail_cons, List.append_assoc, List.append_assoc, List.singleton_append,
        readString_quote]
      rw [Option.bind_some, List.cons_append, skipBlanks_of_begins (by rintro u ⟨⟩; rfl), List.head?_cons, if_pos rfl,
        List.tail_cons, hvalue.reads fuel tail hlength htail]
      rfl
    rw [entriesWithin]
    cases hentries with
    | nil =>
      rw [joinCommas] at hfuel ⊢
      rw [List.length_append, List.length_cons] at hfuel
      rw [hread _ (by omega) (endsNumber_cons rfl rest)]
      exact readMore_close _ _ rest rfl (by decide)
    | @cons next nextText entries texts hnext hrest =>
      rw [joinCommas_cons, List.length_append, List.length_append, List.length_cons, List.length_cons] at hfuel
      rw [joinCommas_cons, List.append_assoc, List.cons_append, hread _ (by omega) (endsNumber_cons rfl _)]
      exact readMore_comma _ _ (ih (List.cons_ne_nil _ _) (by omega))

theorem joinCommas_wellFormed {β : Type} {R : β → JsString → Prop} (hR : ∀ b text, R b text → WellFormed text)
    {bs : List β} {texts : List JsString} (h : List.Forall₂ R bs texts) : WellFormed (joinCommas texts) := by
  induction h with
  | nil => exact IsAscii.wellFormed (by decide)
  | @cons b text bs texts hb hbs ih =>
    cases hbs with
    | nil => exact hR b text hb
    | cons hnext hrest => exact (wellFormed_append_ascii (by decide) _ _).mpr ⟨hR b text hb, ih⟩

theorem bracketed_wellFormed {opening closing : CodeUnit} (hopening : opening.toNat < 0x80)
    (hclosing : closing.toNat < 0x80)
    {s : JsString} (h : WellFormed s) : WellFormed (opening :: (s ++ [closing])) := by
  have hempty : WellFormed [] := IsAscii.wellFormed (by decide)
  exact (wellFormed_append_ascii hopening [] _).mpr ⟨hempty, (wellFormed_append_ascii hclosing s []).mpr ⟨h, hempty⟩⟩

/-- The first of some joined texts begins them. -/
theorem head?_joinCommas {text : JsString} (hne : text ≠ []) (texts : List JsString) :
    (joinCommas (text :: texts)).head? = text.head? := by
  cases texts with
  | nil => rfl
  | cons next texts => rw [joinCommas_cons, List.head?_append_of_ne_nil _ hne]

/-- Setting names one after another, none of them twice, keeps the entries as they are. -/
theorem lastOfEach_eq {entries : List (JsString × Json)} (h : (entries.map Prod.fst).Nodup) :
    lastOfEach entries = entries := by
  have hset (kept entries : List (JsString × Json)) (h : ((kept ++ entries).map Prod.fst).Nodup) :
      entries.foldl (fun kept entry => InsertionMap.setEntries kept entry.1 entry.2) kept = kept ++ entries := by
    induction entries generalizing kept with
    | nil => rw [List.append_nil]; rfl
    | cons entry entries ih =>
      have hfresh : entry.1 ∉ kept.map Prod.fst := by
        rw [List.map_append, List.map_cons] at h
        intro hmem
        exact (List.nodup_append.mp h).2.2 _ hmem _ List.mem_cons_self rfl
      have hsplit : kept ++ entry :: entries = (kept ++ [entry]) ++ entries := by simp
      rw [hsplit] at h ⊢
      rw [List.foldl_cons, InsertionMap.setEntries, if_neg hfresh]
      exact ih (kept ++ [entry]) h
  exact hset [] entries h

theorem written_array {items : List Json} {texts : List JsString} (h : List.Forall₂ Written items texts) :
    Written (.array items) (0x5B :: (joinCommas texts ++ [0x5D])) := by
  refine ⟨bracketed_wellFormed (by decide) (by decide) (joinCommas_wellFormed (fun _ _ hw => hw.wellFormed) h), ?_,
    List.cons_ne_nil _ _, ?_⟩
  · rintro u ⟨⟩
    exact ⟨by decide, rfl, by decide⟩
  · intro fuel rest hfuel _
    rw [List.length_cons, List.length_append, List.length_singleton] at hfuel
    obtain ⟨fuel, rfl⟩ : ∃ n, fuel = n + 1 := ⟨fuel - 1, by omega⟩
    rw [valueWithin_begins (by rintro u ⟨⟩; rfl), List.cons_append, readValue, if_neg (by decide), if_pos rfl,
      List.append_assoc, List.singleton_append]
    cases h with
    | nil =>
      rw [joinCommas, List.nil_append, skipBlanks_of_begins (by rintro u ⟨⟩; rfl), List.head?_cons, if_pos rfl]
      rfl
    | @cons item text items texts hitem hitems =>
      have hhead : (joinCommas (text :: texts) ++ 0x5D :: rest).head? = text.head? := by
        rw [← head?_joinCommas hitem.ne_nil texts]
        apply List.head?_append_of_ne_nil
        intro hnil
        have := head?_joinCommas hitem.ne_nil texts
        rw [hnil, List.head?_nil, eq_comm, List.head?_eq_none_iff] at this
        exact hitem.ne_nil this
      have hopen : (joinCommas (text :: texts) ++ 0x5D :: rest).head? ≠ some 0x5D := by
        rw [hhead]
        exact fun heq => (hitem.begins _ heq).2.2 rfl
      rw [skipBlanks_of_begins (by rw [hhead]; exact fun u hu => (hitem.begins u hu).2.1), if_neg hopen,
        itemsWithin_joinCommas (.cons hitem hitems) (List.cons_ne_nil _ _) (by omega)]
      rfl

theorem written_object {entries : List (JsString × Json)} {texts : List JsString}
    (hnames : (entries.map Prod.fst).Nodup) (h : List.Forall₂ WrittenEntry entries texts) :
    Written (.object entries) (0x7B :: (joinCommas texts ++ [0x7D])) := by
  have hentry : ∀ entry text, WrittenEntry entry text → WellFormed text := by
    rintro entry _ ⟨value, rfl, hvalue⟩
    exact (wellFormed_append_ascii (by decide) _ _).mpr ⟨quote_wellFormed _, hvalue.wellFormed⟩
  refine ⟨bracketed_wellFormed (by decide) (by decide) (joinCommas_wellFormed hentry h), ?_, List.cons_ne_nil _ _, ?_⟩
  · rintro u ⟨⟩
    exact ⟨by decide, rfl, by decide⟩
  · intro fuel rest hfuel _
    rw [List.length_cons, List.length_append, List.length_singleton] at hfuel
    obtain ⟨fuel, rfl⟩ : ∃ n, fuel = n + 1 := ⟨fuel - 1, by omega⟩
    rw [valueWithin_begins (by rintro u ⟨⟩; rfl), List.cons_append, readValue, if_neg (by decide), if_neg (by decide),
      if_pos rfl, List.append_assoc, List.singleton_append]
    cases h with
    | nil =>
      rw [joinCommas, List.nil_append, skipBlanks_of_begins (by rintro u ⟨⟩; rfl), List.head?_cons, if_pos rfl]
      rfl
    | @cons entry text entries texts hfirst hothers =>
      obtain ⟨value, rfl, hvalue⟩ := hfirst
      have hhead : (joinCommas ((quote entry.1 ++ 0x3A :: value) :: texts) ++ 0x7D :: rest).head? = some quoteMark := by
        cases texts with
        | nil => rfl
        | cons next texts => rfl
      have hopen : (joinCommas ((quote entry.1 ++ 0x3A :: value) :: texts) ++ 0x7D :: rest).head? ≠ some 0x7D := by
        rw [hhead]
        decide
      rw [skipBlanks_of_begins (by rw [hhead]; rintro u ⟨⟩; rfl), if_neg hopen,
        entriesWithin_joinCommas (.cons ⟨value, rfl, hvalue⟩ hothers) (List.cons_ne_nil _ _) (by omega), Option.map_some,
        lastOfEach_eq hnames]

theorem stringifyItems_written {items : List Json}
    (h : ∀ item ∈ items, ∃ text, stringify item = some text ∧ Written item text) :
    ∃ texts, stringifyItems items = some texts ∧ List.Forall₂ Written items texts := by
  induction items with
  | nil => exact ⟨[], by rw [stringifyItems], .nil⟩
  | cons item items ih =>
    obtain ⟨text, htext, hwritten⟩ := h item List.mem_cons_self
    obtain ⟨texts, htexts, hall⟩ := ih fun i hi => h i (List.mem_cons_of_mem item hi)
    exact ⟨text :: texts, by rw [stringifyItems, htext, htexts]; rfl, .cons hwritten hall⟩

theorem stringifyEntries_written {entries : List (JsString × Json)}
    (h : ∀ entry ∈ entries, ∃ text, stringify entry.2 = some text ∧ Written entry.2 text) :
    ∃ texts, stringifyEntries entries = some texts ∧ List.Forall₂ WrittenEntry entries texts := by
  induction entries with
  | nil => exact ⟨[], by rw [stringifyEntries], .nil⟩
  | cons entry entries ih =>
    obtain ⟨text, htext, hwritten⟩ := h entry List.mem_cons_self
    obtain ⟨texts, htexts, hall⟩ := ih fun e he => h e (List.mem_cons_of_mem entry he)
    exact ⟨(quote entry.1 ++ 0x3A :: text) :: texts, by rw [stringifyEntries, htext, htexts]; rfl,
      .cons ⟨text, rfl, hwritten⟩ hall⟩

/-- Every plain value is written, and what is written is read as that value. -/
theorem Plain.written {value : Json} (h : Plain value) : ∃ text, stringify value = some text ∧ Written value text := by
  induction h with
  | null =>
    exact ⟨js "null", by rw [stringify], written_word (by decide) (by rintro u ⟨⟩; decide) (by decide) fun rest => rfl⟩
  | bool b =>
    cases b with
    | true =>
      refine ⟨js "true", by rw [stringify]; rfl, ?_⟩
      exact written_word (by decide) (by rintro u ⟨⟩; decide) (by decide) fun rest => rfl
    | false =>
      refine ⟨js "false", by rw [stringify]; rfl, ?_⟩
      exact written_word (by decide) (by rintro u ⟨⟩; decide) (by decide) fun rest => rfl
  | @number n h =>
    have hwhole : (n : ℚ).den = 1 ∧ (n : ℚ).num.natAbs < 10 ^ 21 := by
      rw [Rat.den_intCast, Rat.num_intCast]
      exact ⟨rfl, lt_of_le_of_lt h (by norm_num)⟩
    exact ⟨wholeText n, by rw [stringify, if_pos hwhole, Rat.num_intCast], written_number h⟩
  | string s => exact ⟨quote s, by rw [stringify], written_string s⟩
  | array _ ih =>
    obtain ⟨texts, htexts, hall⟩ := stringifyItems_written ih
    exact ⟨_, by rw [stringify, htexts]; rfl, written_array hall⟩
  | object hnames _ ih =>
    obtain ⟨texts, htexts, hall⟩ := stringifyEntries_written ih
    exact ⟨_, by rw [stringify, htexts]; rfl, written_object hnames hall⟩

/-- `JSON.parse` reads what `JSON.stringify` wrote. -/
theorem parseJson_stringify {value : Json} (h : Plain value) {text : JsString} (htext : stringify value = some text) :
    parseJson text = some value := by
  obtain ⟨text', htext', hwritten⟩ := h.written
  obtain rfl := Option.some.inj (htext.symm.trans htext')
  have hread := hwritten.reads (2 * text.length + 1) [] (by omega) (by rintro u ⟨⟩)
  rw [List.append_nil] at hread
  rw [parseJson, hread]
  rfl

end NestStorageExample.Text
