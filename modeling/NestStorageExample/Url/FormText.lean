import NestStorageExample.Url.BehindQuery
import NestStorageExample.Url.SearchParams

/-! Queries as they are written: by `URLSearchParams`, by `encodeURIComponent`, and once more
by the URL parser, which escapes what a query must not show. However a value was written, it
is read as what it was. -/
namespace NestStorageExample.Url
open Text

def ampersand : CodeUnit := 0x26

def equalsSign : CodeUnit := 0x3D

/-- A unit that may stand for itself in the value of a query. -/
def isQueryPlain (cp : Nat) : Bool :=
  0x20 < cp && cp < 0x7F && !([0x22, 0x23, 0x25, 0x26, 0x2B, 0x3C, 0x3D, 0x3E].contains cp)

/-- How a code point may be written in a value: as itself, a space as a plus, or byte by byte. -/
inductive CodePointText (cp : Nat) : JsString → Prop where
  | plain (h : isQueryPlain cp = true) : CodePointText cp [UInt16.ofNat cp]
  | plus (h : cp = 0x20) : CodePointText cp [0x2B]
  | escaped : CodePointText cp ((utf8CodePoint cp).flatMap percentEncodeByte)

inductive FormText : List Nat → JsString → Prop where
  | nil : FormText [] []
  | cons {cp : Nat} {cps : List Nat} {text rest : JsString} (h : CodePointText cp text) (hrest : FormText cps rest) :
      FormText (cp :: cps) (text ++ rest)

/-- A name of letters, which is written as it is. -/
def IsName (name : JsString) : Prop := ∀ u ∈ name, isAlpha u.toNat = true

/-- `name=value`, the value written in some way. -/
inductive ParamText : JsString × JsString → JsString → Prop where
  | mk {name value text : JsString} (hname : IsName name) (hvalue : WellFormed value)
      (h : FormText (codePoints value) text) : ParamText (name, value) (name ++ equalsSign :: text)

/-- Parameters with `&` between them. -/
inductive QueryText : List (JsString × JsString) → JsString → Prop where
  | nil : QueryText [] []
  | single {param : JsString × JsString} {text : JsString} (h : ParamText param text) : QueryText [param] text
  | cons {param next : JsString × JsString} {params : List (JsString × JsString)} {text rest : JsString}
      (h : ParamText param text) (hrest : QueryText (next :: params) rest) :
      QueryText (param :: next :: params) (text ++ ampersand :: rest)

/-! `URLSearchParams`. -/

def isFormSafe (cp : Nat) : Bool :=
  isAlpha cp || (0x30 ≤ cp && cp ≤ 0x39) || [0x2A, 0x2D, 0x2E, 0x5F].contains cp

def formCodePoint (cp : Nat) : JsString :=
  if cp = 0x20 then [0x2B]
  else if isFormSafe cp then [UInt16.ofNat cp]
  else (utf8CodePoint cp).flatMap percentEncodeByte

/-- A lone surrogate is replaced when it is handed over. -/
def formText (s : JsString) : JsString :=
  (codePoints s).flatMap fun cp => formCodePoint (if IsSurrogate cp then replacement else cp)

/-- `toString()` of the parameters set. -/
def searchParamsText (params : List (JsString × JsString)) : JsString :=
  [ampersand].intercalate (params.map fun param => formText param.1 ++ equalsSign :: formText param.2)

section Units

theorem isQueryPlain_spec {cp : Nat} (h : isQueryPlain cp = true) : 0x20 < cp ∧ cp < 0x7F ∧
    cp ∉ [0x22, 0x23, 0x25, 0x26, 0x2B, 0x3C, 0x3D, 0x3E] := by
  simpa [isQueryPlain, and_assoc] using h

/-- A unit of a written query: none that ends the query, and none that ends a value. -/
structure QueryUnit (u : CodeUnit) : Prop where
  visible : 0x20 < u.toNat ∧ u.toNat < 0x7F
  kept : u.toNat ∉ [0x22, 0x23, 0x3C, 0x3E]
  within : u ≠ ampersand ∧ u ≠ equalsSign

theorem toNat_ofNat {cp : Nat} (h : cp < 0x7F) : (UInt16.ofNat cp).toNat = cp :=
  UInt16.toNat_ofNat_of_lt' (by simp only [UInt16.size]; omega)

theorem queryUnit_of_plain {cp : Nat} (h : isQueryPlain cp = true) : QueryUnit (UInt16.ofNat cp) := by
  obtain ⟨hlow, hhigh, hnot⟩ := isQueryPlain_spec h
  have hcp := toNat_ofNat hhigh
  simp only [List.mem_cons, List.not_mem_nil, or_false, not_or] at hnot
  refine ⟨by omega, by simp only [List.mem_cons, List.not_mem_nil, or_false, not_or]; omega, ?_, ?_⟩
  · rintro heq
    rw [heq] at hcp
    exact hnot.2.2.2.1 hcp.symm
  · rintro heq
    rw [heq] at hcp
    exact hnot.2.2.2.2.2.2.1 hcp.symm

theorem queryUnit_percentSign : QueryUnit percentSign := ⟨by decide, by decide, by decide, by decide⟩

theorem queryUnit_hexDigit {n : Nat} (h : n < 16) : QueryUnit (hexDigit n) := by
  have hdigit := hexDigit_toNat h
  have hbounds : 0x30 ≤ (hexDigit n).toNat ∧ (hexDigit n).toNat ≤ 0x46 ∧ ¬ (0x3A ≤ (hexDigit n).toNat ∧
      (hexDigit n).toNat ≤ 0x40) := by
    rw [hdigit]
    split <;> omega
  refine ⟨by omega, by simp only [List.mem_cons, List.not_mem_nil, or_false, not_or]; omega, ?_, ?_⟩
  · rintro heq
    rw [heq] at hbounds
    exact absurd hbounds.1 (by decide)
  · rintro heq
    rw [heq] at hbounds
    exact hbounds.2.2 (by decide)

theorem escape_units (b : Byte) :
    ∀ u ∈ percentEncodeByte b, QueryUnit u ∧ (u = percentSign ∨ ∃ n < 16, u = hexDigit n) := by
  intro u hu
  have hlt := b.toNat_lt
  have hhigh : b.toNat / 16 < 16 := by omega
  have hlow : b.toNat % 16 < 16 := by omega
  simp only [percentEncodeByte, List.mem_cons, List.not_mem_nil, or_false] at hu
  obtain rfl | rfl | rfl := hu
  · exact ⟨queryUnit_percentSign, Or.inl rfl⟩
  · exact ⟨queryUnit_hexDigit hhigh, Or.inr ⟨_, hhigh, rfl⟩⟩
  · exact ⟨queryUnit_hexDigit hlow, Or.inr ⟨_, hlow, rfl⟩⟩

theorem CodePointText.units {cp : Nat} {text : JsString} (h : CodePointText cp text) : ∀ u ∈ text, QueryUnit u := by
  intro u hu
  cases h with
  | plain h =>
    rw [List.mem_singleton.mp hu]
    exact queryUnit_of_plain h
  | plus h =>
    rw [List.mem_singleton.mp hu]
    exact ⟨by decide, by decide, by decide, by decide⟩
  | escaped =>
    obtain ⟨b, -, hb⟩ := List.mem_flatMap.mp hu
    exact (escape_units b u hb).1

theorem FormText.units {cps : List Nat} {text : JsString} (h : FormText cps text) : ∀ u ∈ text, QueryUnit u := by
  induction h with
  | nil => exact fun u hu => absurd hu List.not_mem_nil
  | cons h _ ih =>
    intro u hu
    rcases List.mem_append.mp hu with hu | hu
    · exact h.units u hu
    · exact ih u hu

theorem queryUnit_of_alpha {u : CodeUnit} (h : isAlpha u.toNat = true) : QueryUnit u := by
  simp only [isAlpha, Bool.or_eq_true, Bool.and_eq_true, decide_eq_true_eq] at h
  refine ⟨by omega, by simp only [List.mem_cons, List.not_mem_nil, or_false, not_or]; omega, ?_, ?_⟩ <;>
  · rintro rfl
    exact absurd h (by decide)

theorem ParamText.units {param : JsString × JsString} {text : JsString} (h : ParamText param text) :
    ∀ u ∈ text, QueryUnit u ∨ u = equalsSign := by
  obtain @⟨name, value, written, hname, -, hwritten⟩ := h
  intro u hu
  rcases List.mem_append.mp hu with hu | hu
  · exact Or.inl (queryUnit_of_alpha (hname u hu))
  · rcases List.mem_cons.mp hu with rfl | hu
    · exact Or.inr rfl
    · exact Or.inl (hwritten.units u hu)

/-- A query is of one line, and it does not end early. -/
theorem QueryText.units {params : List (JsString × JsString)} {query : JsString} (h : QueryText params query) :
    ∀ u ∈ query, (0x20 < u.toNat ∧ u.toNat < 0x7F) ∧ u.toNat ≠ 0x23 := by
  have hparam {param : JsString × JsString} {text : JsString} (h : ParamText param text) :
      ∀ u ∈ text, (0x20 < u.toNat ∧ u.toNat < 0x7F) ∧ u.toNat ≠ 0x23 := by
    intro u hu
    rcases h.units u hu with hunit | rfl
    · have hkept := hunit.kept
      simp only [List.mem_cons, List.not_mem_nil, or_false, not_or] at hkept
      exact ⟨hunit.visible, hkept.2.1⟩
    · decide
  induction h with
  | nil => exact fun u hu => absurd hu List.not_mem_nil
  | single h => exact hparam h
  | cons h _ ih =>
    intro u hu
    rcases List.mem_append.mp hu with hu | hu
    · exact hparam h u hu
    · rcases List.mem_cons.mp hu with rfl | hu
      · decide
      · exact ih u hu

end Units

section Reading

/-- What the reader of a form makes of a unit, as a byte. -/
def formByte (u : CodeUnit) : Byte := UInt8.ofNat (if u = 0x2B then 0x20 else u).toNat

theorem formByte_of_ne {u : CodeUnit} (h : u ≠ 0x2B) : formByte u = UInt8.ofNat u.toNat := by
  rw [formByte, if_neg h]

theorem hexDigit_ne_plus : ∀ n < 16, hexDigit n ≠ 0x2B := by decide

theorem map_formByte_escape (b : Byte) :
    (percentEncodeByte b).map formByte = (percentEncodeByte b).map (fun u => UInt8.ofNat u.toNat) := by
  apply List.map_congr_left
  intro u hu
  apply formByte_of_ne
  rcases (escape_units b u hu).2 with rfl | ⟨n, hn, rfl⟩
  · decide
  · exact hexDigit_ne_plus n hn

theorem percentDecodeBytes_escapes (bytes rest : List Byte) :
    percentDecodeBytes ((bytes.flatMap percentEncodeByte).map formByte ++ rest) = bytes ++ percentDecodeBytes rest := by
  induction bytes with
  | nil => rfl
  | cons b bytes ih =>
    rw [List.flatMap_cons, List.map_append, List.append_assoc, map_formByte_escape, percentDecodeBytes_escape, ih,
      List.cons_append]

theorem utf8CodePoint_ascii {cp : Nat} (h : cp < 0x80) : utf8CodePoint cp = [UInt8.ofNat cp] := by
  rw [utf8CodePoint, if_pos h]

theorem CodePointText.decoded {cp : Nat} {text : JsString} (h : CodePointText cp text) (rest : List Byte) :
    percentDecodeBytes (text.map formByte ++ rest) = utf8CodePoint cp ++ percentDecodeBytes rest := by
  cases h with
  | plain h =>
    obtain ⟨hlow, hhigh, hnot⟩ := isQueryPlain_spec h
    simp only [List.mem_cons, List.not_mem_nil, or_false, not_or] at hnot
    have hcp := toNat_ofNat hhigh
    have hplus : UInt16.ofNat cp ≠ 0x2B := by
      intro heq
      rw [heq] at hcp
      exact hnot.2.2.2.2.1 hcp.symm
    have hbyte : (UInt8.ofNat cp).toNat = cp := UInt8.toNat_ofNat_of_lt' (by simp only [UInt8.size]; omega)
    rw [List.map_singleton, formByte_of_ne hplus, hcp, List.singleton_append, percentDecodeBytes_cons (by omega),
      utf8CodePoint_ascii (by omega), List.singleton_append]
  | plus h =>
    rw [h, List.map_singleton, List.singleton_append, percentDecodeBytes_cons (by decide)]
    rfl
  | escaped => exact percentDecodeBytes_escapes _ rest

theorem FormText.decoded {cps : List Nat} {text : JsString} (h : FormText cps text) :
    percentDecodeBytes (text.map formByte) = cps.flatMap utf8CodePoint := by
  induction h with
  | nil => rfl
  | cons h _ ih => rw [List.map_append, h.decoded, ih, List.flatMap_cons]

theorem decodeFormText_ascii {text : JsString} (h : IsAscii text) :
    decodeFormText text = decodeUtf8 (percentDecodeBytes (text.map formByte)) := by
  have hspaced : IsAscii (text.map fun u => if u = 0x2B then 0x20 else u) := by
    intro u hu
    obtain ⟨v, hv, rfl⟩ := List.mem_map.mp hu
    split
    · decide
    · exact h v hv
  rw [decodeFormText, percentDecode, encodeUtf8_ascii hspaced, List.map_map]
  rfl

theorem isAscii_of_queryUnit {text : JsString} (h : ∀ u ∈ text, QueryUnit u) : IsAscii text :=
  fun u hu => by have := (h u hu).visible; omega

/-- However a value is written, this is what it is read as. -/
theorem decodeFormText_written {value text : JsString} (hvalue : WellFormed value)
    (h : FormText (codePoints value) text) : decodeFormText text = value := by
  have hbytes : (codePoints value).flatMap utf8CodePoint = encodeUtf8 value := by
    apply List.flatMap_congr
    intro cp hcp
    rw [if_neg (hvalue cp hcp)]
  rw [decodeFormText_ascii (isAscii_of_queryUnit h.units), h.decoded, hbytes, decodeUtf8_encodeUtf8 hvalue]

/-- A text in which every unit may stand for itself. -/
theorem plain_written {text : JsString} (h : ∀ u ∈ text, isQueryPlain u.toNat = true) :
    FormText (codePoints text) text := by
  have hascii : IsAscii text := fun u hu => by have := isQueryPlain_spec (h u hu); omega
  rw [codePoints_ascii hascii]
  clear hascii
  induction text with
  | nil => exact .nil
  | cons u text ih =>
    have hfirst := CodePointText.plain (h u List.mem_cons_self)
    rw [UInt16.ofNat_toNat] at hfirst
    exact .cons hfirst (ih fun v hv => h v (List.mem_cons_of_mem u hv))

theorem isQueryPlain_of_isAlpha {cp : Nat} (h : isAlpha cp = true) : isQueryPlain cp = true := by
  simp only [isAlpha, Bool.or_eq_true, Bool.and_eq_true, decide_eq_true_eq] at h
  simp only [isQueryPlain, Bool.and_eq_true, decide_eq_true_eq, Bool.not_eq_true', List.contains_eq_mem,
    decide_eq_false_iff_not, List.mem_cons, List.not_mem_nil, or_false, not_or]
  omega

theorem isName_formText {name : JsString} (h : IsName name) : FormText (codePoints name) name :=
  plain_written fun u hu => isQueryPlain_of_isAlpha (h u hu)

theorem readPair_written {param : JsString × JsString} {text : JsString} (h : ParamText param text) :
    readPair text = param ∧ text ≠ [] ∧ ∀ u ∈ text, u ≠ ampersand := by
  obtain @⟨name, value, written, hname, hvalue, hwritten⟩ := h
  have hunits (u : CodeUnit) (hu : u ∈ name) : QueryUnit u := queryUnit_of_alpha (hname u hu)
  have htake : (name ++ equalsSign :: written).takeWhile (· != equalsSign) = name := by
    rw [List.takeWhile_append_of_pos (fun u hu => bne_iff_ne.mpr (hunits u hu).within.2),
      List.takeWhile_cons_of_neg (by simp), List.append_nil]
  have hdrop : (name ++ equalsSign :: written).dropWhile (· != equalsSign) = equalsSign :: written := by
    rw [List.dropWhile_append_of_pos (fun u hu => bne_iff_ne.mpr (hunits u hu).within.2),
      List.dropWhile_cons_of_neg (by simp)]
  have hwellFormed : WellFormed name := (isAscii_of_queryUnit hunits).wellFormed
  refine ⟨?_, by simp, ?_⟩
  · change (decodeFormText (List.takeWhile (· != equalsSign) _),
      decodeFormText ((List.dropWhile (· != equalsSign) _).drop 1)) = _
    rw [htake, hdrop, List.drop_one, List.tail_cons, decodeFormText_written hwellFormed (isName_formText hname),
      decodeFormText_written hvalue hwritten]
  · intro u hu
    rcases List.mem_append.mp hu with hu | hu
    · exact (hunits u hu).within.1
    · rcases List.mem_cons.mp hu with rfl | hu
      · decide
      · exact (hwritten.units u hu).within.1

/-- The parameters are read back, in their order. -/
theorem parseForm_written {params : List (JsString × JsString)} {query : JsString} (h : QueryText params query) :
    parseForm query = params := by
  have hsplit (query : JsString) : parseForm query = ((query.splitOn ampersand).filter (· ≠ [])).map readPair := rfl
  induction h with
  | nil => rfl
  | single h =>
    obtain ⟨hread, hne, hunits⟩ := readPair_written h
    rw [hsplit, List.splitOn_eq_singleton (fun hmem => hunits _ hmem rfl), List.filter_cons_of_pos (by simpa using hne),
      List.filter_nil, List.map_singleton, hread]
  | cons h _ ih =>
    obtain ⟨hread, hne, hunits⟩ := readPair_written h
    rw [hsplit, List.splitOn_append_cons_self_of_not_mem (fun hmem => hunits _ hmem rfl),
      List.filter_cons_of_pos (by simpa using hne), List.map_cons, hread, ← hsplit, ih]

end Reading

section Writers

theorem isQueryPlain_of_isUnreserved {cp : Nat} (h : isUnreserved cp = true) : isQueryPlain cp = true := by
  simp only [isUnreserved, Bool.or_eq_true, Bool.and_eq_true, decide_eq_true_eq, List.contains_eq_mem, List.mem_cons,
    List.not_mem_nil, or_false] at h
  simp only [isQueryPlain, Bool.and_eq_true, decide_eq_true_eq, Bool.not_eq_true', List.contains_eq_mem,
    decide_eq_false_iff_not, List.mem_cons, List.not_mem_nil, or_false, not_or]
  omega

theorem isQueryPlain_of_isFormSafe {cp : Nat} (h : isFormSafe cp = true) : isQueryPlain cp = true := by
  simp only [isFormSafe, isAlpha, Bool.or_eq_true, Bool.and_eq_true, decide_eq_true_eq, List.contains_eq_mem,
    List.mem_cons, List.not_mem_nil, or_false] at h
  simp only [isQueryPlain, Bool.and_eq_true, decide_eq_true_eq, Bool.not_eq_true', List.contains_eq_mem,
    decide_eq_false_iff_not, List.mem_cons, List.not_mem_nil, or_false, not_or]
  omega

theorem formText_flatMap {write : Nat → JsString} {cps : List Nat} (h : ∀ cp ∈ cps, CodePointText cp (write cp)) :
    FormText cps (cps.flatMap write) := by
  induction cps with
  | nil => exact .nil
  | cons cp cps ih =>
    rw [List.flatMap_cons]
    exact .cons (h cp List.mem_cons_self) (ih fun c hc => h c (List.mem_cons_of_mem cp hc))

theorem encodeURIComponent_written {s e : JsString} (h : encodeURIComponent s = some e) :
    FormText (codePoints s) e := by
  have hwf : WellFormed s := (encodeURIComponent_isSome s).mp (by rw [h]; rfl)
  rw [encodeURIComponent, if_pos hwf, Option.some.injEq] at h
  rw [← h]
  apply formText_flatMap
  intro cp _
  rw [encodeCodePoint]
  split
  · exact .plain (isQueryPlain_of_isUnreserved ‹_›)
  · exact .escaped

theorem codePointText_formCodePoint (cp : Nat) : CodePointText cp (formCodePoint cp) := by
  rw [formCodePoint]
  split
  · exact .plus ‹_›
  · split
    · exact .plain (isQueryPlain_of_isFormSafe ‹_›)
    · exact .escaped

theorem formText_written {s : JsString} (h : WellFormed s) : FormText (codePoints s) (formText s) := by
  apply formText_flatMap
  intro cp hcp
  rw [if_neg (h cp hcp)]
  exact codePointText_formCodePoint cp

/-- Letters are written as they are. -/
theorem formText_name {name : JsString} (h : IsName name) : formText name = name := by
  have hascii : IsAscii name := isAscii_of_queryUnit fun u hu => queryUnit_of_alpha (h u hu)
  rw [formText, codePoints_ascii hascii, List.flatMap_map]
  calc name.flatMap (fun u => formCodePoint (if IsSurrogate u.toNat then replacement else u.toNat))
      = name.flatMap (fun u => [u]) := by
        apply List.flatMap_congr
        intro u hu
        have hlt := hascii u hu
        have hsafe : isFormSafe u.toNat = true := by rw [isFormSafe, h u hu, Bool.true_or, Bool.true_or]
        have hspace : u.toNat ≠ 0x20 := by
          have := (queryUnit_of_alpha (h u hu)).visible
          omega
        rw [if_neg (fun hsurrogate => by have := hsurrogate.1; omega), formCodePoint, if_neg hspace, if_pos hsafe,
          UInt16.ofNat_toNat]
    _ = name := List.flatMap_singleton' name

theorem searchParamsText_written {params : List (JsString × JsString)}
    (h : ∀ param ∈ params, IsName param.1 ∧ WellFormed param.2) : QueryText params (searchParamsText params) := by
  have hparam (param : JsString × JsString) (hparam : IsName param.1 ∧ WellFormed param.2) :
      ParamText param (formText param.1 ++ equalsSign :: formText param.2) := by
    rw [formText_name hparam.1]
    exact .mk hparam.1 hparam.2 (formText_written hparam.2)
  induction params with
  | nil => exact .nil
  | cons param params ih =>
    have hfirst := hparam param (h param List.mem_cons_self)
    have hrest := ih fun p hp => h p (List.mem_cons_of_mem param hp)
    cases params with
    | nil =>
      rw [searchParamsText, List.map_singleton, List.intercalate_singleton]
      exact .single hfirst
    | cons next params =>
      rw [searchParamsText, List.map_cons, List.map_cons, List.intercalate_cons_cons, List.append_assoc,
        List.singleton_append]
      exact .cons hfirst hrest

end Writers

section Escaping
variable (special : Bool)

/-- What the URL parser makes of a query. -/
def escapedQuery (text : JsString) : JsString := text.flatMap fun u => percentEncode (inQuerySet special) u.toNat

theorem percentEncode_queryUnit {u : CodeUnit} (h : QueryUnit u) (hquote : u.toNat ≠ 0x27) :
    percentEncode (inQuerySet special) u.toNat = [u] := by
  have hkept := h.kept
  have hvisible := h.visible
  simp only [List.mem_cons, List.not_mem_nil, or_false, not_or] at hkept
  rw [percentEncode, if_neg, UInt16.ofNat_toNat]
  simp only [inQuerySet, inC0ControlSet, Bool.or_eq_true, decide_eq_true_eq, List.contains_eq_mem, List.mem_cons,
    List.not_mem_nil, or_false, Bool.and_eq_true, beq_iff_eq, not_or, not_and]
  exact ⟨⟨by omega, by omega⟩, fun _ => hquote⟩

theorem escapedQuery_of_no_quote {text : JsString} (h : ∀ u ∈ text, QueryUnit u ∧ u.toNat ≠ 0x27) :
    escapedQuery special text = text := by
  calc escapedQuery special text = text.flatMap (fun u => [u]) := by
        apply List.flatMap_congr
        intro u hu
        exact percentEncode_queryUnit special (h u hu).1 (h u hu).2
    _ = text := List.flatMap_singleton' text

theorem escape_no_quote (b : Byte) : ∀ u ∈ percentEncodeByte b, QueryUnit u ∧ u.toNat ≠ 0x27 := by
  intro u hu
  obtain ⟨hunit, rfl | ⟨n, hn, rfl⟩⟩ := escape_units b u hu
  · exact ⟨hunit, by decide⟩
  · refine ⟨hunit, ?_⟩
    rw [hexDigit_toNat hn]
    split <;> omega

theorem CodePointText.escaped_query {cp : Nat} {text : JsString} (h : CodePointText cp text) :
    CodePointText cp (escapedQuery special text) := by
  cases h with
  | plain h =>
    have hcp := toNat_ofNat (isQueryPlain_spec h).2.1
    have hsingle : escapedQuery special [UInt16.ofNat cp] = percentEncode (inQuerySet special) cp := by
      rw [escapedQuery, List.flatMap_singleton, hcp]
    rw [hsingle, percentEncode]
    split
    · exact .escaped
    · exact .plain h
  | plus h =>
    rw [escapedQuery_of_no_quote special (fun u hu => by
      rw [List.mem_singleton.mp hu]
      exact ⟨⟨by decide, by decide, by decide, by decide⟩, by decide⟩)]
    exact .plus h
  | escaped =>
    rw [escapedQuery_of_no_quote special (fun u hu => by
      obtain ⟨b, -, hb⟩ := List.mem_flatMap.mp hu
      exact escape_no_quote b u hb)]
    exact .escaped

theorem FormText.escaped_query {cps : List Nat} {text : JsString} (h : FormText cps text) :
    FormText cps (escapedQuery special text) := by
  induction h with
  | nil => exact .nil
  | cons h _ ih =>
    rw [escapedQuery, List.flatMap_append]
    exact .cons (h.escaped_query special) ih

theorem alpha_no_quote {u : CodeUnit} (h : isAlpha u.toNat = true) : QueryUnit u ∧ u.toNat ≠ 0x27 := by
  refine ⟨queryUnit_of_alpha h, ?_⟩
  intro heq
  rw [heq] at h
  cases h

theorem escapedQuery_cons_separator {u : CodeUnit} (hu : u = ampersand ∨ u = equalsSign) (text : JsString) :
    escapedQuery special (u :: text) = u :: escapedQuery special text := by
  have hself : percentEncode (inQuerySet special) u.toNat = [u] := by
    obtain rfl | rfl := hu <;> cases special <;> rfl
  rw [escapedQuery, List.flatMap_cons, hself]
  rfl

theorem ParamText.escaped_query {param : JsString × JsString} {text : JsString} (h : ParamText param text) :
    ParamText param (escapedQuery special text) := by
  obtain @⟨name, value, written, hname, hvalue, hwritten⟩ := h
  have hself : escapedQuery special name = name :=
    escapedQuery_of_no_quote special fun u hu => alpha_no_quote (hname u hu)
  rw [escapedQuery, List.flatMap_append, ← escapedQuery, ← escapedQuery, hself,
    escapedQuery_cons_separator special (Or.inr rfl)]
  exact .mk hname hvalue (hwritten.escaped_query special)

/-- A query that the parser has escaped once more is still a text of its parameters. -/
theorem QueryText.escaped_query {params : List (JsString × JsString)} {query : JsString} (h : QueryText params query) :
    QueryText params (escapedQuery special query) := by
  induction h with
  | nil => exact .nil
  | single h => exact .single (h.escaped_query special)
  | cons h _ ih =>
    rw [escapedQuery, List.flatMap_append, ← escapedQuery, ← escapedQuery,
      escapedQuery_cons_separator special (Or.inl rfl)]
    exact .cons (h.escaped_query special) ih

end Escaping

section Parser
variable {α : Type} (hosts : Hosts α)

/-- A last unit that is seen keeps what stands in front of it from being trimmed. -/
theorem input_append_visible {u : CodeUnit} (hu : 0x20 < u.toNat ∧ u.toNat < 0x7F) (s : JsString) :
    ∃ front : List Nat, ∀ text : JsString, (∀ c ∈ text, 0x20 < c.toNat ∧ c.toNat < 0x7F) →
      input (s ++ u :: text) = front ++ u.toNat :: text.map UInt16.toNat := by
  let scalar := fun cp => if IsSurrogate cp then replacement else cp
  refine ⟨(((codePoints s).map scalar).dropWhile isC0OrSpace).filter (fun cp => !isTabOrNewline cp), ?_⟩
  intro text htext
  have hall : ∀ c ∈ u :: text, 0x20 < c.toNat ∧ c.toNat < 0x7F := List.forall_mem_cons.mpr ⟨hu, htext⟩
  have hascii : IsAscii (u :: text) := fun c hc => by have := hall c hc; omega
  have hseen : ∀ cp ∈ (u :: text).map UInt16.toNat, 0x20 < cp ∧ cp < 0x7F := by
    intro cp hcp
    obtain ⟨c, hc, rfl⟩ := List.mem_map.mp hcp
    exact hall c hc
  have hscalar : (codePoints (u :: text)).map scalar = (u :: text).map UInt16.toNat := by
    rw [codePoints_ascii hascii]
    refine (List.map_congr_left ?_).trans (List.map_id _)
    intro cp hcp
    have := hseen cp hcp
    exact if_neg (fun h => by have := h.1; omega)
  have hcodes : codePoints (s ++ u :: text) = codePoints s ++ codePoints (u :: text) := by
    rw [codePoints_append_ascii (by omega), codePoints_cons_of_not_high (ascii_not_high (by omega))]
  have hkept : ((u :: text).map UInt16.toNat).filter (fun cp => !isTabOrNewline cp) = (u :: text).map UInt16.toNat := by
    apply List.filter_eq_self.mpr
    intro cp hcp
    have := hseen cp hcp
    simp only [isTabOrNewline, Bool.not_eq_true', Bool.or_eq_false_iff, beq_eq_false_iff_ne]
    omega
  have hvisible : ∀ cp ∈ (u :: text).map UInt16.toNat, isC0OrSpace cp = false := by
    intro cp hcp
    have := hseen cp hcp
    simp only [isC0OrSpace, decide_eq_false_iff_not]
    omega
  have hblank : isC0OrSpace u.toNat = false := hvisible u.toNat List.mem_cons_self
  have hne : (u :: text).map UInt16.toNat ≠ [] := by simp
  rw [input, hcodes, List.map_append, hscalar, List.map_cons, dropWhile_append_cons hblank, ← List.map_cons,
    rdropWhile_append_of_all hne hvisible, List.filter_append, hkept, List.map_cons]

/-- The question mark behind a URL that has a path and nothing behind it. -/
theorem step_question_of_finish {state : State α} {front : Front α} {segments : List JsString}
    (h : finish hosts state = some ⟨front, .segments segments, none, none⟩) :
    step hosts state 0x3F = .query front (.segments segments) [] := by
  have hpath (front' : Front α) (segments' : List JsString) (buffer : JsString)
      (hend : pathEnd front' segments' buffer = ⟨front, .segments segments, none, none⟩) :
      pathStep front' segments' buffer 0x3F = .query front (.segments segments) [] := by
    rw [pathEnd, UrlRecord.mk.injEq, UrlPath.segments.injEq] at hend
    obtain ⟨rfl, rfl, -, -⟩ := hend
    exact pathStep_question front' segments' buffer
  have hstart (front' : Front α) (hend : pathStartEnd front' = ⟨front, .segments segments, none, none⟩) :
      pathStartStep front' 0x3F = .query front (.segments segments) [] := by
    rw [pathStartEnd] at hend
    cases hspecial : isSpecial front'.scheme with
    | true =>
      rw [hspecial, if_pos rfl] at hend
      rw [pathStartStep, hspecial, if_neg (by decide), if_pos rfl, hpath _ _ _ hend]
    | false =>
      rw [hspecial, if_neg (by decide), UrlRecord.mk.injEq] at hend
      rw [pathStartStep, hspecial, if_neg (by decide), if_neg (by decide), if_pos (by decide), leavePath, if_pos rfl,
        hend.1, hend.2.1]
  have hauthority (scheme : JsString) (buffer : List Nat) (hend : ((hosts.authority (isSpecial scheme) buffer).map
      fun authority => pathStartEnd ⟨scheme, some authority⟩) = some ⟨front, .segments segments, none, none⟩) :
      authorityStep hosts scheme buffer 0x3F = .query front (.segments segments) [] := by
    obtain ⟨authority, hread, hend⟩ := Option.map_eq_some_iff.mp hend
    rw [authorityStep, if_pos (by simp [endsPath]), hread]
    exact hstart _ hend
  cases state with
  | failure => cases h
  | schemeStart => cases h
  | scheme buffer => cases h
  | afterScheme scheme => cases h
  | pathOrAuthority scheme =>
    rw [step, if_neg (by decide)]
    exact hpath _ _ _ (Option.some.inj h)
  | specialAuthoritySlashes scheme => exact hauthority scheme [] h
  | authority scheme buffer => exact hauthority scheme buffer h
  | file =>
    rw [step, if_neg (by decide)]
    exact hpath _ _ _ (Option.some.inj h)
  | fileSlash =>
    rw [step, if_neg (by decide)]
    exact hpath _ _ _ (Option.some.inj h)
  | fileHost buffer =>
    rw [finish] at h
    change fileHostStep hosts buffer 0x3F = _
    rw [fileHostStep, if_pos (by simp [endsPath])]
    split
    · rename_i hdrive
      rw [if_pos hdrive] at h
      exact hpath _ _ _ (Option.some.inj h)
    · rename_i hdrive
      rw [if_neg hdrive] at h
      split
      · rename_i hempty
        rw [if_pos hempty] at h
        exact hstart _ (Option.some.inj h)
      · rename_i hempty
        rw [if_neg hempty] at h
        obtain ⟨host, hread, hend⟩ := Option.map_eq_some_iff.mp h
        rw [hread]
        exact hstart _ hend
  | path front' segments' buffer => exact hpath _ _ _ (Option.some.inj h)
  | opaquePath scheme text => cases h
  | query front' path text => cases h
  | fragment front' path query text => cases h

/-- A query behind a URL that has none: the rest of the URL stays, and the query is escaped. -/
theorem parse_with_query {s : JsString} {u : CodeUnit} (hu : 0x20 < u.toNat ∧ u.toNat < 0x7F) {front : Front α}
    {segments : List JsString} (h : parse hosts (s ++ [u]) = some ⟨front, .segments segments, none, none⟩)
    {text : JsString} (htext : ∀ c ∈ text, (0x20 < c.toNat ∧ c.toNat < 0x7F) ∧ c.toNat ≠ 0x23) :
    parse hosts (s ++ [u] ++ 0x3F :: text) =
      some ⟨front, .segments segments, some (escapedQuery (isSpecial front.scheme) text), none⟩ := by
  obtain ⟨before, hinput⟩ := input_append_visible hu s
  have hbase : finish hosts ((before ++ [u.toNat]).foldl (step hosts) .schemeStart) =
      some ⟨front, .segments segments, none, none⟩ := by
    have hread := hinput [] (fun c hc => absurd hc List.not_mem_nil)
    rw [parse, stateAfter, hread] at h
    exact h
  have hseen : ∀ c ∈ (0x3F :: text : JsString), 0x20 < c.toNat ∧ c.toNat < 0x7F :=
    List.forall_mem_cons.mpr ⟨by decide, fun c hc => (htext c hc).1⟩
  have hread : input (s ++ [u] ++ 0x3F :: text) = before ++ [u.toNat] ++ 0x3F :: text.map UInt16.toNat := by
    rw [List.append_assoc, List.singleton_append, hinput _ hseen, List.append_assoc]
    rfl
  have hcollect (collected : JsString) (c : CodeUnit) (hc : c ∈ text) :
      step hosts (.query front (.segments segments) collected) c.toNat = .query front (.segments segments)
        (collected ++ percentEncode (inQuerySet (isSpecial front.scheme)) c.toNat) := by
    rw [step, if_neg (htext c hc).2]
  have hfold (text' : JsString) (hsub : ∀ c ∈ text', c ∈ text) (collected : JsString) :
      (text'.map UInt16.toNat).foldl (step hosts) (.query front (.segments segments) collected) =
        .query front (.segments segments) (collected ++ escapedQuery (isSpecial front.scheme) text') := by
    induction text' generalizing collected with
    | nil => rw [escapedQuery, List.flatMap_nil, List.append_nil]; rfl
    | cons c text' ih =>
      have hcons : escapedQuery (isSpecial front.scheme) (c :: text') =
          percentEncode (inQuerySet (isSpecial front.scheme)) c.toNat ++ escapedQuery (isSpecial front.scheme) text' :=
        List.flatMap_cons
      rw [List.map_cons, List.foldl_cons, hcollect collected c (hsub c List.mem_cons_self),
        ih (fun d hd => hsub d (List.mem_cons_of_mem c hd)), hcons, List.append_assoc]
  rw [parse, stateAfter, hread, List.foldl_append, List.foldl_cons, step_question_of_finish hosts hbase,
    hfold text (fun _ hc => hc), List.nil_append, finish]

end Parser

end NestStorageExample.Url
