import NestStorageExample.Text.Whitespace

/-! What regular expressions find in a text: one match after another, the text before the first
match, and words between boundaries. -/
namespace NestStorageExample.Text

/-! A matcher tells of a text that starts with a match what it captures and how long the match
is. -/

/-- What a global search captures. The number counts how many code units of the last match are
still to be passed. -/
def matchAllFrom (m : JsString → Option (JsString × Nat)) : Nat → JsString → List JsString
  | _, [] => []
  | skip + 1, _ :: s => matchAllFrom m skip s
  | 0, u :: s =>
    match m (u :: s) with
    | some (captured, length) => captured :: matchAllFrom m (length - 1) s
    | none => matchAllFrom m 0 s

def matchAll (m : JsString → Option (JsString × Nat)) (s : JsString) : List JsString := matchAllFrom m 0 s

/-- The first piece of `split`: what stands before the first match. -/
def untilMatch (p : JsString → Bool) : JsString → JsString
  | [] => []
  | u :: s => if p (u :: s) then [] else u :: untilMatch p s

section Search
variable {m : JsString → Option (JsString × Nat)} {p : JsString → Bool}

theorem matchAllFrom_eq (skip : Nat) (s : JsString) : matchAllFrom m skip s = matchAll m (s.drop skip) := by
  induction s generalizing skip with
  | nil => rw [List.drop_nil, matchAll, matchAllFrom, matchAllFrom]
  | cons u s ih =>
    cases skip with
    | zero => rfl
    | succ skip => rw [matchAllFrom, ih, List.drop_succ_cons]

theorem matchAll_of_match {s captured : JsString} {length : Nat} (h : m s = some (captured, length)) (hs : s ≠ [])
    (hpos : 0 < length) : matchAll m s = captured :: matchAll m (s.drop length) := by
  cases s with
  | nil => exact absurd rfl hs
  | cons u s =>
    obtain ⟨length, rfl⟩ := Nat.exists_eq_succ_of_ne_zero hpos.ne'
    rw [matchAll, matchAllFrom, h]
    exact congrArg (captured :: ·) (matchAllFrom_eq length s)

/-- A stretch in which no match starts is passed over. -/
theorem matchAll_append {front rest : JsString} (h : ∀ back, back <:+ front → back ≠ [] → m (back ++ rest) = none) :
    matchAll m (front ++ rest) = matchAll m rest := by
  induction front with
  | nil => rfl
  | cons u front ih =>
    have hhead := h (u :: front) List.suffix_rfl (List.cons_ne_nil u front)
    rw [List.cons_append] at hhead ⊢
    rw [matchAll, matchAllFrom, hhead]
    exact ih fun back hback => h back (hback.trans (List.suffix_cons u front))

theorem untilMatch_append {front rest : JsString}
    (h : ∀ back, back <:+ front → back ≠ [] → p (back ++ rest) = false) :
    untilMatch p (front ++ rest) = front ++ untilMatch p rest := by
  induction front with
  | nil => rfl
  | cons u front ih =>
    have hhead := h (u :: front) List.suffix_rfl (List.cons_ne_nil u front)
    rw [List.cons_append] at hhead ⊢
    rw [untilMatch, hhead, if_neg Bool.false_ne_true,
      ih fun back hback => h back (hback.trans (List.suffix_cons u front)),
      List.cons_append]

theorem untilMatch_of_match {s : JsString} (h : p s = true) : untilMatch p s = [] := by
  cases s with
  | nil => rfl
  | cons u s => rw [untilMatch, if_pos h]

end Search

/-! Words: `\w` takes letters, digits and the underscore, all of them ASCII. -/

def isWordUnit (u : CodeUnit) : Bool :=
  (0x30 ≤ u.toNat && u.toNat ≤ 0x39) || (0x41 ≤ u.toNat && u.toNat ≤ 0x5A) || (0x61 ≤ u.toNat && u.toNat ≤ 0x7A) ||
    u.toNat == 0x5F

/-- `\b` between two code units, or at an end of the text. -/
def isBoundary (last next : Option CodeUnit) : Bool := last.any isWordUnit != next.any isWordUnit

/-- `\bword\b` at the start of `s`, behind `last`. -/
def wordStarts (word : JsString) (last : Option CodeUnit) (s : JsString) : Bool :=
  word.isPrefixOf s && isBoundary last s.head? && isBoundary (word.getLast?.or last) (s.drop word.length).head?

/-- The test of `\bword\b`, behind `last`. -/
def wordFound (word : JsString) : Option CodeUnit → JsString → Bool
  | last, [] => wordStarts word last []
  | last, u :: s => wordStarts word last (u :: s) || wordFound word (some u) s

/-- A place of a word in a text, with boundaries on both sides. -/
def StandsBetween (word front back : JsString) : Prop :=
  isBoundary front.getLast? (word ++ back).head? = true ∧ isBoundary (front ++ word).getLast? back.head? = true

theorem wordStarts_iff (word : JsString) (last : Option CodeUnit) (s : JsString) : wordStarts word last s = true ↔
    ∃ back, s = word ++ back ∧ isBoundary last (word ++ back).head? = true ∧
      isBoundary (word.getLast?.or last) back.head? = true := by
  simp only [wordStarts, Bool.and_eq_true, List.isPrefixOf_iff_prefix]
  constructor
  · rintro ⟨⟨⟨back, rfl⟩, hlast⟩, hnext⟩
    rw [List.drop_left] at hnext
    exact ⟨back, rfl, hlast, hnext⟩
  · rintro ⟨back, rfl, hlast, hnext⟩
    refine ⟨⟨List.prefix_append word back, hlast⟩, ?_⟩
    rwa [List.drop_left]

theorem wordFound_iff_behind (word : JsString) (last : Option CodeUnit) (s : JsString) :
    wordFound word last s = true ↔ ∃ front back, s = front ++ (word ++ back) ∧
      isBoundary (front.getLast?.or last) (word ++ back).head? = true ∧
      isBoundary ((front ++ word).getLast?.or last) back.head? = true := by
  induction s generalizing last with
  | nil =>
    rw [wordFound, wordStarts_iff]
    constructor
    · rintro ⟨back, hs, hplace⟩
      exact ⟨[], back, hs, hplace⟩
    · rintro ⟨front, back, hs, hplace⟩
      obtain ⟨rfl, hrest⟩ := List.append_eq_nil_iff.mp hs.symm
      exact ⟨back, hrest.symm, hplace⟩
  | cons u s ih =>
    have hbehind (front : JsString) : (u :: front).getLast?.or last = front.getLast?.or (some u) := by
      rw [List.getLast?_cons]
      cases front.getLast? <;> rfl
    rw [wordFound, Bool.or_eq_true, wordStarts_iff, ih]
    constructor
    · rintro (⟨back, hs, hplace⟩ | ⟨front, back, rfl, hfirst, hlast⟩)
      · exact ⟨[], back, hs, hplace⟩
      · refine ⟨u :: front, back, rfl, ?_, ?_⟩
        · rwa [hbehind]
        · rwa [List.cons_append, hbehind]
    · rintro ⟨front, back, hs, hfirst, hlast⟩
      cases front with
      | nil => exact Or.inl ⟨back, hs, hfirst, hlast⟩
      | cons v front =>
        rw [List.cons_append, List.cons.injEq] at hs
        obtain ⟨rfl, rfl⟩ := hs
        rw [hbehind] at hfirst
        rw [List.cons_append, hbehind] at hlast
        exact Or.inr ⟨front, back, rfl, hfirst, hlast⟩

theorem wordFound_iff (word s : JsString) :
    wordFound word none s = true ↔ ∃ front back, s = front ++ (word ++ back) ∧ StandsBetween word front back := by
  rw [wordFound_iff_behind]
  simp only [Option.or_none, StandsBetween]

/-! A word without the separator is found in joined texts where it is found in one of them. -/

section Joined
variable {word : JsString} {separator : CodeUnit}

theorem prefix_of_prefix_separated (hword : separator ∉ word) {s rest : JsString}
    (h : word <+: s ++ separator :: rest) : word <+: s := by
  rcases List.prefix_or_prefix_of_prefix h (List.prefix_append s _) with hstart | ⟨more, rfl⟩
  · exact hstart
  · rw [List.prefix_append_right_inj] at h
    cases more with
    | nil =>
      rw [List.append_nil]
    | cons u more =>
      obtain ⟨behind, hbehind⟩ := h
      rw [List.cons_append, List.cons.injEq] at hbehind
      exact absurd (List.mem_append_right s (hbehind.1 ▸ List.mem_cons_self)) hword

theorem wordStarts_separated (hword : separator ∉ word) (hseparator : isWordUnit separator = false)
    (last : Option CodeUnit) (s rest : JsString) :
    wordStarts word last (s ++ separator :: rest) = wordStarts word last s := by
  have hhead (back : JsString) (last : Option CodeUnit) :
      isBoundary last (back ++ separator :: rest).head? = isBoundary last back.head? := by
    cases back with
    | nil => simp [isBoundary, hseparator]
    | cons u back => rfl
  rw [Bool.eq_iff_iff]
  constructor
  · intro hstarts
    obtain ⟨back, hback, hfirst, hlast⟩ := (wordStarts_iff _ _ _).mp hstarts
    obtain ⟨behind, rfl⟩ := prefix_of_prefix_separated hword ⟨back, hback.symm⟩
    rw [List.append_assoc, List.append_cancel_left_eq] at hback
    subst hback
    rw [← List.append_assoc, hhead] at hfirst
    rw [hhead] at hlast
    exact (wordStarts_iff _ _ _).mpr ⟨behind, rfl, hfirst, hlast⟩
  · intro hstarts
    obtain ⟨back, rfl, hfirst, hlast⟩ := (wordStarts_iff _ _ _).mp hstarts
    refine (wordStarts_iff _ _ _).mpr ⟨back ++ separator :: rest, List.append_assoc _ _ _, ?_, ?_⟩
    · rwa [← List.append_assoc, hhead]
    · rwa [hhead]

theorem wordFound_behind_separator (hseparator : isWordUnit separator = false) (s : JsString) :
    wordFound word (some separator) s = wordFound word none s := by
  have hlast (next : Option CodeUnit) : isBoundary (some separator) next = isBoundary none next := by
    simp [isBoundary, hseparator]
  have hstarts (s : JsString) : wordStarts word (some separator) s = wordStarts word none s := by
    rw [wordStarts, wordStarts, hlast]
    cases word.getLast? with
    | none => exact congrArg _ (hlast _)
    | some u => rfl
  cases s with
  | nil => exact hstarts []
  | cons u s => rw [wordFound, wordFound, hstarts]

theorem wordStarts_nil (hne : word ≠ []) (last : Option CodeUnit) : wordStarts word last [] = false := by
  cases word with
  | nil => exact absurd rfl hne
  | cons u word => rfl

theorem wordFound_separated (hword : separator ∉ word) (hseparator : isWordUnit separator = false)
    (last : Option CodeUnit) (s rest : JsString) :
    wordFound word last (s ++ separator :: rest) = (wordFound word last s || wordFound word none rest) := by
  induction s generalizing last with
  | nil =>
    change (wordStarts word last ([] ++ separator :: rest) || wordFound word (some separator) rest) =
      (wordStarts word last [] || wordFound word none rest)
    rw [wordStarts_separated hword hseparator, wordFound_behind_separator hseparator]
  | cons u s ih =>
    have hstarts := wordStarts_separated hword hseparator last (u :: s) rest
    rw [List.cons_append] at hstarts ⊢
    rw [wordFound, hstarts, ih, wordFound, Bool.or_assoc]

theorem wordFound_intercalate (hword : separator ∉ word) (hne : word ≠ []) (hseparator : isWordUnit separator = false)
    (texts : List JsString) :
    wordFound word none ([separator].intercalate texts) = true ↔ ∃ text ∈ texts, wordFound word none text = true := by
  induction texts with
  | nil =>
    rw [List.intercalate_nil, wordFound, wordStarts_nil hne]
    simp
  | cons text texts ih =>
    cases texts with
    | nil => simp
    | cons next texts =>
      rw [List.intercalate_cons_cons, List.append_assoc, List.singleton_append,
        wordFound_separated hword hseparator, Bool.or_eq_true, ih]
      simp only [List.mem_cons, exists_eq_or_imp]

end Joined

end NestStorageExample.Text
