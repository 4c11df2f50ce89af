import NestStorageExample.Url.Parser

/-! How the parser reads a text of plain segments: into a path, or into a host first. -/
namespace NestStorageExample.Url
open Text
variable {α : Type} (hosts : Hosts α)

/-- A code point that a path takes as it stands. -/
def isPlain (cp : Nat) : Bool := !inPathSet cp && cp != 0x2F && cp != 0x5C

def PlainText (s : JsString) : Prop := ∀ c ∈ s, isPlain c.toNat = true

/-- A segment that a path takes for a name: no dots, and no drive letter. -/
structure PlainName (s : JsString) : Prop where
  plain : PlainText s
  not_double : isDoubleDot s = false
  not_drive : isDriveSegment s = false

/-- The path `segments`, after the texts that follow it have been read. -/
def resolve (front : Front α) (segments : List JsString) : List JsString → List JsString
  | [] => segments
  | [last] => closeSegment front segments last false
  | text :: texts => resolve front (closeSegment front segments text true) texts

/-- The single dots taken out; at the end one leaves an empty segment. -/
def withoutDots : List JsString → List JsString
  | [] => []
  | [last] => [if isSingleDot last then [] else last]
  | text :: texts => if isSingleDot text then withoutDots texts else text :: withoutDots texts

theorem isPlain_spec {cp : Nat} (h : isPlain cp = true) :
    inPathSet cp = false ∧ cp ≠ 0x2F ∧ cp ≠ 0x5C ∧ cp ≠ 0x3F ∧ cp ≠ 0x23 ∧ 0x20 < cp ∧ cp < 0x7F := by
  simp only [isPlain, Bool.and_eq_true, Bool.not_eq_true', bne_iff_ne] at h
  obtain ⟨⟨hset, hslash⟩, hbackslash⟩ := h
  have hset' := hset
  simp [inPathSet, inQuerySet, inC0ControlSet] at hset'
  exact ⟨hset, hslash, hbackslash, by omega, by omega, by omega, by omega⟩

theorem PlainName.not_slash {name : JsString} (h : PlainName name) : slash ∉ name := fun hmem =>
  absurd (h.plain slash hmem) (by decide)

theorem isSeparator_plain {cp : Nat} (h : isPlain cp = true) (special : Bool) : isSeparator special cp = false := by
  obtain ⟨-, hslash, hbackslash, -⟩ := isPlain_spec h
  simp [isSeparator, hslash, hbackslash]

theorem endsPath_plain {cp : Nat} (h : isPlain cp = true) : endsPath cp = false := by
  obtain ⟨-, -, -, hquestion, hhash, -⟩ := isPlain_spec h
  simp [endsPath, hquestion, hhash]

theorem percentEncode_plain {c : CodeUnit} (h : isPlain c.toNat = true) : percentEncode inPathSet c.toNat = [c] := by
  rw [percentEncode, if_neg (by simp [(isPlain_spec h).1]), UInt16.ofNat_toNat]

theorem step_path_slash (front : Front α) (segments : List JsString) (buffer : JsString) :
    step hosts (.path front segments buffer) slash.toNat = .path front (closeSegment front segments buffer true) [] := by
  change pathStep front segments buffer slash.toNat = _
  rw [pathStep, if_pos (by rfl)]

/-- A state that puts each of some units into its buffer puts them all there. -/
theorem foldl_collect (state : JsString → State α) {s : JsString}
    (hstep : ∀ buffer, ∀ c ∈ s, step hosts (state buffer) c.toNat = state (buffer ++ [c])) (buffer : JsString) :
    (s.map UInt16.toNat).foldl (step hosts) (state buffer) = state (buffer ++ s) := by
  induction s generalizing buffer with
  | nil => rw [List.append_nil]; rfl
  | cons c s ih =>
    rw [List.map_cons, List.foldl_cons, hstep buffer c List.mem_cons_self,
      ih (fun buffer d hd => hstep buffer d (List.mem_cons_of_mem c hd)), List.append_assoc, List.singleton_append]

theorem foldl_path (front : Front α) (segments : List JsString) (buffer : JsString) {s : JsString}
    (h : PlainText s) : (s.map UInt16.toNat).foldl (step hosts) (.path front segments buffer) =
      .path front segments (buffer ++ s) := by
  apply foldl_collect hosts (fun buffer => .path front segments buffer)
  intro buffer c hc
  change pathStep front segments buffer c.toNat = _
  rw [pathStep, if_neg (by simp [isSeparator_plain (h c hc)]), if_neg (by simp [endsPath_plain (h c hc)]),
    percentEncode_plain (h c hc)]

/-- The texts are read one by one, each closed by the slash behind it and the last by the end. -/
theorem finish_path (front : Front α) (segments : List JsString) {texts : List JsString} (hne : texts ≠ [])
    (h : ∀ text ∈ texts, PlainText text) :
    finish hosts (((joinSlash texts).map UInt16.toNat).foldl (step hosts) (.path front segments [])) =
      some ⟨front, .segments (resolve front segments texts), none, none⟩ := by
  induction texts generalizing segments with
  | nil => exact absurd rfl hne
  | cons text texts ih =>
    have htext := h text List.mem_cons_self
    cases texts with
    | nil =>
      rw [joinSlash_singleton, foldl_path hosts front segments [] htext]
      rfl
    | cons next texts =>
      rw [joinSlash_cons, List.map_append, List.foldl_append, foldl_path hosts front segments [] htext,
        List.map_cons, List.foldl_cons, step_path_slash,
        ih _ (List.cons_ne_nil _ _) (fun t ht => h t (List.mem_cons_of_mem text ht))]
      rfl

theorem closeSegment_plain (front : Front α) (segments : List JsString) {text : JsString} (h : PlainName text)
    (atSeparator : Bool) : closeSegment front segments text atSeparator =
      if isSingleDot text then (if atSeparator then segments else segments ++ [[]]) else segments ++ [text] := by
  rw [closeSegment, if_neg (by simp [h.not_double])]
  split
  · rfl
  · rw [if_neg (by simp [h.not_drive])]

theorem withoutDots_cons (text next : JsString) (texts : List JsString) :
    withoutDots (text :: next :: texts) =
      if isSingleDot text then withoutDots (next :: texts) else text :: withoutDots (next :: texts) := by
  rw [withoutDots]
  exact fun h => nomatch h

/-- Among names nothing is taken back, so the dots alone go. -/
theorem resolve_eq (front : Front α) (segments : List JsString) {texts : List JsString}
    (h : ∀ text ∈ texts, PlainName text) : resolve front segments texts = segments ++ withoutDots texts := by
  induction texts generalizing segments with
  | nil => rw [resolve, withoutDots, List.append_nil]
  | cons text texts ih =>
    have htext := h text List.mem_cons_self
    cases texts with
    | nil =>
      rw [resolve, closeSegment_plain front segments htext, withoutDots]
      split <;> rfl
    | cons next texts =>
      have hcons : resolve front segments (text :: next :: texts) =
          resolve front (closeSegment front segments text true) (next :: texts) := rfl
      rw [hcons, ih _ (fun t ht => h t (List.mem_cons_of_mem text ht)), closeSegment_plain front segments htext,
        withoutDots_cons]
      split
      · rfl
      · rw [List.append_assoc, List.singleton_append]

theorem withoutDots_ne_nil {texts : List JsString} (h : texts ≠ []) : withoutDots texts ≠ [] := by
  induction texts with
  | nil => exact absurd rfl h
  | cons text texts ih =>
    cases texts with
    | nil => exact List.cons_ne_nil _ _
    | cons next texts =>
      rw [withoutDots_cons]
      split
      · exact ih (List.cons_ne_nil _ _)
      · exact List.cons_ne_nil _ _

theorem withoutDots_length_le (texts : List JsString) : (withoutDots texts).length ≤ texts.length := by
  induction texts with
  | nil => exact le_refl _
  | cons text texts ih =>
    cases texts with
    | nil => exact le_refl _
    | cons next texts =>
      rw [withoutDots_cons, List.length_cons]
      split
      · exact Nat.le_succ_of_le ih
      · rw [List.length_cons]
        exact Nat.succ_le_succ ih

/-- A reading that tells a single dot from nothing sees whether there was one. -/
theorem map_withoutDots_eq_iff {β : Type} {read : JsString → β} (hread : ∀ s, isSingleDot s = true → read s ≠ read [])
    (texts : List JsString) :
    (withoutDots texts).map read = texts.map read ↔ ∀ text ∈ texts, isSingleDot text = false := by
  induction texts with
  | nil => simp [withoutDots]
  | cons text texts ih =>
    cases texts with
    | nil =>
      by_cases hdot : isSingleDot text = true
      · simpa [withoutDots, hdot] using (hread text hdot).symm
      · simp [withoutDots, hdot]
    | cons next texts =>
      rw [withoutDots_cons, List.forall_mem_cons, ← ih, List.map_cons]
      by_cases hdot : isSingleDot text = true
      · rw [if_pos hdot]
        refine iff_of_false ?_ (fun h => by simp [hdot] at h)
        intro heq
        have hlength := congrArg List.length heq
        have hle := withoutDots_length_le (next :: texts)
        rw [List.length_map, List.length_cons, List.length_map] at hlength
        omega
      · rw [if_neg hdot, List.map_cons, List.cons.injEq]
        simp [hdot]

theorem mem_withoutDots {texts : List JsString} {s : JsString} (h : s ∈ withoutDots texts) : s ∈ texts ∨ s = [] := by
  induction texts with
  | nil => cases h
  | cons text texts ih =>
    cases texts with
    | nil =>
      rw [withoutDots, List.mem_singleton] at h
      split at h
      · exact Or.inr h
      · exact Or.inl (h ▸ List.mem_cons_self)
    | cons next texts =>
      rw [withoutDots_cons] at h
      split at h
      · exact (ih h).imp (List.mem_cons_of_mem text) id
      · rcases List.mem_cons.mp h with rfl | h
        · exact Or.inl List.mem_cons_self
        · exact (ih h).imp (List.mem_cons_of_mem text) id

theorem pathname_append (segments : List JsString) {texts : List JsString} (hne : texts ≠ []) :
    (UrlPath.segments (segments ++ texts)).pathname =
      (UrlPath.segments (segments ++ [[]])).pathname ++ joinSlash texts := by
  have hjoin : texts.flatMap (slash :: ·) = slash :: joinSlash texts := by
    induction texts with
    | nil => exact absurd rfl hne
    | cons text texts ih =>
      cases texts with
      | nil => rw [joinSlash_singleton, List.flatMap_singleton]
      | cons next texts =>
        rw [List.flatMap_cons, ih (List.cons_ne_nil _ _), joinSlash_cons]
        rfl
  rw [UrlPath.pathname, UrlPath.pathname, List.flatMap_append, List.flatMap_append, hjoin, List.append_assoc]
  rfl

/-! What `encodeURIComponent` writes is such a name, unless it stands for two dots. -/

theorem isUnreserved_plain {cp : Nat} (h : isUnreserved cp = true) :
    isPlain cp = true ∧ cp ≠ 0x3A ∧ cp ≠ 0x7C := by
  simp only [isUnreserved, Bool.or_eq_true, Bool.and_eq_true, decide_eq_true_eq, List.contains_eq_mem,
    List.mem_cons, List.not_mem_nil, or_false] at h
  refine ⟨?_, by omega, by omega⟩
  simp only [isPlain, inPathSet, inQuerySet, inC0ControlSet, Bool.false_and, Bool.or_false, Bool.and_eq_true,
    Bool.not_eq_true', Bool.or_eq_false_iff, decide_eq_false_iff_not, List.contains_eq_mem, List.mem_cons,
    List.not_mem_nil, or_false, bne_iff_ne]
  omega

theorem dotSpellings_decoded : ∀ s ∈ dotSpellings, percentDecode s = js "." := by decide

theorem isSingleDot_iff {s e : JsString} (h : encodeURIComponent s = some e) : isSingleDot e = true ↔ s = js "." := by
  rw [isSingleDot, List.contains_eq_mem, decide_eq_true_eq]
  constructor
  · intro he
    rw [← percentDecode_encodeURIComponent h, dotSpellings_decoded e he]
  · rintro rfl
    have hdot : encodeURIComponent (js ".") = some (js ".") := by decide
    rw [hdot] at h
    cases h
    exact List.mem_cons_self

theorem not_isDoubleDot {s e : JsString} (h : encodeURIComponent s = some e) (hs : s ≠ js "..") :
    isDoubleDot e = false := by
  have hdecoded : ∀ spelling ∈ dotSpellings.flatMap (fun first => dotSpellings.map (first ++ ·)),
      percentDecode spelling = js ".." := by decide
  rw [isDoubleDot, List.contains_eq_mem, decide_eq_false_iff_not]
  intro he
  exact hs ((percentDecode_encodeURIComponent h).symm.trans (hdecoded e he))

theorem isDriveLetter_eq_true {text : List Nat} (h : isDriveLetter text = true) :
    ∃ letter mark, text = [letter, mark] ∧ (mark = 0x3A ∨ mark = 0x7C) := by
  unfold isDriveLetter at h
  split at h
  · rename_i letter mark
    simp only [Bool.and_eq_true, Bool.or_eq_true, beq_iff_eq] at h
    exact ⟨letter, mark, rfl, h.2⟩
  · cases h

theorem plainName_of_encodeURIComponent {s e : JsString} (h : encodeURIComponent s = some e) (hs : s ≠ js "..") :
    PlainName e where
  plain := by
    intro u hu
    rcases encodeURIComponent_unreserved h u hu with hu | rfl
    · exact (isUnreserved_plain hu).1
    · decide
  not_double := not_isDoubleDot h hs
  not_drive := by
    rw [Bool.eq_false_iff]
    intro hdrive
    obtain ⟨letter, mark, hmap, hmark⟩ := isDriveLetter_eq_true hdrive
    obtain ⟨u, hu, hunit⟩ := List.mem_map.mp (by rw [hmap]; simp : mark ∈ e.map UInt16.toNat)
    have hne : u.toNat ≠ 0x3A ∧ u.toNat ≠ 0x7C := by
      rcases encodeURIComponent_unreserved h u hu with hu | rfl
      · exact (isUnreserved_plain hu).2
      · decide
    omega

end NestStorageExample.Url
