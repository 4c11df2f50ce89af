import NestStorageExample.Text.CodeUnits
import Mathlib.Data.List.DropRight

/-! Strings read as `/`-separated segments, and the three slash normalisations
that key composers use: collapsing runs, trimming both ends, stripping one at the end. -/
namespace NestStorageExample.Text

def slash : CodeUnit := 0x2F

/-- `s.split('/')`. -/
def splitSlash (s : JsString) : List JsString := s.splitOn slash

/-- `segments.join('/')`. -/
def joinSlash (segments : List JsString) : JsString := [slash].intercalate segments

/-- `s.replace(/\/{2,}/g, '/')`. -/
def collapseSlashes : JsString → JsString
  | [] => []
  | [c] => [c]
  | c :: d :: rest =>
    if c = slash ∧ d = slash then collapseSlashes (d :: rest)
    else c :: collapseSlashes (d :: rest)

/-- `s.replace(/^\/+|\/+$/g, '')`. -/
def trimSlashes (s : JsString) : JsString :=
  (s.dropWhile (· == slash)).rdropWhile (· == slash)

/-- `s.replace(/\/$/, '')`. -/
def stripTrailingSlash (s : JsString) : JsString :=
  if s.getLast? = some slash then s.dropLast else s

/-- How many slashes follow a slash: what collapsing leaves out. -/
def repeatedSlashes : JsString → Nat
  | [] => 0
  | [_] => 0
  | c :: d :: rest => (if c = slash ∧ d = slash then 1 else 0) + repeatedSlashes (d :: rest)

/-- The segments between runs of slashes. The last one may be empty, as in `split`. -/
def runSegments (s : JsString) : List JsString :=
  (splitSlash s).dropLast.filter (fun seg => seg ≠ []) ++ (splitSlash s).getLast?.toList

/-- `s.replace(pattern, '')` for a global pattern that never matches nothing:
`matchLength` is what it takes at a position, and whether that is the start. The
first argument counts the units of the last match still to pass over. -/
def removeMatches (matchLength : Bool → JsString → Nat) : Nat → Bool → JsString → JsString
  | _, _, [] => []
  | skip + 1, _, _ :: rest => removeMatches matchLength skip false rest
  | 0, atStart, c :: rest =>
    match matchLength atStart (c :: rest) with
    | 0 => c :: removeMatches matchLength 0 false rest
    | taken + 1 => removeMatches matchLength taken false rest

/-- What `/^\/+|\/+$/` takes: the first alternative only at the start, the second only
where nothing but slashes is left. -/
def slashEnds (atStart : Bool) (s : JsString) : Nat :=
  if atStart = true ∧ s.head? = some slash then (s.takeWhile (· == slash)).length
  else if s.all (· == slash) then s.length else 0

/-- `s` without its slashes at both ends. -/
def IsTrimOf (trimmed s : JsString) : Prop :=
  (∃ i j, s = List.replicate i slash ++ trimmed ++ List.replicate j slash) ∧
    trimmed.head? ≠ some slash ∧ trimmed.getLast? ≠ some slash

theorem slash_lt : slash.toNat < 0x80 := by decide

theorem collapseSlashes_cons_of_ne {c : CodeUnit} (hc : c ≠ slash) (s : JsString) :
    collapseSlashes (c :: s) = c :: collapseSlashes s := by
  cases s with
  | nil => rfl
  | cons d rest => rw [collapseSlashes, if_neg (fun h => hc h.1)]

theorem collapseSlashes_append {s : JsString} (hs : slash ∉ s) (t : JsString) :
    collapseSlashes (s ++ t) = s ++ collapseSlashes t := by
  induction s with
  | nil => rfl
  | cons c s ih =>
    simp only [List.mem_cons, not_or] at hs
    rw [List.cons_append, collapseSlashes_cons_of_ne (Ne.symm hs.1), ih hs.2, List.cons_append]

/-- A slash between two segments stays. -/
theorem collapseSlashes_segment {s rest : JsString} (hs : slash ∉ s) (hr : rest.head? ≠ some slash) :
    collapseSlashes (s ++ slash :: rest) = s ++ slash :: collapseSlashes rest := by
  rw [collapseSlashes_append hs]
  congr 1
  cases rest with
  | nil => rfl
  | cons d rest =>
    rw [collapseSlashes, if_neg]
    rintro ⟨-, rfl⟩
    exact hr rfl

/-- A string is one segment, or a segment, a slash and a rest. -/
theorem segmentInduction {motive : JsString → Prop} (segment : ∀ s, slash ∉ s → motive s)
    (cut : ∀ s rest, slash ∉ s → motive rest → motive (s ++ slash :: rest)) (s : JsString) : motive s := by
  induction hn : s.length using Nat.strong_induction_on generalizing s with
  | _ n ih =>
    by_cases h : slash ∈ s
    · obtain ⟨first, rest, rfl, hfirst⟩ := List.eq_append_cons_of_mem h
      apply cut first rest hfirst
      apply ih rest.length _ rest rfl
      rw [← hn, List.length_append, List.length_cons]
      omega
    · exact segment s h

theorem repeatedSlashes_append {s : JsString} (hs : slash ∉ s) (t : JsString) :
    repeatedSlashes (s ++ t) = repeatedSlashes t := by
  induction s with
  | nil => rfl
  | cons c s ih =>
    simp only [List.mem_cons, not_or] at hs
    rw [List.cons_append, ← ih hs.2]
    cases h : s ++ t with
    | nil => rfl
    | cons d rest => rw [repeatedSlashes, if_neg (fun h => hs.1 h.1.symm), Nat.zero_add]

/-- What collapsing keeps of a slash and what follows it. -/
theorem collapseSlashes_slash (t : JsString) :
    (collapseSlashes (slash :: t) = collapseSlashes t ∧ repeatedSlashes (slash :: t) = 1 + repeatedSlashes t) ∨
    (collapseSlashes (slash :: t) = slash :: collapseSlashes t ∧ repeatedSlashes (slash :: t) = repeatedSlashes t) := by
  cases t with
  | nil => exact Or.inr ⟨rfl, rfl⟩
  | cons d rest =>
    by_cases hd : d = slash
    · exact Or.inl ⟨by rw [collapseSlashes, if_pos ⟨rfl, hd⟩], by rw [repeatedSlashes, if_pos ⟨rfl, hd⟩]⟩
    · refine Or.inr ⟨by rw [collapseSlashes, if_neg (fun h => hd h.2)], ?_⟩
      rw [repeatedSlashes, if_neg (fun h => hd h.2), Nat.zero_add]

theorem collapseSlashes_slash_head (t : JsString) : ∃ u, collapseSlashes (slash :: t) = slash :: u := by
  induction t with
  | nil => exact ⟨[], rfl⟩
  | cons d rest ih =>
    by_cases hd : d = slash
    · rw [collapseSlashes, if_pos ⟨rfl, hd⟩, hd]
      exact ih
    · exact ⟨_, by rw [collapseSlashes, if_neg (fun h => hd h.2)]⟩

theorem collapseSlashes_subset (s : JsString) : ∀ c ∈ collapseSlashes s, c ∈ s := by
  induction s using collapseSlashes.induct with
  | case1 => exact fun c hc => hc
  | case2 c => exact fun c hc => hc
  | case3 c d rest h ih =>
    rw [collapseSlashes, if_pos h]
    exact fun e he => List.mem_cons_of_mem _ (ih e he)
  | case4 c d rest h ih =>
    rw [collapseSlashes, if_neg h]
    exact fun e he => (List.mem_cons.mp he).elim (fun h => h ▸ List.mem_cons_self)
      (fun h => List.mem_cons_of_mem _ (ih e h))

theorem collapseSlashes_ne_nil {s : JsString} (h : s ≠ []) : collapseSlashes s ≠ [] := by
  induction s using collapseSlashes.induct with
  | case1 => exact absurd rfl h
  | case2 c => exact List.cons_ne_nil _ _
  | case3 c d rest hcd ih =>
    rw [collapseSlashes, if_pos hcd]
    exact ih (List.cons_ne_nil _ _)
  | case4 c d rest hcd ih =>
    rw [collapseSlashes, if_neg hcd]
    exact List.cons_ne_nil _ _

theorem collapseSlashes_length_le (s : JsString) : (collapseSlashes s).length ≤ s.length := by
  induction s using collapseSlashes.induct with
  | case1 => exact Nat.le_refl _
  | case2 c => exact Nat.le_refl _
  | case3 c d rest h ih =>
    rw [collapseSlashes, if_pos h]
    exact ih.trans (Nat.le_succ _)
  | case4 c d rest h ih =>
    rw [collapseSlashes, if_neg h]
    exact Nat.succ_le_succ ih

/-- Collapsing changes a string exactly when it shortens it, and that is when two
slashes meet. -/
theorem collapseSlashes_length_eq_iff (s : JsString) :
    (collapseSlashes s).length = s.length ↔ ¬ [slash, slash] <:+: s := by
  induction s using collapseSlashes.induct with
  | case1 => simp [collapseSlashes]
  | case2 c => simp [collapseSlashes, List.infix_cons_iff, List.cons_prefix_cons]
  | case3 c d rest h ih =>
    rw [collapseSlashes, if_pos h]
    have hle := collapseSlashes_length_le (d :: rest)
    constructor
    · intro he
      simp only [List.length_cons] at he hle
      omega
    · intro hn
      exact absurd ⟨[], rest, by simp [h.1, h.2]⟩ hn
  | case4 c d rest h ih =>
    rw [collapseSlashes, if_neg h, List.length_cons, List.length_cons, Nat.add_right_cancel_iff, ih,
      not_iff_not]
    constructor
    · exact fun hi => hi.trans (List.suffix_cons c _).isInfix
    · intro hi
      rcases List.infix_cons_iff.mp hi with hp | hi
      · simp only [List.cons_prefix_cons] at hp
        exact absurd ⟨hp.1.symm, hp.2.1.symm⟩ h
      · exact hi

theorem collapseSlashes_eq_self {s : JsString} (h : ¬ [slash, slash] <:+: s) : collapseSlashes s = s := by
  induction s using collapseSlashes.induct with
  | case1 => rfl
  | case2 c => rfl
  | case3 c d rest hcd ih => exact absurd ⟨[], rest, by simp [hcd.1, hcd.2]⟩ h
  | case4 c d rest hcd ih =>
    rw [collapseSlashes, if_neg hcd, ih (fun hi => h (hi.trans (List.suffix_cons c _).isInfix))]

theorem trimSlashes_length_le (s : JsString) : (trimSlashes s).length ≤ s.length :=
  (List.rdropWhile_prefix _ _).length_le.trans (List.dropWhile_suffix _).length_le

/-- Trimming leaves a string alone exactly when neither end is a slash. -/
theorem trimSlashes_length_eq_iff (s : JsString) :
    (trimSlashes s).length = s.length ↔ s.head? ≠ some slash ∧ s.getLast? ≠ some slash := by
  have h1 := (List.rdropWhile_prefix (· == slash) (s.dropWhile (· == slash))).length_le
  have h2 := (List.dropWhile_suffix (l := s) (· == slash)).length_le
  constructor
  · intro h
    unfold trimSlashes at h
    have hd : s.dropWhile (· == slash) = s := (List.dropWhile_suffix _).eq_of_length (by omega)
    rw [hd] at h
    have hr : s.rdropWhile (· == slash) = s := (List.rdropWhile_prefix _ _).eq_of_length h
    rw [List.dropWhile_eq_self_iff] at hd
    rw [List.rdropWhile_eq_self_iff] at hr
    constructor
    · intro hh
      obtain ⟨t, rfl⟩ := List.head?_eq_some_iff.mp hh
      exact absurd (hd (by simp)) (by simp)
    · intro hl
      obtain ⟨t, rfl⟩ := List.getLast?_eq_some_iff.mp hl
      exact absurd (hr (by simp)) (by simp)
  · rintro ⟨hh, hl⟩
    have hd : s.dropWhile (· == slash) = s := by
      rw [List.dropWhile_eq_self_iff]
      intro hlen heq
      cases s with
      | nil => cases hlen
      | cons c s => exact hh (by simpa using heq)
    rw [trimSlashes, hd]
    congr 1
    rw [List.rdropWhile_eq_self_iff]
    intro hne heq
    exact hl (by rw [List.getLast?_eq_some_getLast hne]; simpa using heq)

theorem trimSlashes_eq_self {s : JsString} (hh : s.head? ≠ some slash) (hl : s.getLast? ≠ some slash) :
    trimSlashes s = s :=
  ((List.rdropWhile_prefix _ _).isInfix.trans (List.dropWhile_suffix _).isInfix).eq_of_length
    ((trimSlashes_length_eq_iff s).mpr ⟨hh, hl⟩)

/-- Where no end of `front` can begin an occurrence of the needle, searching `front ++ rest`
is searching `rest`. -/
theorem infix_append_iff_of_apart {α : Type} {needle front : List α}
    (h : ∀ tail ∈ front.tails, tail ≠ [] → ¬ needle <+: tail ∧ ¬ tail <+: needle) (rest : List α) :
    needle <:+: front ++ rest ↔ needle <:+: rest := by
  induction front with
  | nil => rw [List.nil_append]
  | cons c front ih =>
    have hhere : ¬ needle <+: (c :: front) ++ rest := by
      intro hp
      obtain ⟨h1, h2⟩ := h (c :: front) (by simp) (by simp)
      rcases List.prefix_or_prefix_of_prefix hp (List.prefix_append (c :: front) rest) with hn | hf
      · exact h1 hn
      · exact h2 hf
    rw [List.cons_append] at hhere ⊢
    rw [List.infix_cons_iff, or_iff_right hhere]
    apply ih
    intro tail htail
    exact h tail (by rw [List.tails_cons]; exact List.mem_cons_of_mem _ htail)

theorem splitSlash_ne_nil (s : JsString) : splitSlash s ≠ [] := List.splitOn_ne_nil slash s

theorem splitSlash_of_not_mem {s : JsString} (h : slash ∉ s) : splitSlash s = [s] :=
  List.splitOn_eq_singleton h

theorem splitSlash_append_slash {s : JsString} (h : slash ∉ s) (t : JsString) :
    splitSlash (s ++ slash :: t) = s :: splitSlash t :=
  List.splitOn_append_cons_self_of_not_mem h t

/-- A segment has no more of a unit than the whole. -/
theorem count_le_of_mem_splitSlash (c : CodeUnit) {s segment : JsString} (h : segment ∈ splitSlash s) :
    segment.count c ≤ s.count c := by
  induction s using segmentInduction with
  | segment s hs =>
    rw [splitSlash_of_not_mem hs] at h
    rw [List.mem_singleton.mp h]
  | cut s rest hs ih =>
    rw [splitSlash_append_slash hs] at h
    rw [List.count_append, List.count_cons]
    rcases List.mem_cons.mp h with rfl | h
    · omega
    · have hrest := ih h
      omega

theorem splitSlash_append (s t : JsString) : splitSlash (s ++ slash :: t) = splitSlash s ++ splitSlash t :=
  List.splitOn_append_cons_self s t

theorem joinSlash_singleton (text : JsString) : joinSlash [text] = text := by
  simp [joinSlash]

theorem joinSlash_cons (text next : JsString) (texts : List JsString) :
    joinSlash (text :: next :: texts) = text ++ slash :: joinSlash (next :: texts) := by
  simp [joinSlash]

/-- Two keys agree on their first segment as soon as one starts with the other's. -/
theorem segment_prefix_iff {s t : JsString} (hs : slash ∉ s) (ht : slash ∉ t) (rest : JsString) :
    s ++ [slash] <+: t ++ slash :: rest ↔ s = t := by
  constructor
  · rintro ⟨tail, h⟩
    have hsplit := congrArg splitSlash h
    rw [List.append_assoc, List.singleton_append, splitSlash_append_slash hs, splitSlash_append_slash ht] at hsplit
    exact (List.cons.inj hsplit).1
  · rintro rfl
    exact ⟨rest, by simp⟩

theorem joinSlash_splitSlash (s : JsString) : joinSlash (splitSlash s) = s :=
  List.intercalate_splitOn slash

theorem splitSlash_joinSlash {segments : List JsString} (h : ∀ seg ∈ segments, slash ∉ seg)
    (hne : segments ≠ []) : splitSlash (joinSlash segments) = segments :=
  List.splitOn_intercalate slash h hne

/-- Splitting cuts at every slash. -/
theorem not_mem_of_mem_splitSlash {s seg : JsString} (h : seg ∈ splitSlash s) : slash ∉ seg := by
  induction s generalizing seg with
  | nil =>
    rw [splitSlash, List.splitOn_nil, List.mem_singleton] at h
    simp [h]
  | cons c s ih =>
    rw [splitSlash, List.splitOn_cons_eq_if_modifyHead] at h
    split at h
    · rcases List.mem_cons.mp h with rfl | h
      · simp
      · exact ih h
    · rename_i hc
      cases hs : s.splitOn slash with
      | nil => exact absurd hs (List.splitOn_ne_nil slash s)
      | cons first rest =>
        rw [hs, List.modifyHead_cons] at h
        have hmem : ∀ seg ∈ first :: rest, slash ∉ seg := fun seg hseg => ih (by rw [splitSlash, hs]; exact hseg)
        rcases List.mem_cons.mp h with rfl | h
        · have hne : slash ≠ c := fun he => hc (by simp [he])
          simp [hne, hmem first (by simp)]
        · exact hmem seg (by simp [h])

theorem collapseSlashes_head? (s : JsString) : (collapseSlashes s).head? = s.head? := by
  induction s using collapseSlashes.induct with
  | case1 => rfl
  | case2 c => rfl
  | case3 c d rest h ih =>
    rw [collapseSlashes, if_pos h, ih, List.head?_cons, List.head?_cons, h.1, h.2]
  | case4 c d rest h ih => rw [collapseSlashes, if_neg h, List.head?_cons, List.head?_cons]

/-- No two slashes meet in what collapsing leaves. -/
theorem collapseSlashes_no_run (s : JsString) : ¬ [slash, slash] <:+: collapseSlashes s := by
  induction s using collapseSlashes.induct with
  | case1 => simp [collapseSlashes]
  | case2 c => simp [collapseSlashes, List.infix_cons_iff, List.cons_prefix_cons]
  | case3 c d rest h ih =>
    rw [collapseSlashes, if_pos h]
    exact ih
  | case4 c d rest h ih =>
    rw [collapseSlashes, if_neg h]
    intro hi
    rcases List.infix_cons_iff.mp hi with hp | hi
    · obtain ⟨hc, htail⟩ := List.cons_prefix_cons.mp hp
      have hhead := collapseSlashes_head? (d :: rest)
      obtain ⟨t, ht⟩ := htail
      rw [← ht] at hhead
      exact h ⟨hc.symm, (Option.some.inj hhead).symm⟩
    · exact ih hi

theorem collapseSlashes_collapseSlashes (s : JsString) :
    collapseSlashes (collapseSlashes s) = collapseSlashes s :=
  collapseSlashes_eq_self (collapseSlashes_no_run s)

theorem runSegments_of_not_mem {s : JsString} (h : slash ∉ s) : runSegments s = [s] := by
  rw [runSegments, splitSlash_of_not_mem h]
  rfl

theorem runSegments_append_slash {s : JsString} (h : slash ∉ s) (t : JsString) :
    runSegments (s ++ slash :: t) = if s = [] then runSegments t else s :: runSegments t := by
  have hne := splitSlash_ne_nil t
  rw [runSegments, splitSlash_append_slash h, List.dropLast_cons_of_ne_nil hne,
    List.getLast?_cons_of_ne_nil hne, List.filter_cons]
  by_cases hs : s = []
  · simp [hs, runSegments]
  · simp [hs, runSegments]

theorem collapseSlashes_of_not_mem {s : JsString} (h : slash ∉ s) : collapseSlashes s = s := by
  have hself := collapseSlashes_append h []
  rwa [List.append_nil, collapseSlashes, List.append_nil] at hself

/-- After a slash, collapsing leaves the segments between runs. -/
theorem splitSlash_collapseSlashes_slash (t : JsString) :
    splitSlash (collapseSlashes (slash :: t)) = [] :: runSegments t := by
  have hcut (u : JsString) : splitSlash (slash :: u) = [] :: splitSlash u :=
    splitSlash_append_slash List.not_mem_nil u
  have hkept {u : JsString} (hu : u.head? ≠ some slash) :
      collapseSlashes (slash :: u) = slash :: collapseSlashes u :=
    collapseSlashes_segment List.not_mem_nil hu
  induction t using segmentInduction with
  | segment s hs =>
    have hhead : s.head? ≠ some slash := fun h => hs (List.mem_of_mem_head? h)
    rw [hkept hhead, collapseSlashes_of_not_mem hs, hcut, splitSlash_of_not_mem hs, runSegments_of_not_mem hs]
  | cut s rest hs ih =>
    rw [runSegments_append_slash hs]
    by_cases hnil : s = []
    · rw [if_pos hnil, hnil, List.nil_append, collapseSlashes, if_pos ⟨rfl, rfl⟩]
      exact ih
    · have hhead : (s ++ slash :: rest).head? ≠ some slash := by
        rw [List.head?_append_of_ne_nil s hnil]
        exact fun h => hs (List.mem_of_mem_head? h)
      obtain ⟨u, hu⟩ := collapseSlashes_slash_head rest
      rw [hu, hcut, List.cons.injEq] at ih
      rw [hkept hhead, collapseSlashes_append hs, hu, hcut, splitSlash_append_slash hs, ih.2, if_neg hnil]

/-- Collapsing keeps the segments between runs, and nothing else of a string that does
not start with a slash. -/
theorem splitSlash_collapseSlashes {s : JsString} (h : s.head? ≠ some slash) :
    splitSlash (collapseSlashes s) = runSegments s := by
  induction s using segmentInduction with
  | segment s hs => rw [collapseSlashes_of_not_mem hs, splitSlash_of_not_mem hs, runSegments_of_not_mem hs]
  | cut s rest hs ih =>
    have hnil : s ≠ [] := by
      rintro rfl
      exact h rfl
    have hrest := splitSlash_collapseSlashes_slash rest
    obtain ⟨u, hu⟩ := collapseSlashes_slash_head rest
    have hcut : splitSlash (slash :: u) = [] :: splitSlash u := splitSlash_append_slash List.not_mem_nil u
    rw [hu, hcut, List.cons.injEq] at hrest
    rw [collapseSlashes_append hs, hu, splitSlash_append_slash hs, hrest.2, runSegments_append_slash hs, if_neg hnil]

theorem mem_splitSlash_of_mem_runSegments {s seg : JsString} (h : seg ∈ runSegments s) : seg ∈ splitSlash s := by
  rcases List.mem_append.mp h with h | h
  · exact List.mem_of_mem_dropLast (List.mem_filter.mp h).1
  · exact List.mem_of_getLast? (Option.mem_toList.mp h)

theorem collapseSlashes_eq_iff {s t : JsString} (hs : s.head? ≠ some slash) (ht : t.head? ≠ some slash) :
    collapseSlashes s = collapseSlashes t ↔ runSegments s = runSegments t := by
  rw [← splitSlash_collapseSlashes hs, ← splitSlash_collapseSlashes ht]
  constructor
  · exact congrArg splitSlash
  · intro h
    rw [← joinSlash_splitSlash (collapseSlashes s), h, joinSlash_splitSlash]

theorem slashEnds_not_slash {c : CodeUnit} (hc : c ≠ slash) (atStart : Bool) (rest : JsString) :
    slashEnds atStart (c :: rest) = 0 := by
  simp [slashEnds, hc]

/-- A match passes over what it takes. -/
theorem removeMatches_append (matchLength : Bool → JsString → Nat) (front rest : JsString) (atStart : Bool)
    (hfront : front ≠ []) :
    removeMatches matchLength front.length atStart (front ++ rest) = removeMatches matchLength 0 false rest := by
  induction front generalizing atStart with
  | nil => exact absurd rfl hfront
  | cons c front ih =>
    rw [List.cons_append, List.length_cons, removeMatches]
    cases front with
    | nil => rfl
    | cons d front => exact ih false (List.cons_ne_nil _ _)

/-- Where the pattern matches, what it takes is passed over. -/
theorem removeMatches_of_match {matchLength : Bool → JsString → Nat} {atStart : Bool} {front rest : JsString}
    (hfront : front ≠ []) (h : matchLength atStart (front ++ rest) = front.length) :
    removeMatches matchLength 0 atStart (front ++ rest) = removeMatches matchLength 0 false rest := by
  rw [← removeMatches_append matchLength front rest atStart hfront]
  cases front with
  | nil => exact absurd rfl hfront
  | cons c front => rw [List.cons_append, removeMatches, ← List.cons_append, h, List.length_cons, List.cons_append,
      removeMatches]

theorem rdropWhile_slash_cons (c : CodeUnit) (rest : JsString) :
    (c :: rest).rdropWhile (· == slash) =
      if (c :: rest).all (· == slash) then [] else c :: rest.rdropWhile (· == slash) := by
  by_cases hall : (c :: rest).all (· == slash) = true
  · rw [if_pos hall, List.rdropWhile_eq_nil_iff]
    exact List.all_eq_true.mp hall
  · rw [if_neg hall, List.rdropWhile, List.rdropWhile, List.reverse_cons, List.dropWhile_append]
    split
    · rename_i hempty
      rw [List.isEmpty_iff, List.dropWhile_eq_nil_iff] at hempty
      have hc : ¬ (c == slash) = true := by
        intro hc
        refine hall (List.all_eq_true.mpr fun d hd => ?_)
        rcases List.mem_cons.mp hd with rfl | hd
        · exact hc
        · exact hempty d (List.mem_reverse.mpr hd)
      have hkept : [c].dropWhile (· == slash) = [c] := List.dropWhile_cons_of_neg hc
      rw [hkept, List.dropWhile_eq_nil_iff.mpr hempty]
      rfl
    · rw [List.reverse_append]
      rfl

/-- Past the start only the slashes at the end match. -/
theorem removeMatches_slashEnds_false (s : JsString) :
    removeMatches slashEnds 0 false s = s.rdropWhile (· == slash) := by
  induction s with
  | nil => rfl
  | cons c rest ih =>
    rw [rdropWhile_slash_cons]
    by_cases hall : (c :: rest).all (· == slash) = true
    · have hmatch : slashEnds false (c :: rest ++ []) = (c :: rest).length := by simp [slashEnds, hall]
      have htaken := removeMatches_of_match (List.cons_ne_nil c rest) hmatch
      rw [List.append_nil] at htaken
      rw [htaken, if_pos hall, removeMatches]
    · have hmiss : slashEnds false (c :: rest) = 0 := by simp [slashEnds, hall]
      rw [removeMatches, hmiss, ih, if_neg hall]

theorem trimSlashes_eq_removeMatches (s : JsString) : removeMatches slashEnds 0 true s = trimSlashes s := by
  rw [trimSlashes]
  by_cases h : s.head? = some slash
  · have hne : s.takeWhile (· == slash) ≠ [] := by
      obtain ⟨t, rfl⟩ := List.head?_eq_some_iff.mp h
      simp
    have hmatch : slashEnds true (s.takeWhile (· == slash) ++ s.dropWhile (· == slash)) =
        (s.takeWhile (· == slash)).length := by
      rw [List.takeWhile_append_dropWhile, slashEnds, if_pos ⟨rfl, h⟩]
    have htaken := removeMatches_of_match hne hmatch
    rw [List.takeWhile_append_dropWhile] at htaken
    rw [htaken, removeMatches_slashEnds_false]
  · rw [← removeMatches_slashEnds_false]
    cases s with
    | nil => rfl
    | cons c rest =>
      have hc : c ≠ slash := fun hc => h (congrArg some hc)
      rw [List.dropWhile_cons_of_neg (by simpa using hc), removeMatches, removeMatches,
        slashEnds_not_slash hc, slashEnds_not_slash hc]

theorem isTrimOf_trimSlashes (s : JsString) : IsTrimOf (trimSlashes s) s := by
  have hslashes {l : JsString} (hl : ∀ c ∈ l, (c == slash) = true) : l = List.replicate l.length slash :=
    List.eq_replicate_iff.mpr ⟨rfl, fun c hc => eq_of_beq (hl c hc)⟩
  have hfront := @hslashes (s.takeWhile (· == slash)) (fun c hc => List.all_eq_true.mp List.all_takeWhile c hc)
  have hback := @hslashes ((s.dropWhile (· == slash)).rtakeWhile (· == slash))
    (fun c hc => @List.mem_rtakeWhile_imp _ (· == slash) _ c hc)
  refine ⟨⟨(s.takeWhile (· == slash)).length, ((s.dropWhile (· == slash)).rtakeWhile (· == slash)).length, ?_⟩, ?_, ?_⟩
  · rw [← hfront, ← hback, trimSlashes, List.append_assoc, List.rdropWhile_append_rtakeWhile,
      List.takeWhile_append_dropWhile]
  · intro h
    obtain ⟨t, ht⟩ := List.head?_eq_some_iff.mp h
    obtain ⟨u, hu⟩ := List.rdropWhile_prefix (· == slash) (s.dropWhile (· == slash))
    have hhead := List.head?_dropWhile_not (· == slash) s
    rw [← hu, ← trimSlashes, ht] at hhead
    cases hhead
  · intro h
    have hne : trimSlashes s ≠ [] := by
      intro hnil
      rw [hnil] at h
      cases h
    rw [List.getLast?_eq_some_getLast hne] at h
    exact List.rdropWhile_last_not _ _ hne (beq_of_eq (Option.some.inj h))

end NestStorageExample.Text
