import NestStorageExample.Storage.InMemory
import NestStorageExample.Text.Matching

/-! The names that the export audit takes from a declaration file, beside the names that the
file exports. -/
namespace NestStorageExample.Scripts
open Text Storage

def comma : CodeUnit := 0x2C

def openBrace : CodeUnit := 0x7B

def closeBrace : CodeUnit := 0x7D

/-- `/export\s*\{([^}]*)\}/` -/
def matchExport (s : JsString) : Option (JsString × Nat) :=
  let gap := (s.drop 6).takeWhile isSpace
  let behind := (s.drop 6).dropWhile isSpace
  let body := behind.tail.takeWhile (· != closeBrace)
  if js "export" <+: s ∧ behind.head? = some openBrace ∧ closeBrace ∈ behind.tail then
    some (body, 6 + gap.length + 1 + body.length + 1)
  else none

/-- `s.replace(/^type\s+/, '')` -/
def stripType (s : JsString) : JsString :=
  if js "type" <+: s ∧ (s.drop 4).head?.any isSpace then (s.drop 4).dropWhile isSpace else s

/-- Whether `s` starts with `/\s+as\s+/`. -/
def isRename (s : JsString) : Bool :=
  s.head?.any isSpace && (js "as").isPrefixOf (s.dropWhile isSpace) && ((s.dropWhile isSpace).drop 2).head?.any isSpace

def cleaned (raw : JsString) : JsString := trim (untilMatch isRename (stripType (trim raw)))

def blockNames (block : JsString) : List JsString := ((block.splitOn comma).map cleaned).filter (· ≠ [])

def extractExports (source : JsString) : List JsString :=
  (((matchAll matchExport source).flatMap blockNames).eraseDups).insertionSort keyLe

/-! Export lists. -/

/-- The code points that continue an identifier. Those outside ASCII are left open, except that
blanks and surrogates are none of them. -/
structure Alphabet where
  part : Nat → Bool
  ascii : ∀ cp < 0x80, part cp = (isWordUnit (UInt16.ofNat cp) || cp == 0x24)
  scalar : ∀ cp, part cp = true → IsScalar cp
  notSpace : ∀ u : CodeUnit, isSpace u = true → part u.toNat = false

variable {alphabet : Alphabet}

structure Identifier (alphabet : Alphabet) where
  points : List Nat
  ne : points ≠ []
  parts : ∀ cp ∈ points, alphabet.part cp = true

def Identifier.text (name : Identifier alphabet) : JsString := name.points.flatMap utf16

structure Blanks where
  text : JsString
  blank : Blank text

structure Gap extends Blanks where
  ne : text ≠ []

/-- ` as name` -/
structure Rename (alphabet : Alphabet) where
  before : Gap
  behind : Gap
  exported : Identifier alphabet

/-- `A`, `type A`, `A as B` or `type A as B`; the modifier is given by the gap behind it. -/
structure ExportItem (alphabet : Alphabet) where
  modifier : Option Gap
  name : Identifier alphabet
  rename : Option (Rename alphabet)

def modifierText (modifier : Option Gap) : JsString :=
  match modifier with
  | some gap => js "type" ++ gap.text
  | none => []

def renameText (rename : Option (Rename alphabet)) : JsString :=
  match rename with
  | some rename => rename.before.text ++ (js "as" ++ (rename.behind.text ++ rename.exported.text))
  | none => []

namespace ExportItem
variable (item : ExportItem alphabet)

def text : JsString := modifierText item.modifier ++ (item.name.text ++ renameText item.rename)

/-- The name under which the item is public. -/
def exported : JsString :=
  match item.rename with
  | some rename => rename.exported.text
  | none => item.name.text

/-- `type as B` renames what is called `type`. -/
def RenamesType : Prop := item.modifier = none ∧ item.name.text = js "type" ∧ item.rename.isSome = true

end ExportItem

/-- What stands between two commas; a list may end with a comma. -/
structure Segment (alphabet : Alphabet) where
  before : Blanks
  item : Option (ExportItem alphabet)
  behind : Blanks

def Segment.text (segment : Segment alphabet) : JsString :=
  segment.before.text ++ ((segment.item.map ExportItem.text).getD [] ++ segment.behind.text)

structure ExportList (alphabet : Alphabet) where
  gap : Blanks
  segments : List (Segment alphabet)

def ExportList.body (list : ExportList alphabet) : JsString := [comma].intercalate (list.segments.map Segment.text)

def ExportList.text (list : ExportList alphabet) : JsString :=
  js "export" ++ (list.gap.text ++ openBrace :: (list.body ++ [closeBrace]))

/-- Anything around the lists in which the keyword does not stand. -/
structure Filler where
  text : JsString
  quiet : ¬ js "export" <:+: text

structure DeclarationFile (alphabet : Alphabet) where
  lists : List (Filler × ExportList alphabet)
  rest : Filler

namespace DeclarationFile
variable (file : DeclarationFile alphabet)

def text : JsString := file.lists.flatMap (fun entry => entry.1.text ++ entry.2.text) ++ file.rest.text

def items : List (ExportItem alphabet) :=
  file.lists.flatMap fun entry => entry.2.segments.filterMap Segment.item

def IsPublic (name : JsString) : Prop := ∃ item ∈ file.items, item.exported = name

def IsLocal (name : JsString) : Prop := ∃ item ∈ file.items, item.name.text = name

end DeclarationFile

/-- Exactly the public names, each once and in order. -/
structure ExtractsPublicNames (file : DeclarationFile alphabet) : Prop where
  ascending : (extractExports file.text).Pairwise keyLt
  exact : ∀ name, name ∈ extractExports file.text ↔ file.IsPublic name

/-- Renames only pass names on among themselves, and nothing called `type` is renamed. -/
structure SameNamesInside (file : DeclarationFile alphabet) : Prop where
  local_iff : ∀ name, file.IsLocal name ↔ file.IsPublic name
  plain : ∀ item ∈ file.items, ¬ item.RenamesType

/-! An item is taken for its name inside. -/

/-- Code units of names and keywords are neither blanks nor marks of the list. -/
theorem Identifier.solid (name : Identifier alphabet) {u : CodeUnit} (hu : u ∈ name.text) :
    isSpace u = false ∧ u ≠ comma ∧ u ≠ closeBrace := by
  obtain ⟨cp, hcp, hunit⟩ := List.mem_flatMap.mp hu
  have hpart := name.parts cp hcp
  rw [utf16] at hunit
  split at hunit
  · obtain rfl := List.mem_singleton.mp hunit
    have hvalue : (UInt16.ofNat cp).toNat = cp := by
      rw [UInt16.toNat_ofNat']
      omega
    have hmark {mark : CodeUnit} (hascii : mark.toNat < 0x80) (hno : (isWordUnit mark || mark.toNat == 0x24) = false) :
        UInt16.ofNat cp ≠ mark := by
      intro heq
      have hmark := alphabet.ascii mark.toNat hascii
      rw [UInt16.ofNat_toNat, hno, ← heq, hvalue, hpart] at hmark
      cases hmark
    refine ⟨?_, hmark (by decide) (by decide), hmark (by decide) (by decide)⟩
    by_contra hspace
    have hno := alphabet.notSpace _ (Bool.eq_true_of_not_eq_false hspace)
    rw [hvalue, hpart] at hno
    cases hno
  · obtain ⟨hlt, -⟩ := alphabet.scalar cp hpart
    have hsurrogate : 0xD800 ≤ u.toNat ∧ u.toNat ≤ 0xDFFF := by
      rcases List.mem_pair.mp hunit with rfl | rfl
      · rw [UInt16.toNat_ofNat']
        omega
      · rw [UInt16.toNat_ofNat']
        omega
    refine ⟨?_, ?_, ?_⟩
    · simp only [isSpace, List.contains_eq_mem, Bool.or_eq_false_iff, Bool.and_eq_false_iff, decide_eq_false_iff_not,
        List.mem_cons, List.not_mem_nil, or_false]
      omega
    · rintro rfl
      exact absurd hsurrogate (by decide)
    · rintro rfl
      exact absurd hsurrogate (by decide)

theorem Identifier.text_ne_nil (name : Identifier alphabet) : name.text ≠ [] := by
  obtain ⟨cp, points, hpoints⟩ := List.exists_cons_of_ne_nil name.ne
  rw [Identifier.text, hpoints, List.flatMap_cons, utf16]
  split <;> exact List.cons_ne_nil _ _

theorem Identifier.isWord (name : Identifier alphabet) : IsWord name.text :=
  ⟨name.text_ne_nil, fun _ hu => (name.solid hu).1⟩

theorem isWord_type : IsWord (js "type") := isWord_of_any (by decide) (by decide)

theorem isWord_as : IsWord (js "as") := isWord_of_any (by decide) (by decide)

theorem Gap.head (gap : Gap) (s : JsString) : (gap.text ++ s).head?.any isSpace = true := by
  obtain ⟨u, rest, htext⟩ := List.exists_cons_of_ne_nil gap.ne
  rw [htext, List.cons_append, List.head?_cons, Option.any_some]
  exact gap.blank u (by rw [htext]; exact List.mem_cons_self)

theorem dropWhile_word {s : JsString} (h : IsWord s) (blanks : Blanks) (rest : JsString) :
    (blanks.text ++ (s ++ rest)).dropWhile isSpace = s ++ rest := by
  apply dropWhile_isSpace_append blanks.blank
  rw [List.head?_append_of_ne_nil _ h.ne]
  exact h.trimmed.first

/-- A first word that starts with the modifier and goes on with a blank is the modifier. -/
theorem eq_type_of_starts {word rest : JsString} (h : IsWord word) (hrest : rest = [] ∨ rest.head?.any isSpace = true)
    (hstart : js "type" <+: word ++ rest) (hspace : ((word ++ rest).drop 4).head?.any isSpace = true) :
    word = js "type" := by
  rcases List.prefix_or_prefix_of_prefix hstart (List.prefix_append word rest) with ⟨more, rfl⟩ | ⟨more, hmore⟩
  · rw [List.append_assoc, show 4 = (js "type").length from rfl, List.drop_left] at hspace
    cases more with
    | nil => exact List.append_nil _
    | cons u more =>
      have hsolid := h.solid u (List.mem_append_right _ List.mem_cons_self)
      rw [List.cons_append, List.head?_cons, Option.any_some, hsolid] at hspace
      cases hspace
  · rw [← hmore, List.prefix_append_right_inj] at hstart
    obtain ⟨tail, rfl⟩ := hstart
    cases more with
    | nil => rwa [List.append_nil] at hmore
    -- what is left of the modifier would have to be a blank
    | cons u more =>
      have hu : u ∈ js "type" := by
        rw [← hmore]
        exact List.mem_append_right _ List.mem_cons_self
      rcases hrest with hnil | hblank
      · cases hnil
      · rw [List.cons_append, List.head?_cons, Option.any_some, isWord_type.solid u hu] at hblank
        cases hblank

/-- Only a whole first word `type` with something behind it is a modifier. -/
theorem stripType_word {word rest : JsString} (h : IsWord word) (hrest : rest = [] ∨ rest.head?.any isSpace = true) :
    stripType (word ++ rest) =
      if word = js "type" ∧ rest ≠ [] then rest.dropWhile isSpace else word ++ rest := by
  rw [stripType]
  by_cases hword : word = js "type" ∧ rest ≠ []
  · obtain ⟨rfl, hne⟩ := hword
    rw [show 4 = (js "type").length from rfl, List.drop_left,
      if_pos ⟨List.prefix_append _ _, hrest.resolve_left hne⟩, if_pos ⟨rfl, hne⟩]
  · rw [if_neg hword]
    apply if_neg
    rintro ⟨hstart, hspace⟩
    obtain rfl := eq_type_of_starts h hrest hstart hspace
    refine hword ⟨rfl, ?_⟩
    rintro rfl
    cases hspace

theorem isRename_solid {u : CodeUnit} (h : isSpace u = false) (s : JsString) : isRename (u :: s) = false := by
  rw [isRename, List.head?_cons, Option.any_some, h, Bool.false_and, Bool.false_and]

theorem untilMatch_word {word : JsString} (h : ∀ u ∈ word, isSpace u = false) (rest : JsString) :
    untilMatch isRename (word ++ rest) = word ++ untilMatch isRename rest := by
  apply untilMatch_append
  intro back hback hne
  obtain ⟨u, back, rfl⟩ := List.exists_cons_of_ne_nil hne
  exact isRename_solid (h u (hback.subset List.mem_cons_self)) _

theorem untilMatch_rename (before behind : Gap) (s : JsString) :
    untilMatch isRename (before.text ++ (js "as" ++ (behind.text ++ s))) = [] := by
  apply untilMatch_of_match
  rw [isRename, before.head, dropWhile_word isWord_as before.toBlanks, show 2 = (js "as").length from rfl, List.drop_left,
    behind.head, Bool.true_and, Bool.and_true]
  exact List.isPrefixOf_iff_prefix.mpr (List.prefix_append _ _)

/-- No gap in front of a last word is a rename. -/
theorem untilMatch_last (gap : Gap) {word : JsString} (h : IsWord word) :
    untilMatch isRename (gap.text ++ word) = gap.text ++ word := by
  have hword := untilMatch_word h.solid []
  rw [List.append_nil, untilMatch, List.append_nil] at hword
  rw [untilMatch_append, hword]
  intro back hback _
  have hblank : Blank back := fun u hu => gap.blank u (hback.subset hu)
  have hdrop : (back ++ word).dropWhile isSpace = word := dropWhile_isSpace_append hblank h.trimmed.first
  have hnext : (word.drop 2).head?.any isSpace = false := by
    cases hhead : (word.drop 2).head? with
    | none => rfl
    | some u => exact h.solid u (List.mem_of_mem_drop (List.mem_of_mem_head? hhead))
  rw [isRename, hdrop, hnext, Bool.and_false]

namespace ExportItem
variable (item : ExportItem alphabet)

/-- The name, and what `rename` makes of it. -/
def core : JsString := item.name.text ++ renameText item.rename

theorem text_eq : item.text = modifierText item.modifier ++ item.core := rfl

theorem core_ne_nil : item.core ≠ [] := List.append_ne_nil_of_left_ne_nil item.name.text_ne_nil _

theorem core_trimmed : Trimmed item.core := by
  unfold core renameText
  cases item.rename with
  | none =>
    rw [List.append_nil]
    exact item.name.isWord.trimmed
  | some rename =>
    have hassoc : rename.before.text ++ (js "as" ++ (rename.behind.text ++ rename.exported.text)) =
        (rename.before.text ++ (js "as" ++ rename.behind.text)) ++ rename.exported.text := by
      simp only [List.append_assoc]
    dsimp only
    rw [hassoc]
    exact item.name.isWord.trimmed.append rename.exported.isWord.trimmed item.name.text_ne_nil
      rename.exported.text_ne_nil _

theorem text_trimmed : Trimmed item.text := by
  rw [text_eq]
  unfold modifierText
  cases item.modifier with
  | none => exact item.core_trimmed
  | some gap =>
    dsimp only
    rw [List.append_assoc]
    exact isWord_type.trimmed.append item.core_trimmed isWord_type.ne item.core_ne_nil gap.text

/-- What is taken for the name of an item. -/
def extracted : JsString :=
  match item.modifier, item.rename with
  | none, some rename =>
    if item.name.text = js "type" then js "as" ++ (rename.behind.text ++ rename.exported.text) else item.name.text
  | _, _ => item.name.text

theorem untilMatch_core : untilMatch isRename item.core = item.name.text := by
  rw [core, untilMatch_word item.name.isWord.solid]
  unfold renameText
  cases item.rename with
  | none => exact List.append_nil _
  | some rename =>
    dsimp only
    rw [untilMatch_rename, List.append_nil]

theorem stripType_modified (gap : Gap) : stripType (js "type" ++ gap.text ++ item.core) = item.core := by
  have hhead := gap.head item.core
  have hne : gap.text ++ item.core ≠ [] := List.append_ne_nil_of_left_ne_nil gap.ne _
  rw [List.append_assoc, stripType_word isWord_type (Or.inr hhead), if_pos ⟨rfl, hne⟩]
  exact dropWhile_word item.name.isWord gap.toBlanks _

/-- What is kept between the modifier and the rename. -/
theorem untilMatch_stripType : untilMatch isRename (stripType item.text) = item.extracted := by
  rw [text_eq, extracted]
  cases hmodifier : item.modifier with
  | some gap =>
    rw [modifierText]
    dsimp only
    rw [stripType_modified, untilMatch_core]
  | none =>
    rw [modifierText, List.nil_append]
    cases hrename : item.rename with
    | none =>
      have hstrip : stripType item.core = item.core := by
        rw [core, hrename, renameText]
        rw [stripType_word item.name.isWord (Or.inl rfl), if_neg fun h => h.2 rfl]
      dsimp only
      rw [hstrip, untilMatch_core]
    | some rename =>
      have hhead : (renameText (some rename)).head?.any isSpace = true := rename.before.head _
      have hne : renameText (some rename) ≠ [] := List.append_ne_nil_of_left_ne_nil rename.before.ne _
      have hstrip := stripType_word item.name.isWord (Or.inr hhead)
      dsimp only
      split
      · rename_i htype
        rw [if_pos ⟨htype, hne⟩] at hstrip
        rw [core, hrename, hstrip, renameText, dropWhile_word isWord_as rename.before.toBlanks,
          untilMatch_word isWord_as.solid, untilMatch_last rename.behind rename.exported.isWord]
      · rename_i htype
        rw [if_neg fun h => htype h.1] at hstrip
        rw [core, hrename, hstrip, ← hrename]
        exact item.untilMatch_core

theorem extracted_eq_or : item.extracted = item.name.text ∨ ∃ rename, item.rename = some rename ∧
    item.modifier = none ∧ item.name.text = js "type" ∧
    item.extracted = js "as" ++ (rename.behind.text ++ rename.exported.text) := by
  unfold extracted
  split
  · rename_i rename hmodifier hrename
    split
    · exact Or.inr ⟨rename, hrename, hmodifier, ‹_›, rfl⟩
    · exact Or.inl rfl
  · exact Or.inl rfl

theorem extracted_trimmed : Trimmed item.extracted ∧ item.extracted ≠ [] := by
  rcases item.extracted_eq_or with h | ⟨rename, -, -, -, h⟩
  · rw [h]
    exact ⟨item.name.isWord.trimmed, item.name.text_ne_nil⟩
  · rw [h]
    exact ⟨isWord_as.trimmed.append rename.exported.isWord.trimmed isWord_as.ne rename.exported.text_ne_nil _,
      List.append_ne_nil_of_left_ne_nil isWord_as.ne _⟩

end ExportItem

theorem cleaned_segment (segment : Segment alphabet) :
    cleaned segment.text = (segment.item.map ExportItem.extracted).getD [] := by
  rw [Segment.text, cleaned]
  cases segment.item with
  | none =>
    have hempty : Trimmed [] := trimmed_of_no_space (List.forall_mem_nil _)
    dsimp only [Option.map_none, Option.getD_none]
    rw [trim_between segment.before.blank hempty segment.behind.blank]
    decide
  | some item =>
    dsimp only [Option.map_some, Option.getD_some]
    rw [trim_between segment.before.blank item.text_trimmed segment.behind.blank, item.untilMatch_stripType,
      trim_of_trimmed item.extracted_trimmed.1]

/-! A file is taken for its lists. -/

/-- Neither of the two marks that a list is cut at. -/
def Inner (s : JsString) : Prop := ∀ u ∈ s, u ≠ comma ∧ u ≠ closeBrace

theorem inner_of_not_mem {s : JsString} (hcomma : comma ∉ s) (hbrace : closeBrace ∉ s) : Inner s :=
  fun _ hu => ⟨ne_of_mem_of_not_mem hu hcomma, ne_of_mem_of_not_mem hu hbrace⟩

theorem Inner.append {s t : JsString} (hs : Inner s) (ht : Inner t) : Inner (s ++ t) := by
  intro u hu
  rcases List.mem_append.mp hu with hu | hu
  · exact hs u hu
  · exact ht u hu

theorem Blanks.inner (blanks : Blanks) : Inner blanks.text := by
  intro u hu
  have hblank := blanks.blank u hu
  constructor
  · rintro rfl
    exact absurd hblank (by decide)
  · rintro rfl
    exact absurd hblank (by decide)

theorem Identifier.inner (name : Identifier alphabet) : Inner name.text := fun _ hu => (name.solid hu).2

theorem ExportItem.inner (item : ExportItem alphabet) : Inner item.text := by
  have htype : Inner (js "type") := inner_of_not_mem (by decide) (by decide)
  have has : Inner (js "as") := inner_of_not_mem (by decide) (by decide)
  have hmodifier : Inner (modifierText item.modifier) := by
    unfold modifierText
    cases item.modifier with
    | none => exact List.forall_mem_nil _
    | some gap => exact htype.append gap.inner
  have hrename : Inner (renameText item.rename) := by
    unfold renameText
    cases item.rename with
    | none => exact List.forall_mem_nil _
    | some rename => exact rename.before.inner.append (has.append (rename.behind.inner.append rename.exported.inner))
  exact hmodifier.append (item.name.inner.append hrename)

theorem Segment.inner (segment : Segment alphabet) : Inner segment.text := by
  refine segment.before.inner.append (Inner.append ?_ segment.behind.inner)
  cases segment.item with
  | none => exact List.forall_mem_nil _
  | some item => exact item.inner

theorem filter_cleaned (segments : List (Segment alphabet)) :
    ((segments.map Segment.text).map cleaned).filter (· ≠ []) =
      (segments.filterMap Segment.item).map ExportItem.extracted := by
  induction segments with
  | nil => rfl
  | cons segment segments ih =>
    rw [List.map_cons, List.map_cons, List.filter_cons, cleaned_segment, ih]
    cases hitem : segment.item with
    | none =>
      rw [List.filterMap_cons_none hitem]
      rfl
    | some item =>
      rw [List.filterMap_cons_some hitem, List.map_cons]
      exact if_pos (decide_eq_true item.extracted_trimmed.2)

theorem blockNames_body (list : ExportList alphabet) :
    blockNames list.body = (list.segments.filterMap Segment.item).map ExportItem.extracted := by
  by_cases hne : list.segments = []
  · have hempty : blockNames [] = [] := by decide
    rw [ExportList.body, hne]
    exact hempty
  · rw [blockNames, ExportList.body, List.splitOn_intercalate, filter_cleaned]
    · intro text htext hcomma
      obtain ⟨segment, -, rfl⟩ := List.mem_map.mp htext
      exact (segment.inner comma hcomma).1 rfl
    · exact fun hnil => hne (List.map_eq_nil_iff.mp hnil)

theorem closeBrace_not_mem_body (list : ExportList alphabet) : closeBrace ∉ list.body := by
  unfold ExportList.body
  induction list.segments with
  | nil => exact List.not_mem_nil
  | cons segment segments ih =>
    intro hmem
    cases segments with
    | nil =>
      rw [List.map_cons, List.map_nil, List.intercalate_singleton] at hmem
      exact (segment.inner _ hmem).2 rfl
    | cons next segments =>
      rw [List.map_cons, List.map_cons, List.intercalate_cons_cons] at hmem
      rcases List.mem_append.mp hmem with hmem | hmem
      · rcases List.mem_append.mp hmem with hmem | hmem
        · exact (segment.inner _ hmem).2 rfl
        · exact absurd hmem (by decide)
      · exact ih hmem

theorem matchExport_list (list : ExportList alphabet) (rest : JsString) :
    matchExport (list.text ++ rest) = some (list.body, list.text.length) := by
  have htext : list.text ++ rest =
      js "export" ++ (list.gap.text ++ openBrace :: (list.body ++ closeBrace :: rest)) := by
    simp only [ExportList.text, List.append_assoc, List.cons_append, List.nil_append]
  have hdrop : (list.text ++ rest).drop 6 = list.gap.text ++ openBrace :: (list.body ++ closeBrace :: rest) := by
    rw [htext, show 6 = (js "export").length from rfl, List.drop_left]
  have hopen : isSpace openBrace = false := by decide
  have hgap : ((list.text ++ rest).drop 6).takeWhile isSpace = list.gap.text := by
    rw [hdrop, List.takeWhile_append_of_pos list.gap.blank, List.takeWhile_cons_of_neg (by rw [hopen]; decide),
      List.append_nil]
  have hbehind : ((list.text ++ rest).drop 6).dropWhile isSpace = openBrace :: (list.body ++ closeBrace :: rest) := by
    rw [hdrop, List.dropWhile_append_of_pos list.gap.blank, List.dropWhile_cons_of_neg (by rw [hopen]; decide)]
  have hbody : (list.body ++ closeBrace :: rest).takeWhile (· != closeBrace) = list.body := by
    rw [List.takeWhile_append_of_pos, List.takeWhile_cons_of_neg (by decide), List.append_nil]
    intro u hu
    apply bne_iff_ne.mpr
    rintro rfl
    exact closeBrace_not_mem_body list hu
  have hlength : list.text.length = 6 + list.gap.text.length + 1 + list.body.length + 1 := by
    simp only [ExportList.text, List.length_append, List.length_cons, List.length_nil,
      show (js "export").length = 6 from rfl]
    omega
  rw [matchExport, hgap, hbehind, List.tail_cons, hbody, hlength, if_pos]
  exact ⟨by rw [htext]; exact List.prefix_append _ _, rfl, List.mem_append_right _ List.mem_cons_self⟩

/-- Nothing is found before the next list, since the keyword does not overlap itself. -/
theorem Filler.passed (filler : Filler) {rest : JsString} (hrest : rest = [] ∨ js "export" <+: rest) :
    matchAll matchExport (filler.text ++ rest) = matchAll matchExport rest := by
  apply matchAll_append
  intro back hback hne
  rw [matchExport]
  apply if_neg
  rintro ⟨hkeyword, -⟩
  rcases List.prefix_or_prefix_of_prefix hkeyword (List.prefix_append back rest) with hinside | ⟨more, hmore⟩
  · exact filler.quiet (hinside.isInfix.trans hback.isInfix)
  · rw [← hmore, List.prefix_append_right_inj] at hkeyword
    cases more with
    | nil =>
      rw [List.append_nil] at hmore
      exact filler.quiet (hmore ▸ hback.isInfix)
    | cons u more =>
      have hfirst : rest.head? = some u := by
        obtain ⟨behind, rfl⟩ := hkeyword
        rfl
      have hu : u = 0x65 := by
        rcases hrest with rfl | ⟨behind, rfl⟩
        · cases hfirst
        · exact (Option.some.inj hfirst).symm
      -- the keyword has its first letter only once
      have htail : 0x65 ∉ (js "export").tail := by decide
      obtain ⟨v, back, rfl⟩ := List.exists_cons_of_ne_nil hne
      rw [← hmore, List.cons_append, List.tail_cons, ← hu] at htail
      exact htail (List.mem_append_right _ List.mem_cons_self)

theorem matchAll_text (lists : List (Filler × ExportList alphabet)) (rest : Filler) :
    matchAll matchExport (lists.flatMap (fun entry => entry.1.text ++ entry.2.text) ++ rest.text) =
      lists.map fun entry => entry.2.body := by
  induction lists with
  | nil =>
    have hpassed := rest.passed (Or.inl rfl)
    rwa [List.append_nil] at hpassed
  | cons entry lists ih =>
    obtain ⟨filler, list⟩ := entry
    have hkeyword (behind : JsString) : js "export" <+: list.text ++ behind := by
      rw [ExportList.text, List.append_assoc]
      exact List.prefix_append _ _
    have hne (behind : JsString) : list.text ++ behind ≠ [] := List.append_ne_nil_of_left_ne_nil (by
      rw [ExportList.text]
      exact List.append_ne_nil_of_left_ne_nil (by decide) _) _
    have hpos : 0 < list.text.length := by
      rw [ExportList.text, List.length_append]
      exact Nat.add_pos_left (by decide) _
    rw [List.flatMap_cons, List.append_assoc, List.append_assoc, filler.passed (Or.inr (hkeyword _)),
      matchAll_of_match (matchExport_list list _) (hne _) hpos, List.drop_left, ih, List.map_cons]

/-- The names that are taken, whatever the forms of the items. -/
theorem mem_extractExports (file : DeclarationFile alphabet) (name : JsString) :
    name ∈ extractExports file.text ↔ ∃ item ∈ file.items, item.extracted = name := by
  have hblocks (lists : List (Filler × ExportList alphabet)) :
      (lists.map fun entry => entry.2.body).flatMap blockNames =
        (lists.flatMap fun entry => entry.2.segments.filterMap Segment.item).map ExportItem.extracted := by
    induction lists with
    | nil => rfl
    | cons entry lists ih =>
      rw [List.map_cons, List.flatMap_cons, List.flatMap_cons, ih, blockNames_body, List.map_append]
  rw [extractExports, List.mem_insertionSort, List.mem_eraseDups, DeclarationFile.text, matchAll_text, hblocks,
    List.mem_map]
  rfl

theorem nodup_eraseDups (names : List JsString) : names.eraseDups.Nodup := by
  induction hlength : names.length using Nat.strong_induction_on generalizing names with
  | _ length ih =>
    cases names with
    | nil => exact List.nodup_nil
    | cons name names =>
      have hshorter : (names.filter fun other => !other == name).length < length := by
        rw [← hlength, List.length_cons]
        exact Nat.lt_succ_of_le (List.length_filter_le _ _)
      rw [List.eraseDups_cons, List.nodup_cons, List.mem_eraseDups, List.mem_filter]
      refine ⟨?_, ih _ hshorter _ rfl⟩
      rintro ⟨-, hother⟩
      rw [beq_self_eq_true] at hother
      cases hother

theorem extractExports_ascending (source : JsString) : (extractExports source).Pairwise keyLt := by
  have hle := List.pairwise_insertionSort keyLe ((matchAll matchExport source).flatMap blockNames).eraseDups
  have hne := (List.perm_insertionSort keyLe _).nodup_iff.mpr
    (nodup_eraseDups ((matchAll matchExport source).flatMap blockNames))
  exact (hle.and hne).imp keyLt_iff.mpr

theorem ExportItem.extracted_of_plain {item : ExportItem alphabet} (h : ¬ item.RenamesType) :
    item.extracted = item.name.text := by
  rcases item.extracted_eq_or with heq | ⟨rename, hrename, hmodifier, hname, -⟩
  · exact heq
  · exact absurd ⟨hmodifier, hname, by rw [hrename]; rfl⟩ h

/-- What is taken from `type as B` is the name of nothing. -/
theorem ExportItem.extracted_of_renamesType {item : ExportItem alphabet} (h : item.RenamesType)
    (name : Identifier alphabet) : item.extracted ≠ name.text := by
  obtain ⟨hmodifier, hname, hsome⟩ := h
  obtain ⟨rename, hrename⟩ := Option.isSome_iff_exists.mp hsome
  obtain ⟨u, gap, hgap⟩ := List.exists_cons_of_ne_nil rename.behind.ne
  have hu : u ∈ rename.behind.text := by
    rw [hgap]
    exact List.mem_cons_self
  intro heq
  have hextracted : item.extracted = js "as" ++ (rename.behind.text ++ rename.exported.text) := by
    simp only [ExportItem.extracted, hmodifier, hrename, hname, if_true]
  rw [hextracted] at heq
  have hsolid := (name.solid (heq ▸ List.mem_append_right _ (List.mem_append_left _ hu))).1
  rw [rename.behind.blank u hu] at hsolid
  cases hsolid

theorem ExportItem.exported_eq (item : ExportItem alphabet) :
    ∃ name : Identifier alphabet, item.exported = name.text := by
  unfold ExportItem.exported
  cases item.rename with
  | none => exact ⟨item.name, rfl⟩
  | some rename => exact ⟨rename.exported, rfl⟩

theorem extracts_publicNames_iff (file : DeclarationFile alphabet) :
    ExtractsPublicNames file ↔ SameNamesInside file := by
  constructor
  · rintro ⟨-, hexact⟩
    have hplain : ∀ item ∈ file.items, ¬ item.RenamesType := by
      intro item hitem htype
      obtain ⟨other, -, hother⟩ := (hexact _).mp ((mem_extractExports file _).mpr ⟨item, hitem, rfl⟩)
      obtain ⟨name, hname⟩ := other.exported_eq
      exact ExportItem.extracted_of_renamesType htype name (hother.symm.trans hname)
    refine ⟨fun name => ?_, hplain⟩
    rw [← hexact, mem_extractExports]
    exact exists_congr fun item => and_congr_right fun hitem => by rw [ExportItem.extracted_of_plain (hplain item hitem)]
  · rintro ⟨hlocal, hplain⟩
    refine ⟨extractExports_ascending _, fun name => ?_⟩
    rw [mem_extractExports, ← hlocal]
    exact exists_congr fun item => and_congr_right fun hitem => by rw [ExportItem.extracted_of_plain (hplain item hitem)]

end NestStorageExample.Scripts
