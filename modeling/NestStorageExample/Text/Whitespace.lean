import Mathlib.Data.List.DropRight
import NestStorageExample.Text.CodeUnits

/-! The blanks of JavaScript text, which `trim` removes and `\s` matches. -/
namespace NestStorageExample.Text

/-- White space and line terminators. -/
def isSpace (u : CodeUnit) : Bool :=
  (0x09 ≤ u.toNat && u.toNat ≤ 0x0D) || (0x2000 ≤ u.toNat && u.toNat ≤ 0x200A) ||
    [0x20, 0xA0, 0x1680, 0x2028, 0x2029, 0x202F, 0x205F, 0x3000, 0xFEFF].contains u.toNat

def trim (s : JsString) : JsString := (s.dropWhile isSpace).rdropWhile isSpace

def Blank (s : JsString) : Prop := ∀ u ∈ s, isSpace u = true

/-- Neither the first nor the last code unit is a blank. -/
structure Trimmed (s : JsString) : Prop where
  first : ∀ u ∈ s.head?, isSpace u = false
  last : ∀ u ∈ s.getLast?, isSpace u = false

theorem dropWhile_isSpace_append {pre s : JsString} (hpre : Blank pre) (hs : ∀ u ∈ s.head?, isSpace u = false) :
    (pre ++ s).dropWhile isSpace = s := by
  rw [List.dropWhile_append_of_pos hpre]
  cases s with
  | nil => rfl
  | cons u s => rw [List.dropWhile_cons_of_neg (by rw [hs u rfl]; exact Bool.false_ne_true)]

/-- Blanks around a text that has none at its ends are what `trim` removes. -/
theorem trim_between {pre s post : JsString} (hpre : Blank pre) (hs : Trimmed s) (hpost : Blank post) :
    trim (pre ++ (s ++ post)) = s := by
  have hreversed : Blank post.reverse := fun u hu => hpost u (List.mem_reverse.mp hu)
  have hright : (s ++ post).rdropWhile isSpace = s := by
    rw [List.rdropWhile, List.reverse_append, dropWhile_isSpace_append hreversed, List.reverse_reverse]
    rw [List.head?_reverse]
    exact hs.last
  rw [trim]
  by_cases hne : s = []
  · subst hne
    rw [List.nil_append, List.dropWhile_append_of_pos hpre, List.dropWhile_eq_nil_iff.mpr hpost]
    rfl
  · rw [dropWhile_isSpace_append hpre, hright]
    rw [List.head?_append_of_ne_nil _ hne]
    exact hs.first

theorem trim_of_trimmed {s : JsString} (h : Trimmed s) : trim s = s := by
  have htrim : trim ([] ++ (s ++ [])) = s := trim_between (List.forall_mem_nil _) h (List.forall_mem_nil _)
  rwa [List.append_nil] at htrim

theorem trimmed_of_no_space {s : JsString} (h : ∀ u ∈ s, isSpace u = false) : Trimmed s where
  first u hu := h u (List.mem_of_mem_head? hu)
  last u hu := h u (List.mem_of_getLast? hu)

structure IsWord (s : JsString) : Prop where
  ne : s ≠ []
  solid : ∀ u ∈ s, isSpace u = false

theorem IsWord.trimmed {s : JsString} (h : IsWord s) : Trimmed s := trimmed_of_no_space h.solid

theorem isWord_of_any {s : JsString} (hne : s ≠ []) (h : s.any isSpace = false) : IsWord s where
  ne := hne
  solid u hu := Bool.eq_false_of_not_eq_true (List.any_eq_false.mp h u hu)

theorem Trimmed.append {s t : JsString} (hs : Trimmed s) (ht : Trimmed t) (hsne : s ≠ []) (htne : t ≠ [])
    (middle : JsString) : Trimmed (s ++ (middle ++ t)) where
  first u hu := hs.first u (by rwa [List.head?_append_of_ne_nil _ hsne] at hu)
  last u hu := by
    rw [← List.append_assoc, List.getLast?_append_of_ne_nil _ htne] at hu
    exact ht.last u hu

/-- Words with something between them have no blank at their ends. -/
theorem trimmed_intercalate (separator : JsString) {words : List JsString} (h : ∀ word ∈ words, IsWord word) :
    Trimmed (separator.intercalate words) ∧ (words ≠ [] → separator.intercalate words ≠ []) := by
  induction words with
  | nil => exact ⟨trimmed_of_no_space (List.forall_mem_nil _), fun hne => absurd rfl hne⟩
  | cons word words ih =>
    have hword := h word List.mem_cons_self
    obtain ⟨htrimmed, hrest⟩ := ih fun other hother => h other (List.mem_cons_of_mem word hother)
    by_cases hwords : words = []
    · subst hwords
      rw [List.intercalate_singleton]
      exact ⟨hword.trimmed, fun _ => hword.ne⟩
    · rw [List.intercalate_cons_of_ne_nil hwords, List.append_assoc]
      exact ⟨hword.trimmed.append htrimmed hword.ne (hrest hwords) separator,
        fun _ => List.append_ne_nil_of_left_ne_nil hword.ne _⟩

end NestStorageExample.Text
