import Mathlib.Data.Finset.Card
import Mathlib.Order.RelClasses
import Mathlib.Tactic.Common

/-! Reading a finite set page by page in a strict order: each page is an ascending
initial segment of what lies after the bound, and moves the bound to its last key. -/
namespace NestStorageExample.Collections
variable {κ : Type} (before : κ → κ → Prop)

/-- `k` lies after the bound; everything does when there is none. -/
def After (bound : Option κ) (k : κ) : Prop := ∀ b ∈ bound, before b k

/-- `page` is how the keys of `U` after `bound` begin, in order. -/
structure IsPage (U : Set κ) (bound : Option κ) (page : List κ) : Prop where
  ascending : page.Pairwise before
  within : ∀ k ∈ page, k ∈ U ∧ After before bound k
  initial : ∀ k ∈ U, After before bound k → k ∉ page → ∀ p ∈ page, before p k

def nextBound (bound : Option κ) (page : List κ) : Option κ := page.getLast?.or bound

variable {before} {U : Set κ} {bound : Option κ} {page : List κ}

/-- Only the keys after the bound matter to a page. -/
theorem IsPage.congr {V : Set κ} (h : IsPage before U bound page)
    (hUV : ∀ k, After before bound k → (k ∈ U ↔ k ∈ V)) : IsPage before V bound page where
  ascending := h.ascending
  within k hk := ⟨(hUV k (h.within k hk).2).mp (h.within k hk).1, (h.within k hk).2⟩
  initial k hk hafter := h.initial k ((hUV k hafter).mpr hk) hafter

private theorem ascending_le_last {p : κ} (h : page.Pairwise before) (hp : page.getLast? = some p) {k : κ}
    (hk : k ∈ page) : k = p ∨ before k p := by
  obtain ⟨init, rfl⟩ := List.getLast?_eq_some_iff.mp hp
  rcases List.mem_append.mp hk with hk | hk
  · exact Or.inr ((List.pairwise_append.mp h).2.2 k hk p (List.mem_singleton_self p))
  · exact Or.inl (List.mem_singleton.mp hk)

private theorem mem_drop_iff {keys : List κ} (hmem : ∀ k, k ∈ keys ↔ k ∈ U ∧ After before bound k)
    (hnodup : keys.Nodup) (n : ℕ) (k : κ) : k ∈ keys.drop n ↔ k ∈ U ∧ After before bound k ∧ k ∉ keys.take n := by
  have hsplit := List.take_append_drop n keys
  rw [← and_assoc, ← hmem k]
  constructor
  · intro hk
    refine ⟨List.mem_of_mem_drop hk, fun htake => ?_⟩
    rw [← hsplit] at hnodup
    exact (List.nodup_append.mp hnodup).2.2 k htake k hk rfl
  · rintro ⟨hk, hnot⟩
    rw [← hsplit] at hk
    exact (List.mem_append.mp hk).resolve_left hnot

variable [IsStrictTotalOrder κ before]

private theorem nodup_of_ascending (h : page.Pairwise before) : page.Nodup := by
  refine List.Pairwise.imp ?_ h
  rintro a b hab rfl
  exact irrefl_of before a hab

/-- A cut through the ascending list of what lies after the bound gives a page, -/
theorem isPage_take {keys : List κ} (hkeys : keys.Pairwise before)
    (hmem : ∀ k, k ∈ keys ↔ k ∈ U ∧ After before bound k) (n : ℕ) : IsPage before U bound (keys.take n) where
  ascending := hkeys.sublist (List.take_sublist n keys)
  within k hk := (hmem k).mp (List.mem_of_mem_take hk)
  initial k hk hafter hnot p hp := by
    have hdrop := (mem_drop_iff hmem (nodup_of_ascending hkeys) n k).mpr ⟨hk, hafter, hnot⟩
    rw [← List.take_append_drop n keys] at hkeys
    exact (List.pairwise_append.mp hkeys).2.2 p hp k hdrop

/-- and leaves a rest exactly when something after the bound is not on it. -/
theorem drop_ne_nil_iff {keys : List κ} (hkeys : keys.Pairwise before)
    (hmem : ∀ k, k ∈ keys ↔ k ∈ U ∧ After before bound k) (n : ℕ) :
    keys.drop n ≠ [] ↔ ∃ k ∈ U, After before bound k ∧ k ∉ keys.take n := by
  rw [ne_eq, List.eq_nil_iff_forall_not_mem, not_forall_not]
  exact exists_congr (mem_drop_iff hmem (nodup_of_ascending hkeys) n)

theorem IsPage.nodup (h : IsPage before U bound page) : page.Nodup := nodup_of_ascending h.ascending

/-- The bound only moves up. -/
theorem IsPage.after_of_after_next (h : IsPage before U bound page) {k : κ}
    (hk : After before (nextBound bound page) k) : After before bound k := by
  cases hlast : page.getLast? with
  | none => rwa [nextBound, hlast, Option.none_or] at hk
  | some p =>
    intro b hb
    have hp := h.within p (List.mem_of_getLast? hlast)
    exact trans_of before (hp.2 b hb) (hk p (by rw [nextBound, hlast]; rfl))

/-- What lies after the new bound is what lay after the old one and was not on the page. -/
theorem IsPage.after_next_iff (h : IsPage before U bound page) {k : κ} (hk : k ∈ U) :
    After before (nextBound bound page) k ↔ After before bound k ∧ k ∉ page := by
  cases hlast : page.getLast? with
  | none =>
    rw [List.getLast?_eq_none_iff.mp hlast]
    simp [nextBound]
  | some p =>
    have hp := List.mem_of_getLast? hlast
    constructor
    · intro hafter
      refine ⟨h.after_of_after_next hafter, fun hmem => ?_⟩
      have hpk : before p k := hafter p (by rw [nextBound, hlast]; rfl)
      rcases ascending_le_last h.ascending hlast hmem with rfl | hkp
      · exact irrefl_of before k hpk
      · exact irrefl_of before k (trans_of before hkp hpk)
    · rintro ⟨hafter, hnot⟩ b hb
      rw [nextBound, hlast, Option.some_or, Option.mem_some_iff] at hb
      subst hb
      exact h.initial k hk hafter hnot p hp

end NestStorageExample.Collections
