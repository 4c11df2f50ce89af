import NestStorageExample.Collections.Paging

/-! Paging through a set that others change between the pages: what the pages show
together, and which keys they can have missed. -/
namespace NestStorageExample.Collections
variable {κ : Type} (before : κ → κ → Prop)

/-- Pages read one after another, each of the set as it was then and from where the one
before it stopped. -/
inductive PagesRead : Option κ → List (Set κ × List κ) → Option κ → Prop where
  | nil (bound : Option κ) : PagesRead bound [] bound
  | cons {bound last : Option κ} {U : Set κ} {page : List κ} {reads : List (Set κ × List κ)} :
    IsPage before U bound page → PagesRead (nextBound bound page) reads last →
      PagesRead bound ((U, page) :: reads) last

/-- The keys on the pages, in the order they were read. -/
def shown (reads : List (Set κ × List κ)) : List κ := reads.flatMap Prod.snd

variable {before} {bound last : Option κ} {reads : List (Set κ × List κ)} {k : κ}

/-- A page shows what was there when it was read. -/
theorem PagesRead.mem_read (h : PagesRead before bound reads last) : ∀ read ∈ reads, ∀ k ∈ read.2, k ∈ read.1 := by
  induction h with
  | nil => simp
  | @cons bound last U page reads hpage _ ih =>
    intro read hread k hk
    rcases List.mem_cons.mp hread with rfl | hread
    · exact (hpage.within k hk).1
    · exact ih read hread k hk

variable [IsStrictTotalOrder κ before]

/-- The bound passes the keys of a page and what it did not find in between. -/
theorem IsPage.passed {U : Set κ} {page : List κ} (h : IsPage before U bound page) (hk : After before bound k)
    (hnext : ¬ After before (nextBound bound page) k) : k ∈ page ∨ k ∉ U := by
  by_contra hnot
  rw [not_or, not_not] at hnot
  exact hnext ((h.after_next_iff hnot.2).mpr ⟨hk, hnot.1⟩)

theorem IsPage.not_after_next {U : Set κ} {page : List κ} (h : IsPage before U bound page) (hk : k ∈ page) :
    ¬ After before (nextBound bound page) k :=
  fun hafter => ((h.after_next_iff (h.within k hk).1).mp hafter).2 hk

namespace PagesRead

theorem after_of_after_last (h : PagesRead before bound reads last) (hk : After before last k) :
    After before bound k := by
  induction h with
  | nil => exact hk
  | cons hpage _ ih => exact hpage.after_of_after_next (ih hk)

/-- What is shown lies between the bounds, -/
theorem within (h : PagesRead before bound reads last) (hk : k ∈ shown reads) :
    After before bound k ∧ ¬ After before last k := by
  induction h with
  | nil => cases hk
  | cons hpage hrest ih =>
    rcases List.mem_append.mp hk with hk | hk
    · exact ⟨(hpage.within k hk).2, fun hlast => hpage.not_after_next hk (hrest.after_of_after_last hlast)⟩
    · exact ⟨hpage.after_of_after_next (ih hk).1, (ih hk).2⟩

/-- and ascends through all the pages, whatever was written between them. -/
theorem ascending (h : PagesRead before bound reads last) : (shown reads).Pairwise before := by
  induction h with
  | nil => exact List.Pairwise.nil
  | @cons bound last U page reads hpage hrest ih =>
    refine List.pairwise_append.mpr ⟨hpage.ascending, ih, ?_⟩
    intro a ha b hb
    cases hlast : page.getLast? with
    | none =>
      rw [List.getLast?_eq_none_iff.mp hlast] at ha
      cases ha
    | some p =>
      have hafter := (hrest.within hb).1 p (by rw [nextBound, hlast]; rfl)
      by_cases hap : a = p
      · exact hap ▸ hafter
      · obtain ⟨init, rfl⟩ := List.getLast?_eq_some_iff.mp hlast
        have hinit : a ∈ init := by
          rcases List.mem_append.mp ha with ha | ha
          · exact ha
          · exact absurd (List.mem_singleton.mp ha) hap
        exact trans_of before ((List.pairwise_append.mp hpage.ascending).2.2 a hinit p (by simp)) hafter

theorem nodup (h : PagesRead before bound reads last) : (shown reads).Nodup := h.ascending.imp ne_of_irrefl

/-- A key that was there for each page is shown when the bound passes it. -/
theorem shown_iff_of_lasting (h : PagesRead before bound reads last) (hk : ∀ read ∈ reads, k ∈ read.1) :
    k ∈ shown reads ↔ After before bound k ∧ ¬ After before last k := by
  induction h with
  | nil => simp [shown]
  | @cons bound last U page reads hpage hrest ih =>
    have hrest' := ih (fun read hread => hk read (List.mem_cons_of_mem _ hread))
    have hU : k ∈ U := hk (U, page) List.mem_cons_self
    rw [shown, List.flatMap_cons, List.mem_append, show k ∈ reads.flatMap Prod.snd ↔ _ from hrest',
      hpage.after_next_iff hU]
    constructor
    · rintro (hmem | ⟨⟨hafter, -⟩, hlast⟩)
      · exact ⟨(hpage.within k hmem).2, fun hlast => hpage.not_after_next hmem (hrest.after_of_after_last hlast)⟩
      · exact ⟨hafter, hlast⟩
    · rintro ⟨hafter, hlast⟩
      by_cases hmem : k ∈ page
      · exact Or.inl hmem
      · exact Or.inr ⟨⟨hafter, hmem⟩, hlast⟩

end PagesRead

end NestStorageExample.Collections
