import Mathlib.Data.Set.Basic
import Mathlib.Tactic.Common

/-! Requests served one after another, and the things that they open and end: what is live
after a run is told from the history of the answers alone. -/
namespace NestStorageExample.Runs
variable {W Q A T : Type}

section Journal
variable (serve : Q → W → A × W)

/-- The requests with their answers, and the world they leave. -/
def journal : List Q → W → List (Q × A) × W
  | [], w => ([], w)
  | request :: requests, w =>
    ((request, (serve request w).1) :: (journal requests (serve request w).2).1,
      (journal requests (serve request w).2).2)

@[simp] theorem journal_nil (w : W) : journal serve [] w = ([], w) := rfl

@[simp] theorem journal_cons (request : Q) (requests : List Q) (w : W) : journal serve (request :: requests) w =
    ((request, (serve request w).1) :: (journal serve requests (serve request w).2).1,
      (journal serve requests (serve request w).2).2) := rfl

variable {serve}

/-- A history that is cut at an entry cuts the run there. -/
theorem journal_split {requests : List Q} {w : W} {before after : List (Q × A)} {entry : Q × A}
    (h : (journal serve requests w).1 = before ++ entry :: after) : ∃ earlier later w₁,
      journal serve earlier w = (before, w₁) ∧ (serve entry.1 w₁).1 = entry.2 ∧
      journal serve later (serve entry.1 w₁).2 = (after, (journal serve requests w).2) := by
  induction before generalizing requests w with
  | nil =>
    cases requests with
    | nil => cases h
    | cons request requests =>
      obtain ⟨rfl, rfl⟩ := List.cons.inj h
      exact ⟨[], requests, w, rfl, rfl, rfl⟩
  | cons first before ih =>
    cases requests with
    | nil => cases h
    | cons request requests =>
      obtain ⟨rfl, hrest⟩ := List.cons.inj h
      obtain ⟨earlier, later, w₁, hearlier, hentry, hlater⟩ := ih hrest
      refine ⟨request :: earlier, later, w₁, ?_, hentry, hlater⟩
      rw [journal_cons, hearlier]

end Journal

/-- A service whose answers open and end things: `opens` where an answer may have opened
one, `ends` where it has ended it, and `touches` where it may have. -/
structure Ledger (W Q A T : Type) where
  serve : Q → W → A × W
  live : W → Set T
  issued : W → Set T
  opens : Q → A → T → Prop
  ends : Q → A → T → Prop
  touches : Q → A → T → Prop

/-- What is opened is new, and nothing is live twice. -/
structure Ledger.Lawful (l : Ledger W Q A T) : Prop where
  born : ∀ request w t, t ∈ l.live (l.serve request w).2 →
    t ∈ l.live w ∨ l.opens request (l.serve request w).1 t ∧ t ∉ l.issued w
  ended : ∀ request w t, l.ends request (l.serve request w).1 t → t ∉ l.live (l.serve request w).2
  kept : ∀ request w t, t ∈ l.live w → ¬ l.touches request (l.serve request w).1 t → t ∈ l.live (l.serve request w).2
  issued_kept : ∀ request w, l.issued w ⊆ l.issued (l.serve request w).2
  live_issued : ∀ w, l.live w ⊆ l.issued w

namespace Ledger
variable {l : Ledger W Q A T} {requests : List Q} {w : W} {t : T}

/-- What is live after a run was so before or has been opened, and nothing has ended it since. -/
theorem Lawful.live_accounted (h : l.Lawful) (ht : t ∈ l.live (journal l.serve requests w).2) :
    (t ∈ l.live w ∧ ∀ entry ∈ (journal l.serve requests w).1, ¬ l.ends entry.1 entry.2 t) ∨
      ∃ before entry after, (journal l.serve requests w).1 = before ++ entry :: after ∧
        l.opens entry.1 entry.2 t ∧ ∀ entry ∈ after, ¬ l.ends entry.1 entry.2 t := by
  induction requests generalizing w with
  | nil => exact Or.inl ⟨ht, by simp⟩
  | cons request requests ih =>
    rcases ih ht with ⟨hlive, hends⟩ | ⟨before, entry, after, hsplit, hopens, hends⟩
    · have hfirst : ¬ l.ends request (l.serve request w).1 t := fun he => h.ended request w t he hlive
      rcases h.born request w t hlive with hbefore | ⟨hopens, -⟩
      · exact Or.inl ⟨hbefore, by simpa using ⟨hfirst, fun q a hqa => hends (q, a) hqa⟩⟩
      · exact Or.inr ⟨[], _, _, rfl, hopens, hends⟩
    · exact Or.inr ⟨_ :: before, entry, after, by rw [journal_cons, hsplit]; rfl, hopens, hends⟩

/-- What no entry touches stays live. -/
theorem Lawful.live_kept (h : l.Lawful) (ht : t ∈ l.live w)
    (htouches : ∀ entry ∈ (journal l.serve requests w).1, ¬ l.touches entry.1 entry.2 t) :
    t ∈ l.live (journal l.serve requests w).2 := by
  induction requests generalizing w with
  | nil => exact ht
  | cons request requests ih =>
    rw [journal_cons] at htouches
    obtain ⟨hfirst, hrest⟩ := List.forall_mem_cons.mp htouches
    exact ih (h.kept request w t ht hfirst) hrest

/-- What has been issued and is not live never comes back. -/
theorem Lawful.dead_forever (h : l.Lawful) (hissued : t ∈ l.issued w) (ht : t ∉ l.live w) :
    t ∉ l.live (journal l.serve requests w).2 := by
  induction requests generalizing w with
  | nil => exact ht
  | cons request requests ih =>
    refine ih (h.issued_kept request w hissued) (fun hlive => ?_)
    rcases h.born request w t hlive with hbefore | ⟨-, hnew⟩
    · exact ht hbefore
    · exact hnew hissued

theorem Lawful.issued_run (h : l.Lawful) (hissued : t ∈ l.issued w) : t ∈ l.issued (journal l.serve requests w).2 := by
  induction requests generalizing w with
  | nil => exact hissued
  | cons request requests ih => exact ih (h.issued_kept request w hissued)

/-- An end that follows an opening is one for good. -/
theorem Lawful.ended_forever (h : l.Lawful) {before after : List (Q × A)} {opening ending : Q × A}
    (hsplit : (journal l.serve requests w).1 = before ++ opening :: after)
    (hopening : ∀ w₁, (l.serve opening.1 w₁).1 = opening.2 → t ∈ l.live (l.serve opening.1 w₁).2)
    (hending : ending ∈ after) (hends : l.ends ending.1 ending.2 t) : t ∉ l.live (journal l.serve requests w).2 := by
  obtain ⟨earlier, later, w₁, -, hopened, hrun⟩ := journal_split hsplit
  obtain ⟨between, rest, rfl⟩ := List.mem_iff_append.mp hending
  have hissued := h.live_issued _ (hopening w₁ hopened)
  have hcut : (journal l.serve later (l.serve opening.1 w₁).2).1 = between ++ ending :: rest := congrArg Prod.fst hrun
  obtain ⟨earlier', later', w₂, hearlier, hended, hlater⟩ := journal_split hcut
  have hissued₂ : t ∈ l.issued (journal l.serve earlier' (l.serve opening.1 w₁).2).2 := h.issued_run hissued
  rw [hearlier] at hissued₂
  have hdead := h.ended ending.1 w₂ t (by rwa [hended])
  have hfinal : t ∉ l.live (journal l.serve later' (l.serve ending.1 w₂).2).2 :=
    h.dead_forever (h.issued_kept ending.1 w₂ hissued₂) hdead
  rw [hlater, hrun] at hfinal
  exact hfinal

/-- What an entry opened and no later one touches is live. -/
theorem Lawful.opened_kept (h : l.Lawful) {before after : List (Q × A)} {opening : Q × A}
    (hsplit : (journal l.serve requests w).1 = before ++ opening :: after)
    (hopening : ∀ w₁, (l.serve opening.1 w₁).1 = opening.2 → t ∈ l.live (l.serve opening.1 w₁).2)
    (htouches : ∀ entry ∈ after, ¬ l.touches entry.1 entry.2 t) : t ∈ l.live (journal l.serve requests w).2 := by
  obtain ⟨earlier, later, w₁, -, hopened, hrun⟩ := journal_split hsplit
  have hkept : t ∈ l.live (journal l.serve later (l.serve opening.1 w₁).2).2 :=
    h.live_kept (hopening w₁ hopened) (by rwa [hrun])
  rwa [hrun] at hkept

end Ledger

end NestStorageExample.Runs
