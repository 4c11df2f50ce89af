import Mathlib.Tactic.Common

/-! `while` loops, run for a number of rounds at most, and the rules to reason about them: a
variant for the end, an invariant for the state they end in. -/
namespace NestStorageExample.Runs
variable {S : Type}

/-- `while (cond) body`; `none` when it has not ended after that many rounds. -/
def whileLoop (cond : S → Bool) (body : S → S) : Nat → S → Option S
  | 0, s => if cond s then none else some s
  | rounds + 1, s => if cond s then whileLoop cond body rounds (body s) else some s

variable {cond : S → Bool} {body : S → S} {rounds : Nat} {s s' : S}

/-- A loop ends within as many rounds as its variant says. -/
theorem whileLoop_ends (variant : S → Nat) (hbody : ∀ s, cond s = true → variant (body s) < variant s)
    (h : variant s ≤ rounds) : ∃ s', whileLoop cond body rounds s = some s' := by
  induction rounds generalizing s with
  | zero =>
    rw [whileLoop]
    split
    · rename_i hcond
      have := hbody s hcond
      omega
    · exact ⟨s, rfl⟩
  | succ rounds ih =>
    rw [whileLoop]
    split
    · rename_i hcond
      have := hbody s hcond
      exact ih (by omega)
    · exact ⟨s, rfl⟩

/-- Where a loop ends, its invariant holds and its condition does not. -/
theorem whileLoop_invariant {inv : S → Prop} (hbody : ∀ s, inv s → cond s = true → inv (body s)) (hs : inv s)
    (h : whileLoop cond body rounds s = some s') : inv s' ∧ cond s' = false := by
  have hstop {s : S} (hs : inv s) (hcond : ¬ cond s = true) (h : some s = some s') :
      inv s' ∧ cond s' = false := by
    cases h
    exact ⟨hs, Bool.eq_false_iff.mpr hcond⟩
  induction rounds generalizing s with
  | zero =>
    rw [whileLoop] at h
    split at h
    · cases h
    · exact hstop hs ‹_› h
  | succ rounds ih =>
    rw [whileLoop] at h
    split at h
    · exact ih (hbody s hs ‹_›) h
    · exact hstop hs ‹_› h

end NestStorageExample.Runs
