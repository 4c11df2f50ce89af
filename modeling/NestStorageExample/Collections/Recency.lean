import Mathlib.Data.Finset.Card
import Mathlib.Data.List.Nodup

/-! Least recently used, in its own terms: a history of uses, newest first, the order
of recency it leaves, and who is among the `n` most recent. -/
namespace NestStorageExample.Collections
variable {κ : Type} [DecidableEq κ]

/-- The ids used, each once, the most recently used first. -/
def recency : List κ → List κ
  | [] => []
  | k :: uses => k :: (recency uses).filter (· ≠ k)

/-- The distinct other ids used since `k` was. -/
def usedSince (k : κ) (uses : List κ) : Finset κ := (uses.takeWhile (· ≠ k)).toFinset

theorem mem_recency_iff (k : κ) (uses : List κ) : k ∈ recency uses ↔ k ∈ uses := by
  induction uses with
  | nil => rfl
  | cons k' uses ih =>
    rw [recency, List.mem_cons, List.mem_cons, List.mem_filter, ih]
    by_cases h : k = k' <;> simp [h]

theorem recency_nodup (uses : List κ) : (recency uses).Nodup := by
  induction uses with
  | nil => exact List.nodup_nil
  | cons k uses ih => exact List.nodup_cons.mpr ⟨by simp, ih.filter _⟩

private theorem takeWhile_filter_toFinset {k k' : κ} (h : k' ≠ k) (l : List κ) :
    ((l.filter (· ≠ k')).takeWhile (· ≠ k)).toFinset = (l.takeWhile (· ≠ k)).toFinset.erase k' := by
  induction l with
  | nil => rfl
  | cons c l ih =>
    by_cases hk : c = k
    · simp [hk, Ne.symm h]
    · by_cases hk' : c = k'
      · subst hk'
        simp only [ne_eq, decide_not] at ih
        simp [hk, ih]
      · simp only [ne_eq, decide_not] at ih
        simp [hk, hk', ih, Finset.erase_insert_of_ne hk']

/-- What stands before `k` in the order of recency is what was used since `k`. -/
theorem recency_takeWhile (k : κ) (uses : List κ) :
    ((recency uses).takeWhile (· ≠ k)).toFinset = usedSince k uses := by
  induction uses with
  | nil => rfl
  | cons k' uses ih =>
    by_cases h : k' = k
    · simp [recency, usedSince, h]
    · have hstep := takeWhile_filter_toFinset h (recency uses)
      rw [ih] at hstep
      simp only [ne_eq, decide_not, usedSince] at hstep
      have hinsert (s : Finset κ) : insert k' (s.erase k') = insert k' s := by
        ext c
        by_cases hc : c = k' <;> simp [hc]
      simp [recency, usedSince, h, hstep, hinsert]

private theorem mem_take_iff (k : κ) (n : Nat) (l : List κ) :
    k ∈ l.take n ↔ k ∈ l ∧ (l.takeWhile (· ≠ k)).length < n := by
  induction l generalizing n with
  | nil => simp
  | cons c l ih =>
    cases n with
    | zero => simp
    | succ n =>
      rw [List.take_succ_cons, List.mem_cons, List.mem_cons, ih]
      by_cases h : c = k
      · simp [h]
      · simp [h, Ne.symm h]

/-- An id is among the `n` most recent exactly when it was used and fewer than `n`
distinct others were used since. -/
theorem mem_take_recency_iff (k : κ) (n : Nat) (uses : List κ) :
    k ∈ (recency uses).take n ↔ k ∈ uses ∧ (usedSince k uses).card < n := by
  have hnodup : ((recency uses).takeWhile (· ≠ k)).Nodup :=
    (recency_nodup uses).sublist (List.takeWhile_sublist _)
  rw [mem_take_iff, mem_recency_iff, ← recency_takeWhile, List.toFinset_card_of_nodup hnodup]

theorem take_recency_fresh {k : κ} {uses : List κ} (h : k ∉ uses) (n : Nat) :
    (recency (k :: uses)).take n = (k :: (recency uses).take n).take n := by
  have hfilter : (recency uses).filter (· ≠ k) = recency uses := by
    apply List.filter_eq_self.mpr
    intro c hc
    have : c ≠ k := fun he => h (he ▸ (mem_recency_iff c uses).mp hc)
    simpa using this
  rw [recency, hfilter]
  cases n with
  | zero => rfl
  | succ n => rw [List.take_succ_cons, List.take_succ_cons, List.take_take, Nat.min_eq_left (Nat.le_succ n)]

private theorem filter_take {k : κ} {n : Nat} {l : List κ} (hl : l.Nodup) (hk : k ∈ l.take (n + 1)) :
    (l.take (n + 1)).filter (· ≠ k) = (l.filter (· ≠ k)).take n := by
  induction l generalizing n with
  | nil => simp at hk
  | cons c l ih =>
    rw [List.nodup_cons] at hl
    rw [List.take_succ_cons] at hk ⊢
    by_cases h : c = k
    · subst h
      have hself (m : List κ) (hm : c ∉ m) : m.filter (· ≠ c) = m := by
        apply List.filter_eq_self.mpr
        intro d hd
        have : d ≠ c := fun he => hm (he ▸ hd)
        simpa using this
      have hout : c ∉ l.take n := fun hc => hl.1 (List.mem_of_mem_take hc)
      rw [List.filter_cons_of_neg (by simp), List.filter_cons_of_neg (by simp), hself _ hl.1, hself _ hout]
    · rw [List.filter_cons_of_pos (by simpa using h), List.filter_cons_of_pos (by simpa using h)]
      have hk' := (List.mem_cons.mp hk).resolve_left (Ne.symm h)
      cases n with
      | zero => simp at hk'
      | succ n => rw [ih hl.2 hk', List.take_succ_cons]

/-- Using one of the `n + 1` most recent again moves it to the front of them. -/
theorem take_recency_touch {k : κ} {n : Nat} {uses : List κ} (h : k ∈ (recency uses).take (n + 1)) :
    (recency (k :: uses)).take (n + 1) = k :: ((recency uses).take (n + 1)).filter (· ≠ k) := by
  rw [recency, List.take_succ_cons, filter_take (recency_nodup uses) h]

end NestStorageExample.Collections
