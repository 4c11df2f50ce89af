import NestStorageExample.Runs.Guarded

/-! Promises that are awaited together: they settle in any order, the first rejection settles
the promise of all, and its values stand in the order of the promises. -/
namespace NestStorageExample.Runs
variable {E A : Type}

/-- What has become of each promise, and of the promise of all. -/
structure Gathering (E A : Type) where
  slots : List (Option (Except E A))
  outcome : Option (Except E (List A))

def rejection : Except E A → Option E
  | .error e => some e
  | .ok _ => none

/-- The first rejection of a run. -/
def firstRejection (events : List (Nat × Except E A)) : Option E := events.findSome? (fun e => rejection e.2)

/-- The values, once every promise has resolved. -/
def allValues : List (Option (Except E A)) → Option (List A)
  | [] => some []
  | some (.ok a) :: slots => (allValues slots).map (a :: ·)
  | _ :: _ => none

theorem allValues_eq_some_iff {slots : List (Option (Except E A))} {values : List A} :
    allValues slots = some values ↔ slots = values.map (fun a => some (.ok a)) := by
  induction slots generalizing values with
  | nil => cases values <;> simp [allValues]
  | cons slot slots ih =>
    rcases slot with _ | e | a
    · cases values <;> simp [allValues]
    · cases values <;> simp [allValues]
    · rw [allValues, Option.map_eq_some_iff]
      cases values with
      | nil => simp
      | cons b values =>
        simp only [List.cons.injEq, List.map_cons, Option.some.injEq, Except.ok.injEq, exists_eq_right_right, ih]
        exact and_comm

theorem not_resolved_of_allValues {slots : List (Option (Except E A))} (h : allValues slots = none) :
    ∃ slot ∈ slots, ∀ a, slot ≠ some (.ok a) := by
  induction slots with
  | nil => cases h
  | cons slot slots ih =>
    rcases slot with _ | e | a
    · exact ⟨none, List.mem_cons_self, by simp⟩
    · exact ⟨_, List.mem_cons_self, by simp⟩
    · rw [allValues, Option.map_eq_none_iff] at h
      obtain ⟨slot, hmem, hslot⟩ := ih h
      exact ⟨slot, List.mem_cons_of_mem _ hmem, hslot⟩

namespace Gathering

def start (n : Nat) : Gathering E A :=
  let slots := List.replicate n none
  ⟨slots, (allValues slots).map .ok⟩

/-- A promise settles, once. -/
def settle (s : Gathering E A) (e : Nat × Except E A) : Option (Gathering E A) :=
  match s.slots[e.1]? with
  | some none =>
    let slots := s.slots.set e.1 (some e.2)
    some ⟨slots, s.outcome.or (((rejection e.2).map .error).or ((allValues slots).map .ok))⟩
  | _ => none

/-- What a gathering has become once these promises have settled. -/
structure Told (n : Nat) (events : List (Nat × Except E A)) (s : Gathering E A) : Prop where
  length : s.slots.length = n
  slot : ∀ i result, s.slots[i]? = some (some result) ↔ (i, result) ∈ events
  outcome : s.outcome = ((firstRejection events).map .error).or ((allValues s.slots).map .ok)

theorem told_start (n : Nat) : Told n [] (start n : Gathering E A) := by
  refine ⟨List.length_replicate, ?_, by simp [start, firstRejection]⟩
  intro i result
  simp [start, List.getElem?_replicate]

theorem settle_cases {s s' : Gathering E A} {e : Nat × Except E A} (h : s.settle e = some s') :
    s.slots[e.1]? = some none ∧ s'.slots = s.slots.set e.1 (some e.2) ∧
      s'.outcome = s.outcome.or (((rejection e.2).map .error).or ((allValues s'.slots).map .ok)) := by
  rw [settle] at h
  split at h
  · rename_i hslot
    cases h
    exact ⟨hslot, rfl, rfl⟩
  · cases h

theorem Told.settle {n : Nat} {events : List (Nat × Except E A)} {s s' : Gathering E A} {e : Nat × Except E A}
    (hs : Told n events s) (h : s.settle e = some s') : Told n (events ++ [e]) s' := by
  obtain ⟨hopen, hslots, houtcome⟩ := settle_cases h
  have hwaits : allValues s.slots = none := by
    cases hvalues : allValues s.slots with
    | none => rfl
    | some values =>
      rw [allValues_eq_some_iff.mp hvalues, List.getElem?_map, Option.map_eq_some_iff] at hopen
      obtain ⟨a, -, ha⟩ := hopen
      cases ha
  refine ⟨by rw [hslots, List.length_set, hs.length], ?_, ?_⟩
  · intro i result
    have hlt : e.1 < s.slots.length := (List.getElem?_eq_some_iff.mp hopen).1
    obtain ⟨j, settled⟩ := e
    rw [hslots, List.getElem?_set, List.mem_append, List.mem_singleton, Prod.mk.injEq, ← hs.slot]
    by_cases hij : j = i
    · subst hij
      rw [if_pos rfl, if_pos hlt, hopen]
      simp [eq_comm]
    · simp [hij, Ne.symm hij]
  · rw [houtcome, hs.outcome, hwaits, firstRejection, firstRejection, List.findSome?_append]
    cases List.findSome? (fun e => rejection e.2) events with
    | some error => rfl
    | none => simp

theorem Told.run {n : Nat} {before events : List (Nat × Except E A)} {s s' : Gathering E A} (hs : Told n before s)
    (h : Runs.run Gathering.settle s events = some s') : Told n (before ++ events) s' := by
  induction events generalizing before s with
  | nil =>
    cases h
    simpa using hs
  | cons e events ih =>
    obtain ⟨s1, h1, hrun⟩ := Option.bind_eq_some_iff.mp h
    simpa using ih (hs.settle h1) hrun

/-- Each promise settles at most once, and all orders of that are runs. -/
theorem run_isSome_iff {s : Gathering E A} {events : List (Nat × Except E A)} :
    (Runs.run Gathering.settle s events).isSome ↔
      (events.map Prod.fst).Nodup ∧ ∀ e ∈ events, s.slots[e.1]? = some none := by
  induction events generalizing s with
  | nil => simp [Runs.run]
  | cons e events ih =>
    rw [Runs.run, List.map_cons, List.nodup_cons, List.forall_mem_cons]
    cases h : s.settle e with
    | none =>
      have hclosed : s.slots[e.1]? ≠ some none := by
        intro hopen
        simp [Gathering.settle, hopen] at h
      simp [hclosed]
    | some s1 =>
      obtain ⟨hopen, hslots, -⟩ := settle_cases h
      have hlt := (List.getElem?_eq_some_iff.mp hopen).1
      have hset (i : Nat) : s1.slots[i]? = some none ↔ i ≠ e.1 ∧ s.slots[i]? = some none := by
        rw [hslots, List.getElem?_set]
        by_cases hi : e.1 = i
        · simp [hi, hi ▸ hlt]
        · simp [hi, Ne.symm hi]
      rw [Option.bind_some, ih]
      simp only [hset, hopen, List.mem_map, not_exists, not_and, true_and]
      constructor
      · rintro ⟨hnodup, hall⟩
        exact ⟨⟨fun e' he' heq => (hall e' he').1 heq, hnodup⟩, fun e' he' => (hall e' he').2⟩
      · rintro ⟨⟨hfresh, hnodup⟩, hall⟩
        exact ⟨hnodup, fun e' he' => ⟨hfresh e' he', hall e' he'⟩⟩

theorem Perm.run_isSome {n : Nat} {events events' : List (Nat × Except E A)} (hperm : events.Perm events')
    (h : (Runs.run Gathering.settle (start n) events).isSome) :
    (Runs.run Gathering.settle (start n) events').isSome := by
  obtain ⟨hnodup, hopen⟩ := run_isSome_iff.mp h
  exact run_isSome_iff.mpr ⟨(hperm.map Prod.fst).nodup_iff.mp hnodup, fun e he => hopen e (hperm.mem_iff.mpr he)⟩

/-- Whatever the order of the promises is, what has become of all is told by what has become of each. -/
theorem told {n : Nat} {events : List (Nat × Except E A)} {s : Gathering E A}
    (h : Runs.run Gathering.settle (start n) events = some s) : Told n events s := by
  simpa using (told_start n).run h

section Outcome
variable {n : Nat} {events : List (Nat × Except E A)} {s : Gathering E A}

theorem mem_of_firstRejection {e : E} (h : firstRejection events = some e) : ∃ i, (i, .error e) ∈ events := by
  obtain ⟨⟨i, result⟩, hmem, hresult⟩ := List.exists_of_findSome?_eq_some h
  cases result with
  | error e' =>
    cases hresult
    exact ⟨i, hmem⟩
  | ok a => cases hresult

/-- All resolve with these values, which stand in the order of the promises. -/
theorem Told.ok_iff (h : Told n events s) {values : List A} : s.outcome = some (.ok values) ↔
    values.length = n ∧ ∀ i a, values[i]? = some a → (i, .ok a) ∈ events := by
  rw [h.outcome]
  constructor
  · intro hok
    cases hfirst : firstRejection events with
    | some e => simp [hfirst] at hok
    | none =>
      rw [hfirst, Option.map_none, Option.none_or, Option.map_eq_some_iff] at hok
      obtain ⟨values', hvalues, hsame⟩ := hok
      cases hsame
      have hslots := allValues_eq_some_iff.mp hvalues
      refine ⟨by rw [← h.length, hslots, List.length_map], fun i a ha => (h.slot i _).mp ?_⟩
      rw [hslots, List.getElem?_map, ha]
      rfl
  · rintro ⟨hlength, hvalues⟩
    have hslots : s.slots = values.map (fun a => some (.ok a)) := by
      apply List.ext_getElem?
      intro i
      rw [List.getElem?_map]
      cases hi : values[i]? with
      | none =>
        rw [List.getElem?_eq_none_iff] at hi
        exact List.getElem?_eq_none (by rw [h.length, ← hlength]; exact hi)
      | some a => exact (h.slot i _).mpr (hvalues i a hi)
    have hfirst : firstRejection events = none := by
      cases hfirst : firstRejection events with
      | none => rfl
      | some e =>
        obtain ⟨i, hmem⟩ := mem_of_firstRejection hfirst
        have hslot := (h.slot i _).mpr hmem
        rw [hslots, List.getElem?_map, Option.map_eq_some_iff] at hslot
        obtain ⟨a, -, ha⟩ := hslot
        cases ha
    rw [hfirst, allValues_eq_some_iff.mpr hslots]
    rfl

theorem Told.error_iff (h : Told n events s) {e : E} :
    s.outcome = some (.error e) ↔ firstRejection events = some e := by
  rw [h.outcome]
  cases firstRejection events with
  | some e' => simp
  | none => simp

/-- It stays open as long as none rejects and one of them is open. -/
theorem Told.none_iff (h : Told n events s) : s.outcome = none ↔
    firstRejection events = none ∧ ∃ i < n, ∀ result, (i, result) ∉ events := by
  rw [h.outcome, Option.or_eq_none_iff, Option.map_eq_none_iff, Option.map_eq_none_iff]
  apply and_congr_right
  intro hfirst
  constructor
  · intro hvalues
    obtain ⟨slot, hslot, hopen⟩ := not_resolved_of_allValues hvalues
    obtain ⟨i, hlt, rfl⟩ := List.mem_iff_getElem.mp hslot
    refine ⟨i, h.length ▸ hlt, fun result hmem => ?_⟩
    have hsettled := (h.slot i result).mpr hmem
    rw [List.getElem?_eq_getElem hlt, Option.some.injEq] at hsettled
    cases result with
    | ok a => exact hopen a hsettled
    | error e =>
      have hnone := List.findSome?_eq_none_iff.mp hfirst _ hmem
      cases hnone
  · rintro ⟨i, hlt, hopen⟩
    cases hvalues : allValues s.slots with
    | none => rfl
    | some values =>
      have hslots := allValues_eq_some_iff.mp hvalues
      have hlength : i < values.length := by rw [← h.length, hslots, List.length_map] at hlt; exact hlt
      refine absurd ((h.slot i (.ok values[i])).mp ?_) (hopen _)
      rw [hslots, List.getElem?_map, List.getElem?_eq_getElem hlength]
      rfl

/-- Where none rejects, the order in which they settle does not matter. -/
theorem Told.perm {events' : List (Nat × Except E A)} {s' : Gathering E A} (h : Told n events s)
    (h' : Told n events' s') (hperm : events.Perm events') (hnone : firstRejection events = none) :
    s'.outcome = s.outcome := by
  have hnone' : firstRejection events' = none := by
    rw [firstRejection, List.findSome?_eq_none_iff] at hnone ⊢
    exact fun e he => hnone e (hperm.mem_iff.mpr he)
  cases houtcome : s.outcome with
  | none =>
    obtain ⟨-, i, hi, hopen⟩ := h.none_iff.mp houtcome
    exact h'.none_iff.mpr ⟨hnone', i, hi, fun result hmem => hopen result (hperm.mem_iff.mpr hmem)⟩
  | some outcome =>
    cases outcome with
    | error e => exact absurd (h.error_iff.mp houtcome) (by simp [hnone])
    | ok values =>
      obtain ⟨hlength, hvalues⟩ := h.ok_iff.mp houtcome
      exact h'.ok_iff.mpr ⟨hlength, fun i a ha => hperm.mem_iff.mp (hvalues i a ha)⟩

end Outcome

end Gathering

end NestStorageExample.Runs
