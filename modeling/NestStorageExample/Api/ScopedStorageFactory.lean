import NestStorageExample.Collections.InsertionMap
import NestStorageExample.Runs.Guarded

/-! The factory of scoped storage instances: a cache of promised contexts, and shutdowns
that empty it before they wait for what it held. -/
namespace NestStorageExample.Api
open Collections Runs

/-- A call of `createApplicationContext`; `epoch` counts the shutdowns before it. -/
structure ContextBuild (Label : Type) where
  label : Label
  epoch : Nat
  deriving DecidableEq

/-- The two methods that hand out a service. -/
inductive ScopedFacade where
  | storage
  | signedUrls
  deriving DecidableEq, Repr

inductive ScopedOutcome where
  | waiting
  | resolved (context : Nat)
  | rejected
  deriving DecidableEq, Repr

/-- A call of `storage` or `signedUrls`, with the promise it awaits. -/
structure ScopedRequest (Label : Type) where
  facade : ScopedFacade
  label : Label
  epoch : Nat
  build : Option Nat
  outcome : ScopedOutcome
  deriving DecidableEq

/-- The cache, and what is in flight around it. A context is known by the number of its build. -/
structure ScopedStorageFactory (Label : Type) where
  contexts : InsertionMap Label Nat
  started : List (ContextBuild Label)
  built : List Nat
  failed : List Nat
  shutdowns : Nat
  /-- the callbacks of each shutdown that still await their context, and the `close` calls made -/
  awaiting : List (Nat × Nat)
  closes : List (Nat × Nat)
  requests : List (ScopedRequest Label)

/-- What can happen next: a call from outside, a build that settles, or a callback that goes on
because the promise it awaits has settled. -/
inductive ScopedEvent (Label : Type) where
  | request (facade : ScopedFacade) (label : Label) (forRootThrows : Bool)
  | buildResolved (id : Nat)
  | buildFailed (id : Nat)
  | requestResumed (index : Nat)
  | onApplicationShutdown
  | closerResumed (closer : Nat × Nat)

namespace ScopedStorageFactory
variable {Label : Type}

def initial : ScopedStorageFactory Label := ⟨.empty, [], [], [], 0, [], [], []⟩

def Pending (s : ScopedStorageFactory Label) (id : Nat) : Prop :=
  id < s.started.length ∧ id ∉ s.built ∧ id ∉ s.failed

instance (s : ScopedStorageFactory Label) (id : Nat) : Decidable (s.Pending id) :=
  inferInstanceAs (Decidable (_ ∧ _))

/-- No build is pending and no callback of a shutdown is left. -/
def Quiescent (s : ScopedStorageFactory Label) : Prop := (∀ id, ¬ s.Pending id) ∧ s.awaiting = []

variable [DecidableEq Label]

/-- `context(label, options)`: the cached promise, or a new build; a throw of `forRoot` caches nothing. -/
def context (s : ScopedStorageFactory Label) (label : Label) (forRootThrows : Bool) :
    ScopedStorageFactory Label × Option Nat :=
  match s.contexts.get label with
  | some existing => (s, some existing)
  | none =>
    if forRootThrows then (s, none)
    else ({ s with
        started := s.started ++ [⟨label, s.shutdowns⟩]
        contexts := s.contexts.set label s.started.length }, some s.started.length)

/-- `storage(label, …)` and `signedUrls(label, …)` up to their `await`. -/
def request (s : ScopedStorageFactory Label) (facade : ScopedFacade) (label : Label) (forRootThrows : Bool) :
    ScopedStorageFactory Label :=
  let (s', build) := s.context label forRootThrows
  { s' with requests := s'.requests ++
      [⟨facade, label, s.shutdowns, build, if build.isSome then .waiting else .rejected⟩] }

/-- The synchronous part: the snapshot of the cache, and a callback for each promise in it. -/
def onApplicationShutdown (s : ScopedStorageFactory Label) : ScopedStorageFactory Label :=
  { s with
    contexts := .empty
    shutdowns := s.shutdowns + 1
    awaiting := s.awaiting ++ s.contexts.entries.map (fun entry => (s.shutdowns, entry.2)) }

/-- The request goes on with the context, or with the build's rejection. -/
def resumed (s : ScopedStorageFactory Label) (r : ScopedRequest Label) : Option (ScopedRequest Label) :=
  match r.outcome, r.build with
  | .waiting, some id =>
    if id ∈ s.built then some { r with outcome := .resolved id }
    else if id ∈ s.failed then some { r with outcome := .rejected }
    else none
  | _, _ => none

/-- `(await pending).close()`; a failed build has nothing to close, and does not hold up the others. -/
def closerResumed (s : ScopedStorageFactory Label) (closer : Nat × Nat) : Option (ScopedStorageFactory Label) :=
  if closer ∈ s.awaiting then
    if closer.2 ∈ s.built then some { s with awaiting := s.awaiting.erase closer, closes := s.closes ++ [closer] }
    else if closer.2 ∈ s.failed then some { s with awaiting := s.awaiting.erase closer }
    else none
  else none

def next (s : ScopedStorageFactory Label) : ScopedEvent Label → Option (ScopedStorageFactory Label)
  | .request facade label forRootThrows => some (s.request facade label forRootThrows)
  | .buildResolved id => if s.Pending id then some { s with built := s.built ++ [id] } else none
  | .buildFailed id => if s.Pending id then some { s with failed := s.failed ++ [id] } else none
  | .requestResumed index =>
    (s.requests[index]?).bind fun r => (s.resumed r).map fun r' => { s with requests := s.requests.set index r' }
  | .onApplicationShutdown => some s.onApplicationShutdown
  | .closerResumed closer => s.closerResumed closer

/-- What ties the cache, the callbacks and the closes to the builds they came from. -/
structure Invariant (s : ScopedStorageFactory Label) : Prop where
  cached : ∀ label id, s.contexts.get label = some id ↔ s.started[id]? = some ⟨label, s.shutdowns⟩
  epochs : ∀ build ∈ s.started, build.epoch ≤ s.shutdowns
  started_nodup : s.started.Nodup
  waiting : ∀ n id, (n, id) ∈ s.awaiting → n < s.shutdowns ∧ ∃ label, s.started[id]? = some ⟨label, n⟩
  closed : ∀ n id, (n, id) ∈ s.closes → id ∈ s.built ∧ n < s.shutdowns ∧ ∃ label, s.started[id]? = some ⟨label, n⟩
  once : ((s.awaiting ++ s.closes).map Prod.snd).Nodup
  owed : ∀ id label n, s.started[id]? = some ⟨label, n⟩ → n < s.shutdowns →
    id ∈ s.failed ∨ (n, id) ∈ s.awaiting ∨ (n, id) ∈ s.closes
  settled : ∀ id ∈ s.built, id ∉ s.failed
  requested : ∀ r ∈ s.requests, ∀ id, r.build = some id → s.started[id]? = some ⟨r.label, r.epoch⟩
  answered : ∀ r ∈ s.requests, ∀ id, r.outcome = .resolved id → r.build = some id ∧ id ∈ s.built
  promised : ∀ r ∈ s.requests, r.outcome = .waiting → r.build ≠ none

section Steps
variable {s s' : ScopedStorageFactory Label}

theorem invariant_initial : (initial : ScopedStorageFactory Label).Invariant where
  cached label id := iff_of_false (fun h => by cases h) (fun h => by cases h)
  epochs _ h := by cases h
  started_nodup := List.nodup_nil
  waiting _ _ h := by cases h
  closed _ _ h := by cases h
  once := List.nodup_nil
  owed _ _ _ h := by cases h
  settled _ h := by cases h
  requested _ h := by cases h
  answered _ h := by cases h
  promised _ h := by cases h

theorem getElem?_concat_eq_some_iff {α : Type} (l : List α) (a b : α) (i : Nat) :
    (l ++ [a])[i]? = some b ↔ l[i]? = some b ∨ (i = l.length ∧ a = b) := by
  rw [List.getElem?_append]
  split
  · rename_i hlt
    exact (or_iff_left (fun h => absurd h.1 (Nat.ne_of_lt hlt))).symm
  · rename_i hge
    rw [List.getElem?_eq_none (Nat.le_of_not_lt hge)]
    simp only [reduceCtorEq, false_or]
    by_cases hi : i = l.length
    · simp [hi]
    · have : i - l.length ≠ 0 := by omega
      simp [hi, this]

theorem getElem?_concat_of_some {α : Type} {l : List α} {b : α} {i : Nat} (h : l[i]? = some b) (a : α) :
    (l ++ [a])[i]? = some b :=
  (getElem?_concat_eq_some_iff l a b i).mpr (Or.inl h)

/-- A label that is not in the cache has no build since the last shutdown. -/
theorem Invariant.fresh (h : s.Invariant) {label : Label} (hget : s.contexts.get label = none) :
    ⟨label, s.shutdowns⟩ ∉ s.started := by
  intro hmem
  obtain ⟨id, hid⟩ := List.mem_iff_getElem?.mp hmem
  rw [(h.cached label id).mpr hid] at hget
  cases hget

theorem Invariant.start (h : s.Invariant) {label : Label} (hget : s.contexts.get label = none) :
    Invariant { s with
      started := s.started ++ [⟨label, s.shutdowns⟩]
      contexts := s.contexts.set label s.started.length } where
  cached label' id := by
    rw [InsertionMap.get_set, getElem?_concat_eq_some_iff, ← h.cached, ContextBuild.mk.injEq]
    by_cases hlabel : label' = label
    · subst hlabel
      rw [if_pos rfl, hget]
      simp [eq_comm]
    · simp [hlabel, Ne.symm hlabel]
  epochs build hbuild := by
    rcases List.mem_append.mp hbuild with hbuild | hbuild
    · exact h.epochs build hbuild
    · rw [List.mem_singleton.mp hbuild]
  started_nodup := by
    apply List.Nodup.append h.started_nodup (List.nodup_singleton _)
    exact List.disjoint_singleton.mpr (h.fresh hget)
  waiting n id hid := by
    obtain ⟨hn, label', hlabel'⟩ := h.waiting n id hid
    exact ⟨hn, label', getElem?_concat_of_some hlabel' _⟩
  closed n id hid := by
    obtain ⟨hbuilt, hn, label', hlabel'⟩ := h.closed n id hid
    exact ⟨hbuilt, hn, label', getElem?_concat_of_some hlabel' _⟩
  once := h.once
  owed id label' n hid hn := by
    rcases (getElem?_concat_eq_some_iff _ _ _ _).mp hid with hid | ⟨-, hnew⟩
    · exact h.owed id label' n hid hn
    · cases hnew
      exact absurd hn (Nat.lt_irrefl _)
  settled := h.settled
  requested r hr id hid := getElem?_concat_of_some (h.requested r hr id hid) _
  answered := h.answered
  promised := h.promised

/-- What `context` hands out is a build of that label since the last shutdown. -/
theorem invariant_context (h : s.Invariant) (label : Label) (forRootThrows : Bool) :
    (s.context label forRootThrows).1.Invariant ∧
      ∀ id, (s.context label forRootThrows).2 = some id →
        (s.context label forRootThrows).1.started[id]? = some ⟨label, s.shutdowns⟩ := by
  unfold context
  cases hget : s.contexts.get label with
  | some existing =>
    refine ⟨h, ?_⟩
    rintro _ ⟨rfl⟩
    exact (h.cached label existing).mp hget
  | none =>
    dsimp only
    split
    · exact ⟨h, fun id hid => by cases hid⟩
    · refine ⟨h.start hget, ?_⟩
      rintro _ ⟨rfl⟩
      exact (getElem?_concat_eq_some_iff _ _ _ _).mpr (Or.inr ⟨rfl, rfl⟩)

theorem invariant_request (h : s.Invariant) (facade : ScopedFacade) (label : Label) (forRootThrows : Bool) :
    (s.request facade label forRootThrows).Invariant := by
  obtain ⟨h', hbuild⟩ := invariant_context h label forRootThrows
  unfold request
  generalize s.context label forRootThrows = result at h' hbuild
  obtain ⟨s', build⟩ := result
  dsimp only at h' hbuild ⊢
  refine { h' with requested := ?_, answered := ?_, promised := ?_ }
  · intro r hr id hid
    rcases List.mem_append.mp hr with hr | hr
    · exact h'.requested r hr id hid
    · rw [List.mem_singleton.mp hr] at hid ⊢
      exact hbuild id hid
  · intro r hr id hid
    rcases List.mem_append.mp hr with hr | hr
    · exact h'.answered r hr id hid
    · rw [List.mem_singleton.mp hr] at hid
      dsimp only at hid
      split at hid <;> cases hid
  · intro r hr hwaiting
    rcases List.mem_append.mp hr with hr | hr
    · exact h'.promised r hr hwaiting
    · rw [List.mem_singleton.mp hr] at hwaiting ⊢
      rintro rfl
      cases hwaiting

theorem invariant_buildResolved (h : s.Invariant) {id : Nat} (hpending : s.Pending id) :
    Invariant { s with built := s.built ++ [id] } := by
  refine { h with closed := ?_, settled := ?_, answered := ?_ }
  · intro n id' hid'
    obtain ⟨hbuilt, hrest⟩ := h.closed n id' hid'
    exact ⟨List.mem_append_left _ hbuilt, hrest⟩
  · intro id' hid'
    rcases List.mem_append.mp hid' with hid' | hid'
    · exact h.settled id' hid'
    · rw [List.mem_singleton.mp hid']
      exact hpending.2.2
  · intro r hr id' hid'
    obtain ⟨hbuild, hbuilt⟩ := h.answered r hr id' hid'
    exact ⟨hbuild, List.mem_append_left _ hbuilt⟩

theorem invariant_buildFailed (h : s.Invariant) {id : Nat} (hpending : s.Pending id) :
    Invariant { s with failed := s.failed ++ [id] } := by
  refine { h with owed := ?_, settled := ?_ }
  · intro id' label n hid' hn
    rcases h.owed id' label n hid' hn with hfailed | hrest
    · exact Or.inl (List.mem_append_left _ hfailed)
    · exact Or.inr hrest
  · intro id' hid' hfailed
    rcases List.mem_append.mp hfailed with hfailed | hfailed
    · exact h.settled id' hid' hfailed
    · rw [List.mem_singleton.mp hfailed] at hid'
      exact hpending.2.1 hid'

omit [DecidableEq Label] in
/-- A request that goes on keeps its label, its time and its promise. -/
theorem resumed_spec {r r' : ScopedRequest Label} (h : s.resumed r = some r') :
    r'.label = r.label ∧ r'.epoch = r.epoch ∧ r'.build = r.build ∧ r'.outcome ≠ .waiting ∧
      ∀ id, r'.outcome = .resolved id → r'.build = some id ∧ id ∈ s.built := by
  unfold resumed at h
  split at h
  · rename_i id _ hbuild
    split at h
    · rename_i hbuilt
      cases h
      refine ⟨rfl, rfl, rfl, (fun hid => by cases hid), ?_⟩
      rintro _ ⟨rfl⟩
      exact ⟨hbuild, hbuilt⟩
    · split at h
      · cases h
        exact ⟨rfl, rfl, rfl, (fun hid => by cases hid), fun id hid => by cases hid⟩
      · cases h
  · cases h

theorem invariant_requestResumed (h : s.Invariant) {index : Nat} {r r' : ScopedRequest Label}
    (hr : s.requests[index]? = some r) (hresumed : s.resumed r = some r') :
    Invariant { s with requests := s.requests.set index r' } := by
  obtain ⟨hlabel, hepoch, hbuild, hsettled, houtcome⟩ := resumed_spec hresumed
  have hmem := List.mem_of_getElem? hr
  refine { h with requested := ?_, answered := ?_, promised := ?_ }
  · intro q hq id hid
    rcases List.mem_or_eq_of_mem_set hq with hq | rfl
    · exact h.requested q hq id hid
    · rw [hlabel, hepoch]
      exact h.requested r hmem id (hbuild ▸ hid)
  · intro q hq id hid
    rcases List.mem_or_eq_of_mem_set hq with hq | rfl
    · exact h.answered q hq id hid
    · exact houtcome id hid
  · intro q hq hwaiting
    rcases List.mem_or_eq_of_mem_set hq with hq | rfl
    · exact h.promised q hq hwaiting
    · exact absurd hwaiting hsettled

/-- The cached promises, one for each label. -/
theorem Invariant.mem_entries_iff (h : s.Invariant) (label : Label) (id : Nat) :
    (label, id) ∈ s.contexts.entries ↔ s.started[id]? = some ⟨label, s.shutdowns⟩ := by
  rw [← InsertionMap.get_eq_some_iff, h.cached]

theorem Invariant.entries_snd_nodup (h : s.Invariant) : (s.contexts.entries.map Prod.snd).Nodup := by
  apply List.Nodup.map_on _ (List.Nodup.of_map _ s.contexts.nodup)
  rintro ⟨label, id⟩ hmem ⟨label', id'⟩ hmem' rfl
  rw [h.mem_entries_iff] at hmem hmem'
  rw [hmem] at hmem'
  cases hmem'
  rfl

/-- A promise that a shutdown awaits or has closed is from before that shutdown. -/
theorem Invariant.old_of_mem (h : s.Invariant) {n id : Nat} (hmem : (n, id) ∈ s.awaiting ++ s.closes) :
    n < s.shutdowns ∧ ∃ label, s.started[id]? = some ⟨label, n⟩ := by
  rcases List.mem_append.mp hmem with hmem | hmem
  · exact h.waiting n id hmem
  · exact (h.closed n id hmem).2

theorem invariant_onApplicationShutdown (h : s.Invariant) : s.onApplicationShutdown.Invariant where
  cached label id := by
    refine iff_of_false (fun hget => by cases hget) (fun hid => ?_)
    have hepoch : s.shutdowns + 1 ≤ s.shutdowns := h.epochs _ (List.mem_of_getElem? hid)
    omega
  epochs build hbuild := (h.epochs build hbuild).trans (Nat.le_succ _)
  started_nodup := h.started_nodup
  waiting n id hid := by
    rcases List.mem_append.mp hid with hid | hid
    · obtain ⟨hn, hlabel⟩ := h.waiting n id hid
      exact ⟨Nat.lt_succ_of_lt hn, hlabel⟩
    · obtain ⟨⟨label, id'⟩, hentry, heq⟩ := List.mem_map.mp hid
      cases heq
      exact ⟨Nat.lt_succ_self _, label, (h.mem_entries_iff label id').mp hentry⟩
  closed n id hid := by
    obtain ⟨hbuilt, hn, hlabel⟩ := h.closed n id hid
    exact ⟨hbuilt, Nat.lt_succ_of_lt hn, hlabel⟩
  once := by
    have hperm : (s.onApplicationShutdown.awaiting ++ s.onApplicationShutdown.closes).Perm
        ((s.awaiting ++ s.closes) ++ s.contexts.entries.map (fun entry => (s.shutdowns, entry.2))) := by
      rw [onApplicationShutdown, List.append_assoc, List.append_assoc]
      exact List.Perm.append_left _ List.perm_append_comm
    rw [(hperm.map Prod.snd).nodup_iff, List.map_append, List.map_map]
    apply List.Nodup.append h.once h.entries_snd_nodup
    intro id hold hnew
    obtain ⟨⟨n, _⟩, hmem, rfl⟩ := List.mem_map.mp hold
    obtain ⟨⟨label', _⟩, hentry, rfl⟩ := List.mem_map.mp hnew
    obtain ⟨hn, label, hlabel⟩ := h.old_of_mem hmem
    have hcurrent := (h.mem_entries_iff _ _).mp hentry
    dsimp only at hcurrent hlabel
    rw [hlabel] at hcurrent
    cases hcurrent
    exact Nat.lt_irrefl _ hn
  owed id label n hid hn := by
    rcases Nat.lt_succ_iff_lt_or_eq.mp hn with hlt | rfl
    · rcases h.owed id label n hid hlt with hfailed | hawaiting | hclosed
      · exact Or.inl hfailed
      · exact Or.inr (Or.inl (List.mem_append_left _ hawaiting))
      · exact Or.inr (Or.inr hclosed)
    · refine Or.inr (Or.inl (List.mem_append_right _ ?_))
      exact List.mem_map.mpr ⟨(label, id), (h.mem_entries_iff label id).mpr hid, rfl⟩
  settled := h.settled
  requested := h.requested
  answered := h.answered
  promised := h.promised

theorem eq_or_mem_erase {α : Type} [BEq α] [LawfulBEq α] {a : α} {l : List α} (h : a ∈ l) (b : α) :
    a = b ∨ a ∈ l.erase b := by
  classical
  by_cases hab : a = b
  · exact Or.inl hab
  · exact Or.inr ((List.mem_erase_of_ne hab).mpr h)

theorem invariant_closerResumed (h : s.Invariant) {closer : Nat × Nat} (hstep : s.closerResumed closer = some s') :
    s'.Invariant := by
  unfold ScopedStorageFactory.closerResumed at hstep
  split at hstep
  swap
  · cases hstep
  rename_i hmem
  obtain ⟨n, id⟩ := closer
  split at hstep
  · -- the context is there: it is closed, and no longer awaited
    rename_i hbuilt
    cases hstep
    have hperm : (s.awaiting.erase (n, id) ++ (s.closes ++ [(n, id)])).Perm (s.awaiting ++ s.closes) := by
      rw [← List.append_assoc]
      refine List.perm_append_comm.trans ?_
      rw [← List.append_assoc]
      exact List.Perm.append_right _ (List.perm_cons_erase hmem).symm
    refine { h with waiting := ?_, closed := ?_, once := ?_, owed := ?_ }
    · exact fun n' id' hid' => h.waiting n' id' (List.mem_of_mem_erase hid')
    · intro n' id' hid'
      rcases List.mem_append.mp hid' with hid' | hid'
      · exact h.closed n' id' hid'
      · cases List.mem_singleton.mp hid'
        exact ⟨hbuilt, h.waiting n id hmem⟩
    · exact ((hperm.map Prod.snd).nodup_iff).mpr h.once
    · intro id' label n' hid' hn'
      rcases h.owed id' label n' hid' hn' with hfailed | hawaiting | hclosed
      · exact Or.inl hfailed
      · rcases eq_or_mem_erase hawaiting (n, id) with heq | hleft
        · exact Or.inr (Or.inr (List.mem_append_right _ (List.mem_singleton.mpr heq)))
        · exact Or.inr (Or.inl hleft)
      · exact Or.inr (Or.inr (List.mem_append_left _ hclosed))
  · split at hstep
    · -- the build has failed: there is nothing to close
      rename_i hfailed
      cases hstep
      refine { h with waiting := ?_, once := ?_, owed := ?_ }
      · exact fun n' id' hid' => h.waiting n' id' (List.mem_of_mem_erase hid')
      · exact h.once.sublist ((List.Sublist.append_right List.erase_sublist _).map _)
      · intro id' label n' hid' hn'
        rcases h.owed id' label n' hid' hn' with hfailed' | hawaiting | hclosed
        · exact Or.inl hfailed'
        · rcases eq_or_mem_erase hawaiting (n, id) with heq | hleft
          · cases heq
            exact Or.inl hfailed
          · exact Or.inr (Or.inl hleft)
        · exact Or.inr (Or.inr hclosed)
    · cases hstep

/-- One step lemma for each event. -/
theorem invariant_next (h : s.Invariant) {event : ScopedEvent Label} (hstep : s.next event = some s') :
    s'.Invariant := by
  cases event with
  | request facade label forRootThrows =>
    cases hstep
    exact invariant_request h facade label forRootThrows
  | buildResolved id =>
    obtain ⟨hpending, heq⟩ := Option.ite_none_right_eq_some.mp hstep
    cases heq
    exact invariant_buildResolved h hpending
  | buildFailed id =>
    obtain ⟨hpending, heq⟩ := Option.ite_none_right_eq_some.mp hstep
    cases heq
    exact invariant_buildFailed h hpending
  | requestResumed index =>
    obtain ⟨r, hr, hmap⟩ := Option.bind_eq_some_iff.mp hstep
    obtain ⟨r', hr', heq⟩ := Option.map_eq_some_iff.mp hmap
    cases heq
    exact invariant_requestResumed h hr hr'
  | onApplicationShutdown =>
    cases hstep
    exact invariant_onApplicationShutdown h
  | closerResumed closer => exact invariant_closerResumed h hstep

end Steps

section Runs
variable {s : ScopedStorageFactory Label}

theorem invariant_run {events : List (ScopedEvent Label)} (h : run next initial events = some s) : s.Invariant :=
  run_invariant (fun _ _ _ hs hstep => invariant_next hs hstep) invariant_initial h

/-- The promises of two requests for one label between the same shutdowns are one promise. -/
theorem Invariant.same_build (h : s.Invariant) {r r' : ScopedRequest Label} (hr : r ∈ s.requests)
    (hr' : r' ∈ s.requests) (hlabel : r.label = r'.label) (hepoch : r.epoch = r'.epoch) {id id' : Nat}
    (hid : r.build = some id) (hid' : r'.build = some id') : id = id' := by
  have hstarted := h.requested r hr id hid
  have hstarted' := h.requested r' hr' id' hid'
  rw [← hlabel, ← hepoch, ← hstarted] at hstarted'
  have hlt : id < s.started.length := (List.getElem?_eq_some_iff.mp hstarted).1
  exact (List.getElem?_inj hlt h.started_nodup).mp hstarted'.symm

theorem filter_snd_eq {l : List (Nat × Nat)} (hnodup : (l.map Prod.snd).Nodup) {n id : Nat} (hmem : (n, id) ∈ l) :
    l.filter (fun closer => closer.2 = id) = [(n, id)] := by
  induction l with
  | nil => cases hmem
  | cons closer l ih =>
    rw [List.map_cons, List.nodup_cons] at hnodup
    have hother (hclosed : closer.2 ∉ l.map Prod.snd) (heq : closer.2 = id) : ∀ c ∈ l, ¬ c.2 = id := by
      intro c hc he
      exact hclosed (List.mem_map.mpr ⟨c, hc, he.trans heq.symm⟩)
    rcases List.mem_cons.mp hmem with rfl | hmem
    · rw [List.filter_cons_of_pos (by simp), List.filter_eq_nil_iff.mpr]
      simpa using hother hnodup.1 rfl
    · have hne : closer.2 ≠ id := fun he => hother hnodup.1 he _ hmem rfl
      rw [List.filter_cons_of_neg (by simpa using hne), ih hnodup.2 hmem]

/-- In every order of requests, settling builds, resumed callbacks and shutdowns: a label is
built once between two shutdowns, its requests share that build, no context is closed twice,
and in the end each context from before a shutdown has been closed by the first one after it. -/
theorem scoped_instances_built_and_closed_once {events : List (ScopedEvent Label)}
    (h : run next initial events = some s) :
    s.started.Nodup ∧
    (∀ r ∈ s.requests, ∀ r' ∈ s.requests, r.label = r'.label → r.epoch = r'.epoch →
      ∀ id, r.build = some id → ∀ id', r'.build = some id' → id = id') ∧
    (∀ r ∈ s.requests, ∀ context, r.outcome = .resolved context → r.build = some context) ∧
    (s.closes.map Prod.snd).Nodup ∧
    (s.Quiescent → ∀ id ∈ s.built, ∀ build, s.started[id]? = some build → build.epoch < s.shutdowns →
      s.closes.filter (fun closer => closer.2 = id) = [(build.epoch, id)]) := by
  have hinv := invariant_run h
  have hcloses : (s.closes.map Prod.snd).Nodup := by
    have honce := hinv.once
    rw [List.map_append] at honce
    exact (List.nodup_append.mp honce).2.1
  refine ⟨hinv.started_nodup, ?_, ?_, hcloses, ?_⟩
  · exact fun r hr r' hr' hlabel hepoch id hid id' hid' => hinv.same_build hr hr' hlabel hepoch hid hid'
  · exact fun r hr context hcontext => (hinv.answered r hr context hcontext).1
  · rintro ⟨-, hawaiting⟩ id hbuilt ⟨label, epoch⟩ hid hepoch
    apply filter_snd_eq hcloses
    rcases hinv.owed id label epoch hid hepoch with hfailed | hwaits | hclosed
    · exact absurd hfailed (hinv.settled id hbuilt)
    · rw [hawaiting] at hwaits
      cases hwaits
    · exact hclosed

/-- One build fails, and a shutdown starts while the other is pending; both requests go on. -/
def failedBesidePending : List (ScopedEvent Nat) :=
  [.request .storage 0 false, .request .signedUrls 1 false, .buildFailed 0, .onApplicationShutdown,
    .closerResumed (0, 0), .requestResumed 0, .buildResolved 1, .closerResumed (0, 1), .requestResumed 1]

theorem pending_build_closed_beside_failed :
    ((run next initial failedBesidePending).map fun s =>
      (s.requests.map ScopedRequest.outcome, s.closes.filter (fun closer => closer.2 = 1))) =
        some ([.rejected, .resolved 1], [(0, 1)]) := by
  have hrun : run next initial failedBesidePending =
      some ((run next initial failedBesidePending).getD initial) := rfl
  have hquiet : Quiescent ((run next initial failedBesidePending).getD initial) := by
    refine ⟨?_, rfl⟩
    rintro id ⟨hlt, hbuilt, hfailed⟩
    change id < 2 at hlt
    change id ∉ [1] at hbuilt
    change id ∉ [0] at hfailed
    simp only [List.mem_singleton] at hbuilt hfailed
    omega
  have hclosed := (scoped_instances_built_and_closed_once hrun).2.2.2.2 hquiet 1 (by decide) ⟨1, 0⟩ rfl (by decide)
  rw [hrun, Option.map_some, hclosed]
  rfl

/-- A request goes on once the build it waits for has settled: with its context, or rejected. -/
theorem Invariant.request_progress (h : s.Invariant) {r : ScopedRequest Label} (hr : r ∈ s.requests)
    (hwaiting : r.outcome = .waiting) (hsettled : ∀ id, ¬ s.Pending id) : ∃ id r', r.build = some id ∧
      s.resumed r = some r' ∧ r'.outcome = if id ∈ s.built then .resolved id else .rejected := by
  obtain ⟨id, hid⟩ := Option.ne_none_iff_exists'.mp (h.promised r hr hwaiting)
  have hlt : id < s.started.length := (List.getElem?_eq_some_iff.mp (h.requested r hr id hid)).1
  rw [resumed, hwaiting, hid]
  by_cases hbuilt : id ∈ s.built
  · simp only [if_pos hbuilt]
    exact ⟨id, _, rfl, rfl, (if_pos hbuilt).symm⟩
  · have hfailed : id ∈ s.failed := by
      by_contra hfailed
      exact hsettled id ⟨hlt, hbuilt, hfailed⟩
    simp only [if_neg hbuilt, if_pos hfailed]
    exact ⟨id, _, rfl, rfl, (if_neg hbuilt).symm⟩

/-- Once the builds have settled, every request can be answered; the induction is on a bound of
those that wait. -/
theorem requests_run_to_end (bound : Nat) (h : s.Invariant) (hsettled : ∀ id, ¬ s.Pending id)
    (hbound : s.requests.countP (fun r => r.outcome = .waiting) ≤ bound) :
    ∃ events s', run next s events = some s' ∧ ∀ r ∈ s'.requests, r.outcome ≠ .waiting := by
  induction bound generalizing s with
  | zero =>
    have hnone := List.countP_eq_zero.mp (Nat.le_zero.mp hbound)
    exact ⟨[], s, rfl, fun r hr hwaiting => hnone r hr (decide_eq_true hwaiting)⟩
  | succ bound ih =>
    by_cases hdone : ∀ r ∈ s.requests, r.outcome ≠ .waiting
    · exact ⟨[], s, rfl, hdone⟩
    · push Not at hdone
      obtain ⟨r, hr, hwaiting⟩ := hdone
      obtain ⟨index, hlt, hindex⟩ := List.mem_iff_getElem.mp hr
      obtain ⟨id, r', -, hresumed, -⟩ := h.request_progress hr hwaiting hsettled
      obtain ⟨-, -, -, hanswered, -⟩ := resumed_spec hresumed
      have hget : s.requests[index]? = some r := List.getElem?_eq_some_iff.mpr ⟨hlt, hindex⟩
      have hstep : s.next (.requestResumed index) = some { s with requests := s.requests.set index r' } := by
        rw [next, hget, Option.bind_some, hresumed, Option.map_some]
      have hfewer : (s.requests.set index r').countP (fun r => r.outcome = .waiting) ≤ bound := by
        rw [List.countP_set hlt, hindex, if_pos (decide_eq_true hwaiting), if_neg (by simpa using hanswered)]
        omega
      obtain ⟨events, s', hrun, hall⟩ := ih (invariant_next h hstep) hsettled hfewer
      exact ⟨_ :: events, s', Option.bind_eq_some_iff.mpr ⟨_, hstep, hrun⟩, hall⟩

/-- Once the builds have settled, the callbacks of the shutdowns can all run. -/
theorem shutdowns_run_to_end (h : s.Invariant) (hsettled : ∀ id, ¬ s.Pending id) :
    ∃ events s', run next s events = some s' ∧ s'.Quiescent := by
  induction hlist : s.awaiting generalizing s with
  | nil => exact ⟨[], s, rfl, hsettled, hlist⟩
  | cons closer rest ih =>
    obtain ⟨n, id⟩ := closer
    have hmem : (n, id) ∈ s.awaiting := hlist ▸ List.mem_cons_self
    obtain ⟨-, label, hid⟩ := h.waiting n id hmem
    have hlt : id < s.started.length := (List.getElem?_eq_some_iff.mp hid).1
    have herase : s.awaiting.erase (n, id) = rest := by rw [hlist, List.erase_cons_head]
    by_cases hbuilt : id ∈ s.built
    · have hstep : s.next (.closerResumed (n, id)) =
          some { s with awaiting := s.awaiting.erase (n, id), closes := s.closes ++ [(n, id)] } := by
        rw [next, ScopedStorageFactory.closerResumed, if_pos hmem, if_pos hbuilt]
      obtain ⟨events, s', hrun, hquiet⟩ := ih (invariant_next h hstep) hsettled herase
      exact ⟨_ :: events, s', Option.bind_eq_some_iff.mpr ⟨_, hstep, hrun⟩, hquiet⟩
    · have hfailed : id ∈ s.failed := by
        by_contra hfailed
        exact hsettled id ⟨hlt, hbuilt, hfailed⟩
      have hstep : s.next (.closerResumed (n, id)) = some { s with awaiting := s.awaiting.erase (n, id) } := by
        rw [next, ScopedStorageFactory.closerResumed, if_pos hmem, if_neg hbuilt, if_pos hfailed]
      obtain ⟨events, s', hrun, hquiet⟩ := ih (invariant_next h hstep) hsettled herase
      exact ⟨_ :: events, s', Option.bind_eq_some_iff.mpr ⟨_, hstep, hrun⟩, hquiet⟩

end Runs

end ScopedStorageFactory

end NestStorageExample.Api
