import NestStorageExample.Collections.InsertionMap
import NestStorageExample.Collections.Recency
import NestStorageExample.Text.CodeUnits

/-! The upload-progress session store: a `Map` whose insertion order is the recency
order, kept so by deleting and reinserting on every hit. -/
namespace NestStorageExample.Api
open Text Collections

inductive UploadStrategy where
  | single
  | multipart
  deriving DecidableEq, Repr

structure ProgressSnapshot where
  loaded : Nat
  total : Option Nat
  part : Option Nat
  strategy : Option UploadStrategy
  deriving DecidableEq, Repr

structure SessionEntry where
  snapshots : List ProgressSnapshot
  deriving DecidableEq, Repr

def maxSessions : Nat := 100

abbrev Sessions := InsertionMap JsString SessionEntry

/-- Deletes the first key, the oldest, until the count is within the cap. -/
def evictIfNeeded (sessions : Sessions) : Sessions :=
  if maxSessions < sessions.size then
    match _hkeys : sessions.keys with
    | [] => sessions
    | key :: _ => evictIfNeeded (sessions.delete key)
  else sessions
termination_by sessions.size
decreasing_by
  rw [InsertionMap.size_eq, InsertionMap.size_eq, InsertionMap.keys_delete, _hkeys,
    List.filter_cons_of_neg (by simp)]
  exact Nat.lt_succ_of_le (List.length_filter_le _ _)

structure UploadSessionStore where
  sessions : Sessions

namespace UploadSessionStore

def empty : UploadSessionStore := ⟨.empty⟩

def create (store : UploadSessionStore) (id : JsString) : UploadSessionStore :=
  ⟨evictIfNeeded (store.sessions.set id ⟨[]⟩)⟩

def append (store : UploadSessionStore) (id : JsString) (snapshot : ProgressSnapshot) : UploadSessionStore :=
  match store.sessions.get id with
  | none => store
  | some entry => ⟨(store.sessions.delete id).set id ⟨entry.snapshots ++ [snapshot]⟩⟩

def get (store : UploadSessionStore) (id : JsString) : Option (List ProgressSnapshot) × UploadSessionStore :=
  match store.sessions.get id with
  | none => (none, store)
  | some entry => (some entry.snapshots, ⟨(store.sessions.delete id).set id entry⟩)

def size (store : UploadSessionStore) : Nat := store.sessions.size

/-- Whether a session is held; `get` would answer its snapshots. -/
def Holds (store : UploadSessionStore) (id : JsString) : Prop := id ∈ store.sessions.keys

instance (store : UploadSessionStore) (id : JsString) : Decidable (store.Holds id) :=
  inferInstanceAs (Decidable (_ ∈ _))

end UploadSessionStore

inductive SessionCall where
  | create (id : JsString)
  | append (id : JsString) (snapshot : ProgressSnapshot)
  | get (id : JsString)
  deriving DecidableEq, Repr

namespace SessionCall

def apply (store : UploadSessionStore) : SessionCall → UploadSessionStore
  | create id => store.create id
  | append id snapshot => store.append id snapshot
  | get id => (store.get id).2

/-- The id a call uses successfully: a creation always, the others on a hit. -/
def used (store : UploadSessionStore) : SessionCall → Option JsString
  | create id => some id
  | append id _ => if store.Holds id then some id else none
  | get id => if store.Holds id then some id else none

/-- What a session has been appended by a call, a creation starting it over. -/
def record (id : JsString) (snapshots : List ProgressSnapshot) : SessionCall → List ProgressSnapshot
  | create id' => if id' = id then [] else snapshots
  | append id' snapshot => if id' = id then snapshots ++ [snapshot] else snapshots
  | get _ => snapshots

end SessionCall

/-- The store after a history of calls, the latest call at the head. -/
def sessionStore : List SessionCall → UploadSessionStore
  | [] => .empty
  | call :: earlier => call.apply (sessionStore earlier)

/-- The ids used successfully, the latest first. -/
def sessionUses : List SessionCall → List JsString
  | [] => []
  | call :: earlier => (call.used (sessionStore earlier)).toList ++ sessionUses earlier

/-- The snapshots appended to `id` since it was created, in order. -/
def appendedSince (id : JsString) : List SessionCall → List ProgressSnapshot
  | [] => []
  | call :: earlier => call.record id (appendedSince id earlier)

def createdIds (calls : List SessionCall) : List JsString :=
  calls.filterMap fun call => match call with
    | .create id => some id
    | _ => none

/-- Every creation is given an id never created before. -/
def FreshCreates (calls : List SessionCall) : Prop := (createdIds calls).Nodup

instance (calls : List SessionCall) : Decidable (FreshCreates calls) := inferInstanceAs (Decidable (List.Nodup _))

private theorem evictIfNeeded_cons {sessions : Sessions} {key : JsString} {rest : List JsString}
    (hsize : maxSessions < sessions.size) (hkeys : sessions.keys = key :: rest) :
    evictIfNeeded sessions = evictIfNeeded (sessions.delete key) := by
  rw [evictIfNeeded, if_pos hsize]
  split
  · rename_i h
    rw [h] at hkeys
    cases hkeys
  · rename_i h
    rw [h] at hkeys
    cases hkeys
    rfl

private theorem keys_delete_head {sessions : Sessions} {key : JsString} {rest : List JsString}
    (hkeys : sessions.keys = key :: rest) : (sessions.delete key).keys = rest := by
  have hnodup := sessions.keys_nodup
  rw [hkeys, List.nodup_cons] at hnodup
  rw [InsertionMap.keys_delete, hkeys, List.filter_cons_of_neg (by simp), List.filter_eq_self]
  intro k hk
  have : k ≠ key := fun he => hnodup.1 (he ▸ hk)
  simpa using this

theorem keys_evictIfNeeded (sessions : Sessions) :
    (evictIfNeeded sessions).keys = sessions.keys.drop (sessions.keys.length - maxSessions) := by
  induction sessions using evictIfNeeded.induct with
  | case1 sessions hsize hkeys =>
    rw [InsertionMap.size_eq, hkeys] at hsize
    cases hsize
  | case2 sessions hsize key rest hkeys ih =>
    have hlen := hsize
    rw [InsertionMap.size_eq, hkeys, List.length_cons] at hlen
    rw [evictIfNeeded_cons hsize hkeys, ih, keys_delete_head hkeys, hkeys, List.length_cons,
      show rest.length + 1 - maxSessions = rest.length - maxSessions + 1 by omega, List.drop_succ_cons]
  | case3 sessions hsize =>
    rw [evictIfNeeded, if_neg hsize]
    rw [InsertionMap.size_eq] at hsize
    rw [Nat.sub_eq_zero_of_le (Nat.le_of_not_lt hsize), List.drop_zero]

/-- Eviction does not touch what it leaves. -/
theorem get_evictIfNeeded {sessions : Sessions} {id : JsString} (h : id ∈ (evictIfNeeded sessions).keys) :
    (evictIfNeeded sessions).get id = sessions.get id := by
  induction sessions using evictIfNeeded.induct with
  | case1 sessions hsize hkeys =>
    rw [InsertionMap.size_eq, hkeys] at hsize
    cases hsize
  | case2 sessions hsize key rest hkeys ih =>
    rw [evictIfNeeded_cons hsize hkeys] at h ⊢
    have hmem := h
    rw [keys_evictIfNeeded] at hmem
    have hne : id ≠ key := by
      have := List.mem_of_mem_drop hmem
      rw [InsertionMap.keys_delete, List.mem_filter] at this
      simpa using this.2
    rw [ih h, InsertionMap.get_delete, if_neg hne]
  | case3 sessions hsize => rw [evictIfNeeded, if_neg hsize]

/-- A session deleted and set again stands last. -/
private theorem keys_touch {sessions : Sessions} {id : JsString} (entry : SessionEntry) :
    ((sessions.delete id).set id entry).keys = sessions.keys.filter (· ≠ id) ++ [id] := by
  rw [InsertionMap.keys_set_of_not_mem (by simp), InsertionMap.keys_delete]

private theorem get_touch (sessions : Sessions) (id id' : JsString) (entry : SessionEntry) :
    ((sessions.delete id).set id entry).get id' = if id' = id then some entry else sessions.get id' := by
  rw [InsertionMap.get_set, InsertionMap.get_delete]
  split <;> rfl

/-- What every history leaves: the keys are the most recent uses, oldest first, each
session has what it was appended, and only created ids were ever used. -/
structure SessionInvariant (calls : List SessionCall) : Prop where
  order : (sessionStore calls).sessions.keys.reverse = (recency (sessionUses calls)).take maxSessions
  content : ∀ id entry, (sessionStore calls).sessions.get id = some entry → entry.snapshots = appendedSince id calls
  created : ∀ id ∈ sessionUses calls, id ∈ createdIds calls

theorem SessionInvariant.holds_iff {calls : List SessionCall} (h : SessionInvariant calls) (id : JsString) :
    (sessionStore calls).Holds id ↔ id ∈ (recency (sessionUses calls)).take maxSessions := by
  rw [← h.order, List.mem_reverse]
  rfl

private theorem take_evicted (l : List JsString) :
    (l.reverse.drop (l.reverse.length - maxSessions)).reverse = l.take maxSessions := by
  rw [List.reverse_drop, List.reverse_reverse, List.length_reverse]
  rcases Nat.le_total l.length maxSessions with hle | hle
  · rw [List.take_of_length_le hle, List.take_of_length_le (by omega)]
  · rw [Nat.sub_sub_self hle]

private theorem invariant_create {calls : List SessionCall} {id : JsString} (h : SessionInvariant calls)
    (hfresh : id ∉ createdIds calls) : SessionInvariant (.create id :: calls) := by
  have hunused : id ∉ sessionUses calls := fun hu => hfresh (h.created id hu)
  have hnew : id ∉ (sessionStore calls).sessions.keys := by
    intro hk
    exact hunused ((mem_recency_iff id _).mp (List.mem_of_mem_take ((h.holds_iff id).mp hk)))
  constructor
  · change (evictIfNeeded _).keys.reverse = (recency (id :: sessionUses calls)).take maxSessions
    have hkeys : ((sessionStore calls).sessions.set id ⟨[]⟩).keys =
        (id :: (sessionStore calls).sessions.keys.reverse).reverse := by
      rw [InsertionMap.keys_set_of_not_mem hnew, List.reverse_cons, List.reverse_reverse]
    rw [keys_evictIfNeeded, hkeys, take_evicted, h.order, take_recency_fresh hunused]
  · intro id' entry hget
    have hmem : id' ∈ (evictIfNeeded ((sessionStore calls).sessions.set id ⟨[]⟩)).keys :=
      (InsertionMap.get_isSome_iff _ _).mp (by
        change ((sessionStore (.create id :: calls)).sessions.get id').isSome = true
        rw [hget]
        rfl)
    change (evictIfNeeded _).get id' = some entry at hget
    rw [get_evictIfNeeded hmem, InsertionMap.get_set] at hget
    change entry.snapshots = SessionCall.record id' (appendedSince id' calls) (.create id)
    rw [SessionCall.record]
    split at hget
    · cases hget
      rw [if_pos (Eq.symm ‹_›)]
    · rw [if_neg (Ne.symm ‹_›)]
      exact h.content id' entry hget
  · intro id' hid'
    change id' ∈ id :: sessionUses calls at hid'
    change id' ∈ id :: createdIds calls
    rcases List.mem_cons.mp hid' with rfl | hid'
    · exact List.mem_cons_self
    · exact List.mem_cons_of_mem _ (h.created id' hid')

/-- A hit: the session goes to the end, with what the call appends to it. -/
private theorem invariant_hit {calls : List SessionCall} {call : SessionCall} {id : JsString} {entry : SessionEntry}
    (h : SessionInvariant calls) (hholds : (sessionStore calls).Holds id)
    (hstore : (sessionStore (call :: calls)).sessions = ((sessionStore calls).sessions.delete id).set id entry)
    (huses : sessionUses (call :: calls) = id :: sessionUses calls)
    (hcreated : createdIds (call :: calls) = createdIds calls)
    (hentry : entry.snapshots = appendedSince id (call :: calls))
    (hothers : ∀ id', id' ≠ id → appendedSince id' (call :: calls) = appendedSince id' calls) :
    SessionInvariant (call :: calls) := by
  have hrecent := (h.holds_iff id).mp hholds
  constructor
  · rw [hstore, keys_touch, List.reverse_append, List.reverse_singleton, List.singleton_append,
      ← List.filter_reverse, h.order, huses]
    exact (take_recency_touch hrecent).symm
  · intro id' entry' hget
    rw [hstore, get_touch] at hget
    split at hget
    · cases hget
      rw [‹id' = id›]
      exact hentry
    · rw [hothers id' ‹_›]
      exact h.content id' entry' hget
  · intro id' hid'
    rw [huses] at hid'
    rw [hcreated]
    rcases List.mem_cons.mp hid' with rfl | hid'
    · exact h.created id' ((mem_recency_iff id' _).mp (List.mem_of_mem_take hrecent))
    · exact h.created id' hid'

/-- A miss leaves the store as it was. -/
private theorem invariant_miss {calls : List SessionCall} {call : SessionCall} {id : JsString}
    (h : SessionInvariant calls) (hmiss : (sessionStore calls).sessions.get id = none)
    (hstore : sessionStore (call :: calls) = sessionStore calls)
    (huses : sessionUses (call :: calls) = sessionUses calls)
    (hcreated : createdIds (call :: calls) = createdIds calls)
    (hothers : ∀ id', id' ≠ id → appendedSince id' (call :: calls) = appendedSince id' calls) :
    SessionInvariant (call :: calls) := by
  constructor
  · rw [hstore, huses]
    exact h.order
  · intro id' entry hget
    rw [hstore] at hget
    have hne : id' ≠ id := by
      rintro rfl
      rw [hmiss] at hget
      cases hget
    rw [hothers id' hne]
    exact h.content id' entry hget
  · rw [huses, hcreated]
    exact h.created

theorem sessionInvariant {calls : List SessionCall} (hfresh : FreshCreates calls) : SessionInvariant calls := by
  induction calls with
  | nil =>
    constructor
    · rfl
    · intro id entry h
      cases h
    · intro id h
      cases h
  | cons call calls ih =>
    cases call with
    | create id =>
      change (id :: createdIds calls).Nodup at hfresh
      exact invariant_create (ih (List.nodup_cons.mp hfresh).2) (List.nodup_cons.mp hfresh).1
    | append id snapshot =>
      have h := ih hfresh
      have hothers (id' : JsString) (hne : id' ≠ id) :
          appendedSince id' (.append id snapshot :: calls) = appendedSince id' calls := by
        rw [appendedSince, SessionCall.record, if_neg (Ne.symm hne)]
      cases hget : (sessionStore calls).sessions.get id with
      | none =>
        have hnot : ¬ (sessionStore calls).Holds id := (InsertionMap.get_eq_none_iff _ _).mp hget
        refine invariant_miss h hget ?_ ?_ rfl hothers
        · rw [sessionStore, SessionCall.apply, UploadSessionStore.append, hget]
        · rw [sessionUses, SessionCall.used, if_neg hnot, Option.toList_none, List.nil_append]
      | some entry =>
        have hholds : (sessionStore calls).Holds id := (InsertionMap.get_isSome_iff _ _).mp (by rw [hget]; rfl)
        refine @invariant_hit _ _ _ ⟨entry.snapshots ++ [snapshot]⟩ h hholds ?_ ?_ rfl ?_ hothers
        · rw [sessionStore, SessionCall.apply, UploadSessionStore.append, hget]
        · rw [sessionUses, SessionCall.used, if_pos hholds, Option.toList_some, List.singleton_append]
        · rw [appendedSince, SessionCall.record, if_pos rfl, h.content id entry hget]
    | get id =>
      have h := ih hfresh
      have hothers (id' : JsString) (_ : id' ≠ id) :
          appendedSince id' (.get id :: calls) = appendedSince id' calls := rfl
      cases hget : (sessionStore calls).sessions.get id with
      | none =>
        have hnot : ¬ (sessionStore calls).Holds id := (InsertionMap.get_eq_none_iff _ _).mp hget
        refine invariant_miss h hget ?_ ?_ rfl hothers
        · rw [sessionStore, SessionCall.apply, UploadSessionStore.get, hget]
        · rw [sessionUses, SessionCall.used, if_neg hnot, Option.toList_none, List.nil_append]
      | some entry =>
        have hholds : (sessionStore calls).Holds id := (InsertionMap.get_isSome_iff _ _).mp (by rw [hget]; rfl)
        refine invariant_hit h hholds ?_ ?_ rfl (h.content id entry hget) hothers
        · rw [sessionStore, SessionCall.apply, UploadSessionStore.get, hget]
        · rw [sessionUses, SessionCall.used, if_pos hholds, Option.toList_some, List.singleton_append]

theorem createdIds_subset_uses {calls : List SessionCall} {id : JsString} (h : id ∈ createdIds calls) :
    id ∈ sessionUses calls := by
  induction calls with
  | nil => cases h
  | cons call calls ih =>
    rw [sessionUses, List.mem_append]
    cases call with
    | create id' =>
      change id ∈ id' :: createdIds calls at h
      rcases List.mem_cons.mp h with rfl | h
      · exact Or.inl (by simp [SessionCall.used])
      · exact Or.inr (ih h)
    | append id' snapshot => exact Or.inr (ih h)
    | get id' => exact Or.inr (ih h)

/-- The store holds the created ids that fewer than a hundred others were used after. -/
theorem SessionInvariant.created_holds_iff {calls : List SessionCall} (h : SessionInvariant calls) {id : JsString}
    (hid : id ∈ createdIds calls) :
    (sessionStore calls).Holds id ↔ (usedSince id (sessionUses calls)).card < maxSessions := by
  rw [h.holds_iff, mem_take_recency_iff]
  exact and_iff_right (createdIds_subset_uses hid)

/-- A held session answers what it was appended. -/
theorem SessionInvariant.get_eq {calls : List SessionCall} (h : SessionInvariant calls) {id : JsString}
    (hholds : (sessionStore calls).Holds id) : ((sessionStore calls).get id).1 = some (appendedSince id calls) := by
  obtain ⟨entry, hget⟩ := Option.isSome_iff_exists.mp ((InsertionMap.get_isSome_iff _ _).mpr hholds)
  rw [UploadSessionStore.get, hget]
  exact congrArg some (h.content id entry hget)

/-- An append moves a session to the end; it neither adds nor removes one. -/
theorem holds_append_iff (store : UploadSessionStore) (id id' : JsString) (snapshot : ProgressSnapshot) :
    (store.append id snapshot).Holds id' ↔ store.Holds id' := by
  unfold UploadSessionStore.append
  split
  · rfl
  · rename_i entry hget
    have hmem : id ∈ store.sessions.keys := (InsertionMap.get_isSome_iff _ _).mp (by rw [hget]; rfl)
    change id' ∈ ((store.sessions.delete id).set id _).keys ↔ id' ∈ store.sessions.keys
    rw [keys_touch, List.mem_append, List.mem_singleton, List.mem_filter]
    by_cases h : id' = id
    · simp [h, hmem]
    · simp [h]

theorem holds_of_step {calls : List SessionCall} {call : SessionCall} {id : JsString}
    (hnew : id ∉ createdIds [call]) (h : (sessionStore (call :: calls)).Holds id) :
    (sessionStore calls).Holds id := by
  have htouch (id' : JsString) (entry : SessionEntry) (hmem : id' ∈ (sessionStore calls).sessions.keys)
      (hid : id ∈ (((sessionStore calls).sessions.delete id').set id' entry).keys) :
      id ∈ (sessionStore calls).sessions.keys := by
    rw [keys_touch, List.mem_append, List.mem_singleton] at hid
    rcases hid with hid | rfl
    · exact (List.mem_filter.mp hid).1
    · exact hmem
  cases call with
  | create id' =>
    have hne : id ≠ id' := fun he => hnew (he ▸ List.mem_singleton_self id')
    change id ∈ (evictIfNeeded _).keys at h
    rw [keys_evictIfNeeded] at h
    have hmem := List.mem_of_mem_drop h
    by_cases hk : id' ∈ (sessionStore calls).sessions.keys
    · rwa [InsertionMap.keys_set_of_mem hk] at hmem
    · rw [InsertionMap.keys_set_of_not_mem hk, List.mem_append, List.mem_singleton] at hmem
      exact hmem.resolve_right hne
  | append id' snapshot =>
    change id ∈ ((sessionStore calls).append id' snapshot).sessions.keys at h
    unfold UploadSessionStore.append at h
    split at h
    · exact h
    · rename_i entry hget
      exact htouch id' _ ((InsertionMap.get_isSome_iff _ _).mp (by rw [hget]; rfl)) h
  | get id' =>
    change id ∈ ((sessionStore calls).get id').2.sessions.keys at h
    unfold UploadSessionStore.get at h
    split at h
    · exact h
    · rename_i entry hget
      exact htouch id' _ ((InsertionMap.get_isSome_iff _ _).mp (by rw [hget]; rfl)) h

/-- A created id that is gone stays gone: nothing but its creation could bring it back. -/
theorem absent_stays_absent {later earlier : List SessionCall} {id : JsString}
    (hfresh : FreshCreates (later ++ earlier)) (hid : id ∈ createdIds earlier)
    (habsent : ¬ (sessionStore earlier).Holds id) : ¬ (sessionStore (later ++ earlier)).Holds id := by
  induction later with
  | nil => exact habsent
  | cons call later ih =>
    have hsplit : createdIds (call :: (later ++ earlier)) = createdIds [call] ++ createdIds (later ++ earlier) :=
      List.filterMap_append (l := [call])
    have hmem : id ∈ createdIds (later ++ earlier) := by
      rw [createdIds, List.filterMap_append]
      exact List.mem_append_right _ hid
    rw [List.cons_append, FreshCreates, hsplit, List.nodup_append] at hfresh
    exact fun h => ih hfresh.2.1 (holds_of_step (fun hc => hfresh.2.2 id hc id hmem rfl) h)

/-- The session store is an exact LRU of a hundred sessions. -/
theorem session_store_exact_lru {calls : List SessionCall} (hfresh : FreshCreates calls) :
    (sessionStore calls).size ≤ maxSessions ∧
    (∀ id ∈ createdIds calls,
      (sessionStore calls).Holds id ↔ (usedSince id (sessionUses calls)).card < maxSessions) ∧
    (∀ id, (sessionStore calls).Holds id → ((sessionStore calls).get id).1 = some (appendedSince id calls)) ∧
    (∀ id, ¬ (sessionStore calls).Holds id → (sessionStore calls).get id = (none, sessionStore calls) ∧
      ∀ snapshot, (sessionStore calls).append id snapshot = sessionStore calls) ∧
    ∀ later earlier id, calls = later ++ earlier → id ∈ createdIds earlier →
      ¬ (sessionStore earlier).Holds id → ¬ (sessionStore calls).Holds id := by
  have h := sessionInvariant hfresh
  refine ⟨?_, fun id hid => h.created_holds_iff hid, fun id hholds => h.get_eq hholds, ?_, ?_⟩
  · have hlen := congrArg List.length h.order
    rw [List.length_reverse, List.length_take, ← InsertionMap.size_eq] at hlen
    rw [UploadSessionStore.size, hlen]
    exact Nat.min_le_left _ _
  · intro id hnot
    have hget := (InsertionMap.get_eq_none_iff _ _).mpr hnot
    constructor
    · rw [UploadSessionStore.get, hget]
    · intro snapshot
      rw [UploadSessionStore.append, hget]
  · rintro later earlier id rfl hid habsent
    exact absent_stays_absent hfresh hid habsent

theorem sessionUses_creates (ids : List JsString) : sessionUses (ids.map SessionCall.create) = ids := by
  induction ids with
  | nil => rfl
  | cons id ids ih => rw [List.map_cons, sessionUses, ih, SessionCall.used, Option.toList_some, List.singleton_append]

/-! A hundred sessions, the first of which is appended to before another one is created. -/

def numberedSession (n : Nat) : JsString := [UInt16.ofNat n]

def hundredSessions : List JsString := (List.range 100).reverse.map numberedSession

def halfway : ProgressSnapshot := ⟨5, some 10, none, some .single⟩

def touchedCalls : List SessionCall :=
  .create (numberedSession 100) :: .append (numberedSession 0) halfway :: hundredSessions.map .create

/-- The second is evicted, and the first is read as it was appended to. -/
theorem session_store_evicts_untouched : (sessionStore touchedCalls).Holds (numberedSession 0) ∧
    ¬ (sessionStore touchedCalls).Holds (numberedSession 1) ∧
    ((sessionStore touchedCalls).get (numberedSession 0)).1 = some [halfway] := by
  have hcreated := session_store_exact_lru
    (by decide +kernel : FreshCreates (hundredSessions.map SessionCall.create))
  have hheld : (sessionStore (hundredSessions.map SessionCall.create)).Holds (numberedSession 0) := by
    rw [hcreated.2.1 (numberedSession 0) (by decide +kernel), sessionUses_creates]
    decide +kernel
  have huses : sessionUses touchedCalls = numberedSession 100 :: numberedSession 0 :: hundredSessions := by
    rw [touchedCalls, sessionUses, sessionUses, sessionUses_creates, SessionCall.used, SessionCall.used, if_pos hheld]
    rfl
  obtain ⟨-, hholds, hget, -⟩ := session_store_exact_lru (by decide +kernel : FreshCreates touchedCalls)
  have hfirst : (sessionStore touchedCalls).Holds (numberedSession 0) := by
    rw [hholds (numberedSession 0) (by decide +kernel), huses]
    decide +kernel
  refine ⟨hfirst, ?_, ?_⟩
  · rw [hholds (numberedSession 1) (by decide +kernel), huses]
    decide +kernel
  · rw [hget _ hfirst]
    decide +kernel

end NestStorageExample.Api
