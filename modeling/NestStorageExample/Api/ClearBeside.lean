import NestStorageExample.Api.Operations
import NestStorageExample.Collections.PagesRead

/-! `clear` and the pages of a listing beside other requests, which store, copy and delete
between any two of their calls. -/
namespace NestStorageExample.Api
open Text Effects Storage Collections
variable {W : Type} {provider : Provider W}

/-- Before a call the environment has taken its next turn, or has none left. -/
theorem turn_cases (s : Observed W) : (s.environment = [] ∧ s.turn = s) ∨
    ∃ act rest, s.environment = act :: rest ∧ s.turn = ⟨act s.world, rest, s.calls⟩ := by
  obtain ⟨w, environment, calls⟩ := s
  cases environment with
  | nil => exact Or.inl ⟨rfl, rfl⟩
  | cons act rest => exact Or.inr ⟨act, rest, rfl, rfl⟩

theorem turn_alone {s : Observed W} (h : s.environment = []) : s.turn = s := by
  obtain ⟨-, hturn⟩ | ⟨act, rest, hsome, -⟩ := turn_cases s
  · exact hturn
  · rw [h] at hsome
    cases hsome

theorem turn_environment_length (s : Observed W) : s.turn.environment.length = s.environment.length - 1 := by
  obtain ⟨hnone, hturn⟩ | ⟨act, rest, hsome, hturn⟩ := turn_cases s
  · rw [hturn, hnone]
    rfl
  · rw [hturn, hsome]
    exact (Nat.add_sub_cancel _ _).symm

/-- A call that another request makes, or a client's PUT through a URL that
`createUploadUrl` signed. -/
inductive Neighbour where
  | call (call : Call)
  | signedPut (category : UploadCategory) (uuid : Uuid) (object : StoredObject)

namespace Neighbour
variable (provider : Provider W)

def act (w : W) : Neighbour → W
  | call (.upload options) => (provider.service.upload options w).2
  | call (.head key bucket) => (provider.service.head key bucket w).2
  | call (.download options) => (provider.service.download options w).2
  | call (.list options) => (provider.service.list options w).2
  | call (.delete key bucket) => (provider.service.delete key bucket w).2
  | call (.deleteMany keys) => (provider.service.deleteMany keys w).2
  | call (.copy options) => (provider.service.copy options w).2
  | signedPut category uuid object => provider.put (uploadUrlKey category uuid) object w

/-- The slot it may store an object in. -/
def stores : Neighbour → Option Slot
  | call (.upload options) => provider.slot none options.key
  | call (.copy options) => provider.slot options.destinationBucket options.destinationKey
  | call _ => none
  | signedPut category uuid _ => provider.slot none (uploadUrlKey category uuid)

/-- It may empty the slot. -/
def Empties (slot : Slot) : Neighbour → Prop
  | call (.delete key bucket) => provider.slot bucket key = some slot
  | call (.deleteMany keys) => slot.bucket = provider.bucket ∧ slot.key ∈ keys
  | _ => False

/-- What others do between two calls. -/
def turn (neighbours : List Neighbour) (w : W) : W := neighbours.foldl (act provider) w

theorem turn_append (earlier later : List Neighbour) (w : W) :
    turn provider (earlier ++ later) w = turn provider later (turn provider earlier w) := List.foldl_append

end Neighbour

/-- The library under calls that may fail at any point, having taken effect or not. -/
structure SharedContract (provider : Provider W) : Prop where
  upload : provider.UploadContract
  put : provider.PutContract
  faulty : provider.FaultyContract
  download : ∀ options w, (provider.service.download options).Settles w
    (fun _ w' => provider.store w' = provider.store w) (fun _ w' => provider.store w' = provider.store w)
  deleteMany : ∀ keys w, (provider.service.deleteMany keys).Settles w
    (fun _ w' => provider.DeletesAmong keys (provider.store w) (provider.store w'))
    (fun _ w' => provider.DeletesAmong keys (provider.store w) (provider.store w'))

/-- What holds of the world however a call settled. -/
theorem world_of_settles {α : Type} {m : Async Rejection W α} {w : W} {P : W → Prop}
    (h : m.Settles w (fun _ w' => P w') (fun _ w' => P w')) : P (m w).2 := by
  cases hrun : m w with
  | mk result w' =>
    cases result with
    | ok a => exact h.of_ok hrun
    | error e => exact h.of_error hrun

/-- A slot after a call of somebody else's: as it was, or one that the call stores in, or
one that it has emptied. -/
theorem Neighbour.act_lookup (h : SharedContract provider) (listing : provider.ListContract) (neighbour : Neighbour)
    (w : W) (slot : Slot) :
    (provider.store (neighbour.act provider w)).lookup slot = (provider.store w).lookup slot ∨
      neighbour.stores provider = some slot ∨
      (neighbour.Empties provider slot ∧ (provider.store (neighbour.act provider w)).lookup slot = none) := by
  cases neighbour with
  | call call =>
    cases call with
    | upload options =>
      by_cases hslot : provider.slot none options.key = some slot
      · exact Or.inr (Or.inl hslot)
      · exact Or.inl (world_of_settles (h.upload options w) slot hslot)
    | head key bucket => exact Or.inl (congrArg _ (world_of_settles (h.faulty.head key bucket w)))
    | download options => exact Or.inl (congrArg _ (world_of_settles (h.download options w)))
    | list options =>
      obtain ⟨page, w', hrun, hstore, -⟩ := (listing.lists options w).exists_ok
      refine Or.inl ?_
      change (provider.store (provider.service.list options w).2).lookup slot = _
      rw [hrun, hstore]
    | delete key bucket =>
      have hdelete := h.faulty.delete key bucket w
      have hdone : provider.store (provider.service.delete key bucket w).2 = provider.store w ∨
          provider.DeleteDone key bucket (provider.store w) (provider.store (provider.service.delete key bucket w).2) :=
        world_of_settles (hdelete.mono (fun _ _ hdone => Or.inr hdone) (fun _ _ hdone => hdone))
      rcases hdone with hsame | ⟨target, htarget, herased⟩
      · exact Or.inl (congrArg _ hsame)
      · by_cases hslot : slot = target
        · refine Or.inr (Or.inr ⟨hslot ▸ htarget, ?_⟩)
          change (provider.store (provider.service.delete key bucket w).2).lookup slot = none
          rw [herased, hslot, Finmap.lookup_erase]
        · refine Or.inl ?_
          change (provider.store (provider.service.delete key bucket w).2).lookup slot = _
          rw [herased, Finmap.lookup_erase_ne hslot]
    | deleteMany keys =>
      rcases world_of_settles (h.deleteMany keys w) slot with hsame | ⟨hbucket, hkey, hnone⟩
      · exact Or.inl hsame
      · exact Or.inr (Or.inr ⟨⟨hbucket, hkey⟩, hnone⟩)
    | copy options =>
      have hcopy := h.faulty.copy options w
      have hdone : provider.store (provider.service.copy options w).2 = provider.store w ∨
          provider.CopyDone options (provider.store w) (provider.store (provider.service.copy options w).2) :=
        world_of_settles (hcopy.mono (fun _ _ hdone => Or.inr hdone) (fun _ _ hdone => hdone))
      rcases hdone with hsame | ⟨source, destination, object, copied, -, hdestination, -, -, hstored⟩
      · exact Or.inl (congrArg _ hsame)
      · by_cases hslot : slot = destination
        · exact Or.inr (Or.inl (hslot ▸ hdestination))
        · refine Or.inl ?_
          change (provider.store (provider.service.copy options w).2).lookup slot = _
          rw [hstored, Finmap.lookup_insert_of_ne _ hslot]
  | signedPut category uuid object =>
    obtain ⟨target, htarget⟩ := uploadUrlKey_slot provider category uuid
    by_cases hslot : slot = target
    · exact Or.inr (Or.inl (hslot ▸ htarget))
    · exact Or.inl ((congrArg (Finmap.lookup slot) (h.put htarget)).trans (Finmap.lookup_insert_of_ne _ hslot))

/-- A run's own calls in their order, each behind the turn that was taken before it. -/
def schedule : List (List Neighbour) → List (Call × Store) → List Neighbour
  | _, [] => []
  | turns, call :: calls => turns.headD [] ++ .call call.1 :: schedule turns.tail calls

theorem schedule_concat (turns : List (List Neighbour)) (calls : List (Call × Store)) (call : Call × Store) :
    schedule turns (calls ++ [call]) =
      schedule turns calls ++ ((turns.drop calls.length).headD [] ++ [.call call.1]) := by
  induction calls generalizing turns with
  | nil => rfl
  | cons first calls ih =>
    rw [List.cons_append, schedule, schedule, ih, List.append_assoc, List.cons_append, List.length_cons, List.drop_tail]

theorem mem_schedule {turns : List (List Neighbour)} {calls : List (Call × Store)} {neighbour : Neighbour}
    (h : neighbour ∈ schedule turns calls) :
    (∃ turn ∈ turns.take calls.length, neighbour ∈ turn) ∨ ∃ call ∈ calls, neighbour = .call call.1 := by
  induction calls generalizing turns with
  | nil => cases h
  | cons call calls ih =>
    rw [schedule] at h
    rcases List.mem_append.mp h with h | h
    · cases turns with
      | nil => cases h
      | cons turn turns => exact Or.inl ⟨turn, by simp, h⟩
    · rcases List.mem_cons.mp h with h | h
      · exact Or.inr ⟨call, List.mem_cons_self, h⟩
      · rcases ih h with ⟨turn, hturn, hmem⟩ | ⟨later, hlater, hsame⟩
        · cases turns with
          | nil => simp at hturn
          | cons first turns => exact Or.inl ⟨turn, List.mem_cons_of_mem _ hturn, hmem⟩
        · exact Or.inr ⟨later, List.mem_cons_of_mem _ hlater, hsame⟩

/-- The run has come from `w` to where its calls and the turns before them lead. -/
structure Beside (provider : Provider W) (turns : List (List Neighbour)) (w : W) (s : Observed W) : Prop where
  world : s.world = Neighbour.turn provider (schedule turns s.calls) w
  environment : s.environment = (turns.drop s.calls.length).map (Neighbour.turn provider)

section Trace
variable {turns : List (List Neighbour)} {w : W} {s : Observed W} {slot : Slot} {trace more : List Neighbour}

theorem Beside.turn (h : Beside provider turns w s) :
    s.turn.world = Neighbour.turn provider ((turns.drop s.calls.length).headD []) s.world ∧
      s.turn.environment = (turns.drop (s.calls.length + 1)).map (Neighbour.turn provider) := by
  rw [← List.tail_drop]
  have henvironment := h.environment
  cases hturns : turns.drop s.calls.length with
  | nil =>
    rw [hturns, List.map_nil] at henvironment
    rw [turn_alone henvironment]
    exact ⟨rfl, henvironment⟩
  | cons turn rest =>
    rw [hturns, List.map_cons] at henvironment
    obtain ⟨hnone, -⟩ | ⟨act, others, hsome, hturn⟩ := turn_cases s
    · rw [hnone] at henvironment
      cases henvironment
    · rw [hsome, List.cons.injEq] at henvironment
      rw [hturn]
      exact ⟨congrFun henvironment.1 s.world, henvironment.2⟩

/-- One call more, behind one turn more. -/
theorem Beside.observe (h : Beside provider turns w s) {α : Type} {call : Call} {m : Async Rejection W α}
    (hcall : ∀ v, (m v).2 = Neighbour.act provider v (.call call)) :
    Beside provider turns w (provider.observe call m s).2 := by
  obtain ⟨hworld, henvironment⟩ := h.turn
  have hcalls : (provider.observe call m s).2.calls = s.calls ++ [(call, provider.store s.turn.world)] := rfl
  constructor
  · rw [hcalls, schedule_concat, Neighbour.turn_append, Neighbour.turn_append, ← h.world, ← hworld]
    exact hcall s.turn.world
  · rw [hcalls, List.length_append]
    exact henvironment

/-- A call along the trace found the slot empty and left an object in it. -/
def FilledIn (provider : Provider W) (w : W) (trace : List Neighbour) (slot : Slot) : Prop :=
  ∃ before neighbour after, trace = before ++ neighbour :: after ∧ neighbour.stores provider = some slot ∧
    (provider.store (Neighbour.turn provider before w)).lookup slot = none ∧
    ((provider.store (Neighbour.turn provider (before ++ [neighbour]) w)).lookup slot).isSome = true

theorem FilledIn.append (h : FilledIn provider w trace slot) (more : List Neighbour) :
    FilledIn provider w (trace ++ more) slot := by
  obtain ⟨before, neighbour, after, rfl, hfilled⟩ := h
  exact ⟨before, neighbour, after ++ more, by simp, hfilled⟩

/-- A slot that comes to hold something was filled on the way. -/
theorem filledIn_of_run (h : SharedContract provider) (listing : provider.ListContract)
    (hnone : (provider.store (Neighbour.turn provider trace w)).lookup slot = none)
    (hsome : ((provider.store (Neighbour.turn provider (trace ++ more) w)).lookup slot).isSome = true) :
    FilledIn provider w (trace ++ more) slot := by
  induction more generalizing trace with
  | nil =>
    rw [List.append_nil, hnone] at hsome
    cases hsome
  | cons neighbour more ih =>
    have hact : Neighbour.turn provider (trace ++ [neighbour]) w =
        neighbour.act provider (Neighbour.turn provider trace w) := Neighbour.turn_append provider trace [neighbour] w
    by_cases hfilled : (provider.store (Neighbour.turn provider (trace ++ [neighbour]) w)).lookup slot = none
    · rw [List.append_cons] at hsome ⊢
      exact ih hfilled hsome
    · refine ⟨trace, neighbour, more, rfl, ?_, hnone, Option.isSome_iff_ne_none.mpr hfilled⟩
      rw [hact] at hfilled
      rcases neighbour.act_lookup h listing _ slot with hsame | hstores | ⟨-, hempty⟩
      · exact absurd (hsame.trans hnone) hfilled
      · exact hstores
      · exact absurd hempty hfilled

/-- A slot that nothing along the trace touches is as it was. -/
theorem lookup_of_untouched (h : SharedContract provider) (listing : provider.ListContract)
    (htouches : ∀ neighbour ∈ trace, neighbour.stores provider ≠ some slot ∧ ¬ neighbour.Empties provider slot) :
    (provider.store (Neighbour.turn provider trace w)).lookup slot = (provider.store w).lookup slot := by
  induction trace generalizing w with
  | nil => rfl
  | cons neighbour trace ih =>
    have hfirst := htouches neighbour List.mem_cons_self
    refine (ih (fun other hmem => htouches other (List.mem_cons_of_mem _ hmem))).trans ?_
    rcases neighbour.act_lookup h listing w slot with hsame | hslot | ⟨hempties, -⟩
    · exact hsame
    · exact absurd hslot hfirst.1
    · exact absurd hempties hfirst.2

end Trace

/-- The calls `clear` makes. -/
def ClearsBy : Call → Prop
  | .list _ => True
  | .deleteMany _ => True
  | _ => False

/-- After some rounds beside others who take these turns: the keys asked for lie under the
prefix and up to the bound, and of those only the ones reported failed and the ones stored
meanwhile are left. -/
structure ClearingBeside (listing : provider.ListContract) (pathPrefix : JsString) (turns : List (List Neighbour))
    (w : W) (s : Observed W) (bound : Option JsString) (deleted : Nat) (failures : List FailedDeletion) : Prop where
  beside : Beside provider turns w s
  calls : ∀ call ∈ s.calls, ClearsBy call.1
  nodup : s.deletes.Nodup
  within : ∀ key ∈ s.deletes, pathPrefix <+: key ∧ ¬ After listing.before bound key
  count : deleted + failures.length = s.deletes.length
  left : ∀ key, pathPrefix <+: key → ¬ After listing.before bound key →
    ((provider.store s.world).lookup ⟨provider.bucket, key⟩).isSome = true →
    key ∈ failures.map FailedDeletion.key ∨ FilledIn provider w (schedule turns s.calls) ⟨provider.bucket, key⟩

/-- Once the last page is done with, that holds of every key under the prefix. -/
def LeftBeside (provider : Provider W) (pathPrefix : JsString) (turns : List (List Neighbour)) (w : W)
    (s : Observed W) (failures : List FailedDeletion) : Prop :=
  ∀ key, pathPrefix <+: key → ((provider.store s.world).lookup ⟨provider.bucket, key⟩).isSome = true →
    key ∈ failures.map FailedDeletion.key ∨ FilledIn provider w (schedule turns s.calls) ⟨provider.bucket, key⟩

section Rounds
variable {listing : provider.ListContract} {pathPrefix : JsString} {turns : List (List Neighbour)} {w : W}
  {s : Observed W} {bound : Option JsString} {deleted : Nat} {failures : List FailedDeletion}

theorem clearingBeside_start (listing : provider.ListContract) (pathPrefix : JsString)
    (turns : List (List Neighbour)) (w : W) : ClearingBeside listing pathPrefix turns w
      ⟨w, turns.map (Neighbour.turn provider), []⟩ none 0 [] where
  beside := ⟨rfl, rfl⟩
  calls _ h := by cases h
  nodup := List.nodup_nil
  within _ h := by cases h
  count := rfl
  left key _ hbound := absurd (fun b hb => by cases hb) hbound

/-- What is there after one call more was there before it, or was stored meanwhile. -/
theorem Beside.stored_cases (h : SharedContract provider) (listing : provider.ListContract) {s' : Observed W}
    {call : Call × Store} (hs : Beside provider turns w s) (hs' : Beside provider turns w s')
    (hcalls : s'.calls = s.calls ++ [call]) {slot : Slot}
    (hsome : ((provider.store s'.world).lookup slot).isSome = true) :
    ((provider.store s.world).lookup slot).isSome = true ∨ FilledIn provider w (schedule turns s'.calls) slot := by
  by_cases hbefore : (provider.store s.world).lookup slot = none
  · right
    rw [hs.world] at hbefore
    rw [hs'.world, hcalls, schedule_concat] at hsome
    rw [hcalls, schedule_concat]
    exact filledIn_of_run h listing hbefore hsome
  · exact Or.inl (Option.isSome_iff_ne_none.mpr hbefore)

/-- One page is listed, of what is stored after the turn. -/
theorem ClearingBeside.list (hshared : SharedContract provider)
    (h : ClearingBeside listing pathPrefix turns w s bound deleted failures)
    {cursor : Option JsString} (hcursor : cursor.bind listing.bound = bound) :
    ∃ page s', provider.observed.list ⟨pathPrefix, none, cursor⟩ s = (.ok page, s') ∧
      s'.environment.length = s.environment.length - 1 ∧
      ClearingBeside listing pathPrefix turns w s' bound deleted failures ∧
      IsPage listing.before {key | key ∈ objectKeys (provider.store s'.world) provider.bucket pathPrefix} bound
        (page.objects.map ListedObject.key) ∧
      (page.nextContinuationToken.isSome = true ↔
        ∃ key ∈ objectKeys (provider.store s'.world) provider.bucket pathPrefix,
          After listing.before bound key ∧ key ∉ page.objects.map ListedObject.key) ∧
      (∀ token ∈ page.nextContinuationToken,
        listing.bound token = nextBound bound (page.objects.map ListedObject.key)) ∧
      (s.environment = [] → provider.store s'.world = provider.store s.world ∧
        provider.service.list ⟨pathPrefix, none, cursor⟩ s.world = (.ok page, s'.world)) := by
  obtain ⟨page, w', hrun, hstore, hpage, hmore, hbound⟩ :=
    (listing.lists ⟨pathPrefix, none, cursor⟩ s.turn.world).exists_ok
  simp only [hcursor] at hpage hmore hbound
  rw [← hstore] at hpage hmore
  obtain ⟨s', hs'⟩ : ∃ s' : Observed W, s' = ⟨w', s.turn.environment,
    s.calls ++ [(.list ⟨pathPrefix, none, cursor⟩, provider.store s.turn.world)]⟩ := ⟨_, rfl⟩
  have hlist : provider.observed.list ⟨pathPrefix, none, cursor⟩ s = (.ok page, s') := by
    change provider.observe _ _ s = _
    rw [Provider.observe, hrun, hs']
  have hbeside : Beside provider turns w s' := by
    have hobserved : Beside provider turns w (provider.observed.list ⟨pathPrefix, none, cursor⟩ s).2 :=
      h.beside.observe (fun _ => rfl)
    rwa [hlist] at hobserved
  have hcalls : s'.calls = s.calls ++ [(.list ⟨pathPrefix, none, cursor⟩, provider.store s.turn.world)] := by rw [hs']
  have hdeletes : s'.deletes = s.deletes := by
    rw [hs', Observed.deletes_append]
    exact List.append_nil _
  refine ⟨page, s', hlist, ?_, ⟨hbeside, ?_, ?_, ?_, ?_, ?_⟩, ?_, ?_, hbound, ?_⟩
  · rw [hs']
    exact turn_environment_length s
  · intro call hcall
    rw [hcalls] at hcall
    rcases List.mem_append.mp hcall with hcall | hcall
    · exact h.calls call hcall
    · rw [List.mem_singleton.mp hcall]
      exact trivial
  · rw [hdeletes]
    exact h.nodup
  · rw [hdeletes]
    exact h.within
  · rw [hdeletes]
    exact h.count
  · intro key hkey hafter hsome
    rcases h.beside.stored_cases hshared listing hbeside hcalls hsome with hbefore | hfilled
    · refine (h.left key hkey hafter hbefore).imp_right (fun hfilled => ?_)
      rw [hcalls, schedule_concat]
      exact hfilled.append _
    · exact Or.inr hfilled
  · rw [hs']
    exact hpage
  · rw [hs']
    exact hmore
  · intro hnone
    rw [turn_alone hnone] at hstore hrun
    rw [hs']
    exact ⟨hstore, hrun⟩

/-- The keys of a page are deleted, or reported failed. -/
theorem ClearingBeside.deletePage (hshared : SharedContract provider) (hdelete : provider.DeleteManyContract)
    (h : ClearingBeside listing pathPrefix turns w s bound deleted failures) {keys : List JsString}
    (hpage : IsPage listing.before {key | key ∈ objectKeys (provider.store s.world) provider.bucket pathPrefix} bound
      keys) :
    ∃ counts s', TenantsService.clearPage provider.observed keys deleted failures s = (.ok counts, s') ∧
      s'.environment.length ≤ s.environment.length ∧
      ClearingBeside listing pathPrefix turns w s' (nextBound bound keys) counts.1 counts.2 ∧
      (∀ slot, ((provider.store s'.world).lookup slot).isSome = true →
        ((provider.store s.world).lookup slot).isSome = true ∨ FilledIn provider w (schedule turns s'.calls) slot) ∧
      (keys = [] → s' = s) ∧
      (s.environment = [] → objectKeys (provider.store s'.world) provider.bucket pathPrefix ⊆
        objectKeys (provider.store s.world) provider.bucket pathPrefix) := by
  have := listing.order
  by_cases hkeys : keys = []
  · subst hkeys
    exact ⟨(deleted, failures), s, rfl, le_rfl, h, fun _ hsome => Or.inl hsome, fun _ => rfl,
      fun _ => Finset.Subset.refl _⟩
  obtain ⟨outcome, w', hrun, hperm, hstore⟩ := (@hdelete _ s.turn.world hpage.nodup).exists_ok
  obtain ⟨s', hs'⟩ : ∃ s' : Observed W, s' = ⟨w', s.turn.environment,
    s.calls ++ [(.deleteMany keys, provider.store s.turn.world)]⟩ := ⟨_, rfl⟩
  have hobserved : provider.observed.deleteMany keys s = (.ok outcome, s') := by
    change provider.observe _ _ s = _
    rw [Provider.observe, hrun, hs']
  have hbeside : Beside provider turns w s' := by
    have hcalled : Beside provider turns w (provider.observed.deleteMany keys s).2 := h.beside.observe (fun _ => rfl)
    rwa [hobserved] at hcalled
  have hcalls : s'.calls = s.calls ++ [(.deleteMany keys, provider.store s.turn.world)] := by rw [hs']
  have hdeletes : s'.deletes = s.deletes ++ keys := by
    rw [hs']
    exact Observed.deletes_append _ _ _ _ _
  have hworld : s'.world = w' := by rw [hs']
  have hclear : TenantsService.clearPage provider.observed keys deleted failures =
      provider.observed.deleteMany keys >>= fun outcome =>
        pure (deleted + outcome.deleted.length, failures ++ outcome.failed) :=
    if_pos (List.length_pos_of_ne_nil hkeys)
  have hstarts : ∀ key ∈ keys, pathPrefix <+: key :=
    fun key hk => ((mem_objectKeys _ _ _ _).mp (hpage.within key hk).1).1
  have hstored : ∀ slot, ((provider.store s'.world).lookup slot).isSome = true →
      ((provider.store s.world).lookup slot).isSome = true ∨ FilledIn provider w (schedule turns s'.calls) slot :=
    fun _ hsome => h.beside.stored_cases hshared listing hbeside hcalls hsome
  refine ⟨(deleted + outcome.deleted.length, failures ++ outcome.failed), s', ?_, ?_, ⟨hbeside, ?_, ?_, ?_, ?_, ?_⟩,
    hstored, fun hnil => absurd hnil hkeys, ?_⟩
  · rw [hclear, Async.bind_of_ok hobserved, Async.pure_apply]
  · rw [hs']
    exact (turn_environment_length s).trans_le (Nat.sub_le _ _)
  · intro call hcall
    rw [hcalls] at hcall
    rcases List.mem_append.mp hcall with hcall | hcall
    · exact h.calls call hcall
    · rw [List.mem_singleton.mp hcall]
      exact trivial
  · rw [hdeletes]
    exact List.nodup_append.mpr ⟨h.nodup, hpage.nodup,
      fun a ha b hb he => (h.within a ha).2 (he ▸ (hpage.within b hb).2)⟩
  · rw [hdeletes]
    intro key hk
    rcases List.mem_append.mp hk with hk | hk
    · exact ⟨(h.within key hk).1, fun hafter => (h.within key hk).2 (hpage.after_of_after_next hafter)⟩
    · exact ⟨hstarts key hk, hpage.not_after_next hk⟩
  · have hlength := hperm.length_eq
    have hcount := h.count
    rw [List.length_append, List.length_map] at hlength
    rw [hdeletes, List.length_append, List.length_append]
    omega
  · intro key hkey hbound hsome
    have hkept : key ∉ outcome.deleted := by
      intro hd
      rw [hworld, hstore, if_pos ⟨rfl, hd⟩] at hsome
      cases hsome
    rw [List.map_append, List.mem_append]
    rcases hstored _ hsome with hbefore | hfilled
    · by_cases hafter : After listing.before bound key
      · rcases hpage.passed hafter hbound with hmem | hmem
        · -- it was on the page, and is not among the deleted
          exact Or.inl (Or.inr ((List.mem_append.mp (hperm.mem_iff.mpr hmem)).resolve_left hkept))
        · exact absurd ((mem_objectKeys _ _ _ _).mpr ⟨hkey, hbefore⟩) hmem
      · rcases h.left key hkey hafter hbefore with hfailed | hfilled
        · exact Or.inl (Or.inl hfailed)
        · rw [hcalls, schedule_concat]
          exact Or.inr (hfilled.append _)
    · exact Or.inr hfilled
  · intro hnone key hkey
    rw [mem_objectKeys, hworld, hstore, turn_alone hnone] at hkey
    rw [mem_objectKeys]
    refine ⟨hkey.1, ?_⟩
    have hsome := hkey.2
    split at hsome
    · cases hsome
    · exact hsome

open Classical in
/-- The keys still to be listed. -/
noncomputable def remaining (listing : provider.ListContract) (pathPrefix : JsString) (w : W)
    (bound : Option JsString) :
    Finset JsString :=
  (objectKeys (provider.store w) provider.bucket pathPrefix).filter (After listing.before bound)

theorem mem_remaining {w : W} {key : JsString} : key ∈ remaining listing pathPrefix w bound ↔
    key ∈ objectKeys (provider.store w) provider.bucket pathPrefix ∧ After listing.before bound key := by
  classical
  exact Finset.mem_filter

theorem remaining_lt {w w' : W} {keys : List JsString}
    (hpage : IsPage listing.before {key | key ∈ objectKeys (provider.store w) provider.bucket pathPrefix} bound keys)
    (hne : keys ≠ []) (hsub : objectKeys (provider.store w') provider.bucket pathPrefix ⊆
      objectKeys (provider.store w) provider.bucket pathPrefix) :
    (remaining listing pathPrefix w' (nextBound bound keys)).card < (remaining listing pathPrefix w bound).card := by
  have := listing.order
  obtain ⟨key, hkey⟩ := List.exists_mem_of_ne_nil keys hne
  apply Finset.card_lt_card
  rw [Finset.ssubset_iff_of_subset]
  · refine ⟨key, mem_remaining.mpr (hpage.within key hkey), fun hmem => ?_⟩
    exact hpage.not_after_next hkey (mem_remaining.mp hmem).2
  · intro other hother
    obtain ⟨hmem, hafter⟩ := mem_remaining.mp hother
    exact mem_remaining.mpr ⟨hsub hmem, hpage.after_of_after_next hafter⟩

/-- A round of `clear`: it is the last one, or the loop goes on from where the page ended. -/
theorem ClearingBeside.round (hshared : SharedContract provider) (hdelete : provider.DeleteManyContract)
    (h : ClearingBeside listing pathPrefix turns w s bound deleted failures) {cursor : Option JsString}
    (hcursor : cursor.bind listing.bound = bound) :
    ∃ counts s' bound', s'.environment.length ≤ s.environment.length - 1 ∧
      ClearingBeside listing pathPrefix turns w s' bound' counts.1 counts.2 ∧
      ((LeftBeside provider pathPrefix turns w s' counts.2 ∧ ∀ fuel,
          TenantsService.clearLoop provider.observed pathPrefix (fuel + 1) cursor deleted failures s =
            (.ok (some counts), s')) ∨
        ∃ token, listing.bound token = bound' ∧
          (∀ fuel, TenantsService.clearLoop provider.observed pathPrefix (fuel + 1) cursor deleted failures s =
            TenantsService.clearLoop provider.observed pathPrefix fuel (some token) counts.1 counts.2 s') ∧
          (s.environment = [] →
            (remaining listing pathPrefix s'.world bound').card < (remaining listing pathPrefix s.world bound).card ∨
            (remaining listing pathPrefix s'.world bound').card = (remaining listing pathPrefix s.world bound).card ∧
              ∃ page, provider.service.list ⟨pathPrefix, none, cursor⟩ s.world = (.ok page, s'.world) ∧
                page.objects = [] ∧ page.nextContinuationToken = some token)) := by
  have := listing.order
  obtain ⟨page, s₁, hlist, hlength₁, h₁, hpage, hmore, htoken, halone⟩ := h.list hshared hcursor
  obtain ⟨counts, s₂, hclear, hlength₂, h₂, hstored, hsame, hsub⟩ := h₁.deletePage hshared hdelete hpage
  refine ⟨counts, s₂, _, hlength₁ ▸ hlength₂, h₂, ?_⟩
  cases hnext : page.nextContinuationToken with
  | none =>
    refine Or.inl ⟨?_, fun fuel => ?_⟩
    · intro key hkey hsome
      by_cases hafter : After listing.before (nextBound bound (page.objects.map ListedObject.key)) key
      · rcases hstored _ hsome with hbefore | hfilled
        · -- the page would not have been the last
          have hlisted := (mem_objectKeys _ _ _ _).mpr ⟨hkey, hbefore⟩
          have hlast := hmore.mpr ⟨key, hlisted, (hpage.after_next_iff hlisted).mp hafter⟩
          rw [hnext] at hlast
          cases hlast
        · exact Or.inr hfilled
      · exact h₂.left key hkey hafter hsome
    · rw [TenantsService.clearLoop, Async.bind_of_ok hlist, Async.bind_of_ok hclear, hnext]
      rfl
  | some token =>
    refine Or.inr ⟨token, htoken token hnext, fun fuel => ?_, fun hnone => ?_⟩
    · rw [TenantsService.clearLoop, Async.bind_of_ok hlist, Async.bind_of_ok hclear, hnext]
    · obtain ⟨hstore, hrun⟩ := halone hnone
      have hnone₁ : s₁.environment = [] := by
        rw [hnone] at hlength₁
        exact List.length_eq_zero_iff.mp hlength₁
      have hworld : remaining listing pathPrefix s.world bound = remaining listing pathPrefix s₁.world bound := by
        rw [remaining, remaining, hstore]
      rw [hworld]
      by_cases hempty : page.objects.map ListedObject.key = []
      · refine Or.inr ⟨?_, page, ?_, List.map_eq_nil_iff.mp hempty, hnext⟩
        · rw [hsame hempty, hempty]
          rfl
        · rw [hrun, hsame hempty]
      · exact Or.inl (remaining_lt hpage hempty (hsub hnone₁))

/-- What a `clear` that ended has come to. -/
def EndsWith (listing : provider.ListContract) (pathPrefix : JsString) (turns : List (List Neighbour)) (w : W)
    (cursor : Option JsString) (deleted : Nat) (failures : List FailedDeletion) (s : Observed W) : Prop :=
  ∃ rounds counts s' bound', (∀ fuel, rounds ≤ fuel →
      TenantsService.clearLoop provider.observed pathPrefix fuel cursor deleted failures s = (.ok (some counts), s')) ∧
    ClearingBeside listing pathPrefix turns w s' bound' counts.1 counts.2 ∧
    LeftBeside provider pathPrefix turns w s' counts.2

/-- One round in front of a loop that ends. -/
theorem EndsWith.after_round {cursor token : Option JsString} {counts : Nat × List FailedDeletion} {s' : Observed W}
    (hround : ∀ fuel, TenantsService.clearLoop provider.observed pathPrefix (fuel + 1) cursor deleted failures s =
      TenantsService.clearLoop provider.observed pathPrefix fuel token counts.1 counts.2 s')
    (h : EndsWith listing pathPrefix turns w token counts.1 counts.2 s') :
    EndsWith listing pathPrefix turns w cursor deleted failures s := by
  obtain ⟨rounds, counts', s'', bound', hloop, hrest⟩ := h
  refine ⟨rounds + 1, counts', s'', bound', fun fuel hfuel => ?_, hrest⟩
  obtain ⟨fuel, rfl⟩ := Nat.exists_eq_add_of_le' (Nat.le_of_add_left_le hfuel)
  rw [hround]
  exact hloop fuel (by omega)

/-- The last round of a loop. -/
theorem EndsWith.last_round {cursor : Option JsString} {counts : Nat × List FailedDeletion} {s' : Observed W}
    (hlast : ∀ fuel, TenantsService.clearLoop provider.observed pathPrefix (fuel + 1) cursor deleted failures s =
      (.ok (some counts), s'))
    (h : ClearingBeside listing pathPrefix turns w s' bound counts.1 counts.2)
    (hleft : LeftBeside provider pathPrefix turns w s' counts.2) :
    EndsWith listing pathPrefix turns w cursor deleted failures s := by
  refine ⟨1, counts, s', bound, fun fuel hfuel => ?_, h, hleft⟩
  obtain ⟨fuel, rfl⟩ := Nat.exists_eq_add_of_le' hfuel
  exact hlast fuel

/-- With nobody beside it any more the loop ends: a page with keys leaves fewer to list, and
pages without come finitely often. -/
theorem clearLoop_ends_alone (hshared : SharedContract provider) (hdelete : provider.DeleteManyContract) (n : Nat) :
    ∀ (s : Observed W) (cursor bound : Option JsString) (deleted : Nat) (failures : List FailedDeletion),
      ClearingBeside listing pathPrefix turns w s bound deleted failures → cursor.bind listing.bound = bound →
      s.environment = [] → (remaining listing pathPrefix s.world bound).card = n →
      EndsWith listing pathPrefix turns w cursor deleted failures s := by
  induction n using Nat.strongRecOn with
  | _ n ih =>
    intro s cursor
    generalize hcurrent : (s.world, cursor) = current
    induction current using (listing.emptyPages pathPrefix none).induction generalizing s cursor with
    | _ current ihEmpty =>
      intro bound deleted failures h hcursor hnone hn
      subst hcurrent
      obtain ⟨counts, s', bound', hlength, h', hround⟩ := h.round hshared hdelete hcursor
      rw [hnone, List.length_nil, Nat.zero_sub, Nat.le_zero, List.length_eq_zero_iff] at hlength
      rcases hround with ⟨hleft, hlast⟩ | ⟨token, htoken, hnext, halone⟩
      · exact EndsWith.last_round hlast h' hleft
      · refine EndsWith.after_round hnext ?_
        rcases halone hnone with hless | ⟨hsame, page, hrun, hempty, htoken'⟩
        · exact ih _ (hn ▸ hless) s' (some token) bound' _ _ h' htoken hlength rfl
        · exact ihEmpty (s'.world, some token) ⟨page, hrun, hempty, htoken', rfl⟩ s' (some token) rfl bound' _ _ h'
            htoken hlength (hsame.trans hn)

/-- Beside an environment that takes finitely many turns it comes to be alone. -/
theorem clearLoop_ends (hshared : SharedContract provider) (hdelete : provider.DeleteManyContract) (n : Nat) :
    ∀ (s : Observed W) (cursor bound : Option JsString) (deleted : Nat) (failures : List FailedDeletion),
      ClearingBeside listing pathPrefix turns w s bound deleted failures → cursor.bind listing.bound = bound →
      s.environment.length = n → EndsWith listing pathPrefix turns w cursor deleted failures s := by
  induction n using Nat.strongRecOn with
  | _ n ih =>
    intro s cursor bound deleted failures h hcursor hn
    by_cases hnone : s.environment = []
    · exact clearLoop_ends_alone hshared hdelete _ s cursor bound deleted failures h hcursor hnone rfl
    · obtain ⟨counts, s', bound', hlength, h', hround⟩ := h.round hshared hdelete hcursor
      have hpos := List.length_pos_of_ne_nil hnone
      rcases hround with ⟨hleft, hlast⟩ | ⟨token, htoken, hnext, -⟩
      · exact EndsWith.last_round hlast h' hleft
      · exact EndsWith.after_round hnext (ih _ (by omega) s' (some token) bound' _ _ h' htoken rfl)

end Rounds

/-- What a `clear` has done by its answer, beside others who took these turns. -/
structure ClearedBeside (provider : Provider W) (pathPrefix : JsString) (turns : List (List Neighbour)) (w : W)
    (s : Observed W) (view : TenantClearView) : Prop where
  beside : Beside provider turns w s
  once : s.deletes.Nodup
  own : ∀ key ∈ s.deletes, pathPrefix <+: key
  count : view.deleted + view.failed = s.deletes.length
  left : ∀ key, pathPrefix <+: key →
    ((provider.store s.world).lookup ⟨provider.bucket, key⟩).isSome = true →
    key ∈ view.failures.map FailedDeletion.key ∨ FilledIn provider w (schedule turns s.calls) ⟨provider.bucket, key⟩
  frame : ∀ slot, ¬ (slot.bucket = provider.bucket ∧ pathPrefix <+: slot.key) →
    (∀ turn ∈ turns.take s.calls.length, ∀ neighbour ∈ turn,
      neighbour.stores provider ≠ some slot ∧ ¬ neighbour.Empties provider slot) →
    (provider.store s.world).lookup slot = (provider.store w).lookup slot

theorem ClearingBeside.cleared (h : SharedContract provider) {listing : provider.ListContract} {pathPrefix : JsString}
    {turns : List (List Neighbour)} {w : W} {s : Observed W} {bound : Option JsString} {deleted : Nat}
    {failures : List FailedDeletion} (hs : ClearingBeside listing pathPrefix turns w s bound deleted failures)
    (hleft : LeftBeside provider pathPrefix turns w s failures) (tenant : JsString) (note : String) :
    ClearedBeside provider pathPrefix turns w s ⟨tenant, pathPrefix, deleted, failures.length, failures, note⟩ where
  beside := hs.beside
  once := hs.nodup
  own key hkey := (hs.within key hkey).1
  count := hs.count
  left := hleft
  frame slot hslot htouches := by
    rw [hs.beside.world]
    refine lookup_of_untouched h listing (fun neighbour hmem => ?_)
    rcases mem_schedule hmem with ⟨turn, hturn, hneighbour⟩ | ⟨⟨call, store⟩, hcall, rfl⟩
    · exact htouches turn hturn neighbour hneighbour
    · -- a call of its own empties slots under the prefix only
      have hclears : ClearsBy call := hs.calls _ hcall
      cases call with
      | list options => exact ⟨fun hstores => (by cases hstores), fun hempties => hempties⟩
      | deleteMany keys =>
        refine ⟨fun hstores => (by cases hstores), fun hempties => hslot ⟨hempties.1, ?_⟩⟩
        exact (hs.within _ (List.mem_flatMap.mpr ⟨_, hcall, hempties.2⟩)).1
      | upload options => exact hclears.elim
      | head key bucket => exact hclears.elim
      | download options => exact hclears.elim
      | delete key bucket => exact hclears.elim
      | copy options => exact hclears.elim

/-- A request that stores an object is a neighbour's call, and reaches a tenant's folder only
where that is its own. -/
theorem Operation.neighbour (provider : Provider W) (keyPrefix : JsString) (sha256 : List Byte → HexDigest)
    (operation : Operation) : ∃ neighbour : Neighbour,
      (∀ w, operation.perform provider keyPrefix sha256 w = neighbour.act provider w) ∧
      neighbour.stores provider = provider.slot none (operation.key sha256) := by
  cases operation with
  | fileUpload request uuid => exact ⟨.call (.upload (request.options uuid)), fun _ => rfl, rfl⟩
  | idempotentUpload body =>
    refine ⟨.call (.upload { plainUploadOptions (idempotentKey (sha256 (encodeUtf8 body.idempotencyKey)))
        (.buffer (encodeUtf8 body.content)) body.contentType (some (encodeUtf8 body.content).length) with
          idempotencyKey := some body.idempotencyKey }), fun w => ?_, rfl⟩
    rw [Operation.perform, UploadsService.uploadIdempotent, Async.bind_world _ (fun _ _ => rfl)]
    rfl
  | signedPut category uuid object => exact ⟨.signedPut category uuid object, fun _ => rfl, rfl⟩
  | scannerUpload body uuid =>
    refine ⟨.call (.upload (plainUploadOptions (ScannerLabService.uploadedKey body uuid)
      (.buffer (encodeUtf8 body.content)) (js "text/plain") (some (encodeUtf8 body.content).length))), fun w => ?_, rfl⟩
    rw [Operation.perform, ScannerLabService.upload, Async.bind_world _ (fun _ _ => rfl)]
    rfl
  | tenantUpload tenant body uuid =>
    refine ⟨.call (.upload (plainUploadOptions (tenantKey tenant body.category body.extension uuid)
      (.buffer (encodeUtf8 body.content)) tenantContentType (some (encodeUtf8 body.content).length))), fun w => ?_, rfl⟩
    rw [Operation.perform, TenantsService.upload, Async.bind_world _ (fun _ _ => rfl)]
    rfl

theorem memory_sharedContract (bucket : JsString) : SharedContract (Memory.provider bucket) where
  upload := Memory.upload_contract bucket
  put := Memory.put_contract bucket
  faulty := Memory.faulty_contract bucket
  download options m := by
    change Async.Settles (Memory.download bucket options) m _ _
    unfold Async.Settles Memory.download
    cases Memory.find bucket m options.bucket options.key <;> rfl
  deleteMany keys m := Memory.deleteMany_among bucket keys m

/-- A bucket with two objects of `acme`. -/
def acmeVault : Memory := ⟨sharedStore, 3⟩

def acmeUpload : Neighbour :=
  .call (.upload (plainUploadOptions (js "acme/notes/c.txt") (.buffer [104]) tenantContentType (some 1)))

/-- A client reads a tenant's listing page by page, each page with the cursor of the one
before it; `reads` pairs what each page shows with the world it was listed in. -/
inductive TenantPages (provider : Provider W) (keyPrefix : JsString) (t : TenantSlug) (category : Option TenantCategory)
    (maxKeys : Option Nat) : Option JsString → List (W × TenantListView) → Option JsString → Prop where
  | nil (cursor : Option JsString) : TenantPages provider keyPrefix t category maxKeys cursor [] cursor
  | cons {cursor last : Option JsString} {w w' : W} {view : TenantListView} {reads : List (W × TenantListView)} :
    TenantsService.list provider.service keyPrefix t ⟨category, cursor, maxKeys⟩ w = (.ok view, w') →
      (reads = [] ∨ view.nextCursor.isSome = true) →
      TenantPages provider keyPrefix t category maxKeys view.nextCursor reads last →
      TenantPages provider keyPrefix t category maxKeys cursor ((w, view) :: reads) last

def TenantListView.keys (view : TenantListView) : List JsString := view.objects.map TenantObjectView.key

section Pages
variable {keyPrefix : JsString} {t : TenantSlug} {category : Option TenantCategory} {maxKeys : Option Nat}

/-- What a page of the tenant's shows, by the library's listing. -/
theorem tenantPage (listing : provider.ListContract) {cursor : Option JsString} {w w' : W} {view : TenantListView}
    (h : TenantsService.list provider.service keyPrefix t ⟨category, cursor, maxKeys⟩ w = (.ok view, w')) :
    IsPage listing.before {key | key ∈ objectKeys (provider.store w) provider.bucket (tenantPrefix t category)}
      (cursor.bind listing.bound) view.keys ∧
    (view.nextCursor.isSome = true ↔
      ∃ key ∈ objectKeys (provider.store w) provider.bucket (tenantPrefix t category),
        After listing.before (cursor.bind listing.bound) key ∧ key ∉ view.keys) ∧
    ∀ token ∈ view.nextCursor, listing.bound token = nextBound (cursor.bind listing.bound) view.keys := by
  obtain ⟨page, w₁, hrun, -, hpage, hmore, htoken⟩ :=
    (listing.lists ⟨tenantPrefix t category, maxKeys, cursor⟩ w).exists_ok
  rw [TenantsService.list, Async.bind_of_ok hrun] at h
  cases h
  have hkeys : TenantListView.keys ⟨t.text, tenantPrefix t category,
      page.objects.map (TenantsService.toObjectView keyPrefix), page.nextContinuationToken, appLevelNote⟩ =
        page.objects.map ListedObject.key := by
    rw [TenantListView.keys, List.map_map]
    rfl
  rw [hkeys]
  exact ⟨hpage, hmore, htoken⟩

/-- The pages a client reads are pages of what lies under the prefix at each reading. -/
theorem TenantPages.pagesRead (listing : provider.ListContract) {cursor last : Option JsString}
    {reads : List (W × TenantListView)} (h : TenantPages provider keyPrefix t category maxKeys cursor reads last) :
    ∃ bound, PagesRead listing.before (cursor.bind listing.bound) (reads.map fun read =>
        ({key | key ∈ objectKeys (provider.store read.1) provider.bucket (tenantPrefix t category)}, read.2.keys))
        bound ∧
      (last = none → reads ≠ [] → ∀ read ∈ reads.getLast?, ∀ key ∈
        objectKeys (provider.store read.1) provider.bucket (tenantPrefix t category),
          ¬ After listing.before bound key) := by
  have := listing.order
  induction h with
  | nil cursor => exact ⟨_, .nil _, fun _ hne => absurd rfl hne⟩
  | @cons cursor last w w' view reads hlist hrest hpages ih =>
    obtain ⟨hpage, hmore, htoken⟩ := tenantPage listing hlist
    cases hnext : view.nextCursor with
    | none =>
      rw [hnext] at hrest hmore
      have hnil : reads = [] := hrest.resolve_right Bool.false_ne_true
      subst hnil
      refine ⟨_, .cons hpage (.nil _), fun _ _ read hread key hkey hafter => ?_⟩
      cases Option.some.inj hread
      exact absurd (hmore.mpr ⟨key, hkey, (hpage.after_next_iff hkey).mp hafter⟩) Bool.false_ne_true
    | some token =>
      rw [hnext] at ih
      obtain ⟨bound, hread, hlast⟩ := ih
      rw [Option.bind_some, htoken token hnext] at hread
      refine ⟨bound, .cons hpage hread, fun hnone _ => ?_⟩
      cases reads with
      | nil =>
        cases hpages
        rw [hnext] at hnone
        cases hnone
      | cons read reads =>
        rw [List.getLast?_cons_cons]
        exact hlast hnone (List.cons_ne_nil read reads)

/-- However others write between the pages, no key is shown twice, what a page shows was
there when it was read, and a key that was there each time is shown once the client has come
to the end. -/
theorem tenant_pages_beside_others (listing : provider.ListContract) {last : Option JsString}
    {reads : List (W × TenantListView)} (h : TenantPages provider keyPrefix t category maxKeys none reads last) :
    (reads.flatMap fun read => read.2.keys).Nodup ∧
    (∀ read ∈ reads, ∀ key ∈ read.2.keys,
      key ∈ objectKeys (provider.store read.1) provider.bucket (tenantPrefix t category)) ∧
    (last = none → reads ≠ [] → ∀ key,
      (∀ read ∈ reads, key ∈ objectKeys (provider.store read.1) provider.bucket (tenantPrefix t category)) →
        key ∈ reads.flatMap fun read => read.2.keys) := by
  have := listing.order
  obtain ⟨bound, hreads, hlast⟩ := h.pagesRead listing
  have hshown : shown (reads.map fun read =>
      ({key | key ∈ objectKeys (provider.store read.1) provider.bucket (tenantPrefix t category)}, read.2.keys)) =
        reads.flatMap fun read => read.2.keys := by
    rw [shown, List.flatMap_map]
  refine ⟨hshown ▸ hreads.nodup, fun read hread => hreads.mem_read _ (List.mem_map_of_mem hread), ?_⟩
  intro hnone hne key hkey
  rw [← hshown, hreads.shown_iff_of_lasting]
  · refine ⟨fun b hb => (by cases hb), ?_⟩
    obtain ⟨read, hread⟩ := Option.isSome_iff_exists.mp (List.getLast?_isSome.mpr hne)
    exact hlast hnone hne read hread key (hkey read (List.mem_of_getLast? hread))
  · intro _ hmem
    obtain ⟨read, hread, rfl⟩ := List.mem_map.mp hmem
    exact hkey read hread

end Pages

/-- The bucket once another upload has stored in front of the page that was read. -/
def acmeVaultLater : Memory := acmeVault.write ⟨js "vault", js "acme/notes/0.txt"⟩ (.plain [48] none [] 3)

theorem mem_acmeVaultLater (key : JsString) : key ∈ objectKeys acmeVaultLater.store (js "vault") (js "acme/") ↔
    key = js "acme/notes/0.txt" ∨ key = js "acme/notes/a.txt" ∨ key = js "acme/notes/b.txt" := by
  change key ∈ objectKeys (sharedStore.insert _ _) _ _ ↔ _
  rw [mem_objectKeys_insert, objectKeys_sharedStore, Finset.mem_insert, Finset.mem_singleton]
  refine or_congr_left ⟨?_, ?_⟩
  · rintro ⟨h, -⟩
    exact (congrArg Slot.key h).symm
  · rintro rfl
    exact ⟨rfl, by decide⟩

/-- The listing of `acme` read one key a page, with an upload in between: the cursor comes to an
end, and what was there all along is shown. -/
theorem acme_pages : ∃ first second cursor,
    TenantsService.list (Memory.provider (js "vault")).service (js "storage-example") acme ⟨none, none, some 1⟩
        acmeVault =
      (.ok first, acmeVault) ∧ first.nextCursor = some cursor ∧
    TenantsService.list (Memory.provider (js "vault")).service (js "storage-example") acme ⟨none, some cursor, some 1⟩
      acmeVaultLater = (.ok second, acmeVaultLater) ∧ second.nextCursor = none ∧
    (first.keys ++ second.keys).Nodup ∧ js "acme/notes/a.txt" ∈ first.keys ++ second.keys ∧
    js "acme/notes/b.txt" ∈ first.keys ++ second.keys := by
  have hbefore : Memory.remaining (js "vault") acmeVault (js "acme/") none =
      [js "acme/notes/a.txt", js "acme/notes/b.txt"] := by
    refine Memory.remaining_eq _ (by decide) (fun key => ?_)
    change _ ↔ key ∈ objectKeys sharedStore _ _ ∧ _
    rw [objectKeys_sharedStore]
    simp [After]
  have hlater : Memory.remaining (js "vault") acmeVaultLater (js "acme/") (some (js "acme/notes/a.txt")) =
      [js "acme/notes/b.txt"] := by
    refine Memory.remaining_eq _ (by decide) (fun key => ?_)
    rw [mem_acmeVaultLater, List.mem_singleton]
    constructor
    · rintro rfl
      exact ⟨Or.inr (Or.inr rfl), fun b hb => by cases hb; decide⟩
    · rintro ⟨rfl | rfl | rfl, hafter⟩
      · exact absurd (hafter _ rfl) (by decide)
      · exact absurd (hafter _ rfl) (by decide)
      · rfl
  obtain ⟨-, hcursor⟩ := Memory.page_one (js "vault") hbefore
  obtain ⟨-, hend⟩ := Memory.page_one (js "vault") hlater
  rw [if_neg (List.cons_ne_nil _ _)] at hcursor
  rw [if_pos rfl] at hend
  obtain ⟨first, hfirst⟩ : ∃ first, TenantsService.list (Memory.provider (js "vault")).service (js "storage-example")
      acme ⟨none, none, some 1⟩ acmeVault = (.ok first, acmeVault) := ⟨_, rfl⟩
  obtain ⟨second, hsecond⟩ : ∃ second, TenantsService.list (Memory.provider (js "vault")).service
      (js "storage-example") acme ⟨none, some (js "acme/notes/a.txt"), some 1⟩ acmeVaultLater =
        (.ok second, acmeVaultLater) := ⟨_, rfl⟩
  have hfirstCursor : first.nextCursor = some (js "acme/notes/a.txt") := by
    cases hfirst
    exact hcursor
  have hsecondCursor : second.nextCursor = none := by
    cases hsecond
    exact hend
  have hlast : TenantPages (Memory.provider (js "vault")) (js "storage-example") acme none (some 1) first.nextCursor
      [(acmeVaultLater, second)] second.nextCursor := by
    rw [hfirstCursor]
    exact .cons hsecond (Or.inl rfl) (.nil _)
  have hpages := TenantPages.cons hfirst (Or.inr (by rw [hfirstCursor]; rfl)) hlast
  obtain ⟨hnodup, -, hshown⟩ := tenant_pages_beside_others (Memory.list_contract (js "vault")) hpages
  have hthere : ∀ key ∈ [js "acme/notes/a.txt", js "acme/notes/b.txt"],
      ∀ read ∈ [(acmeVault, first), (acmeVaultLater, second)],
        key ∈ objectKeys (Memory.store read.1) (js "vault") (js "acme/") := by
    intro key hkey read hread
    rw [List.mem_pair] at hkey hread
    rcases hread with rfl | rfl
    · change key ∈ objectKeys sharedStore _ _
      rw [objectKeys_sharedStore, Finset.mem_insert, Finset.mem_singleton]
      exact hkey
    · exact (mem_acmeVaultLater key).mpr (Or.inr hkey)
  rw [List.flatMap_cons, List.flatMap_singleton] at hnodup hshown
  refine ⟨first, second, _, hfirst, hfirstCursor, hsecond, hsecondCursor, hnodup, ?_, ?_⟩
  · exact hshown hsecondCursor (List.cons_ne_nil _ _) _ (hthere _ (by decide))
  · exact hshown hsecondCursor (List.cons_ne_nil _ _) _ (hthere _ (by decide))

end NestStorageExample.Api
