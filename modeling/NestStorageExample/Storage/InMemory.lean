import NestStorageExample.Storage.Provider
import Mathlib.Data.Finset.Sort
import Mathlib.Data.List.Lex

/-! A provider that keeps its buckets in memory and never fails: the contracts have
an implementation. -/
namespace NestStorageExample.Storage
open Text Effects Collections

/-- Keys in the order of their code units. -/
def keyLe (a b : JsString) : Prop := a.map UInt16.toNat ≤ b.map UInt16.toNat

def keyLt (a b : JsString) : Prop := a.map UInt16.toNat < b.map UInt16.toNat

private theorem units_injective : Function.Injective (List.map UInt16.toNat) :=
  List.map_injective_iff.mpr (fun _ _ h => codeUnit_ext h)

instance : DecidableRel keyLe := fun _ _ => inferInstanceAs (Decidable (_ ≤ _))

instance : DecidableRel keyLt := fun _ _ => inferInstanceAs (Decidable (_ < _))

instance : IsTrans JsString keyLe := ⟨fun _ _ _ => le_trans⟩

instance : Std.Antisymm keyLe := ⟨fun _ _ hab hba => units_injective (le_antisymm hab hba)⟩

instance : Std.Total keyLe := ⟨fun _ _ => le_total _ _⟩

instance : IsStrictTotalOrder JsString keyLt where
  trichotomous _ _ hab hba := units_injective (le_antisymm (not_lt.mp hba) (not_lt.mp hab))
  irrefl _ := lt_irrefl _
  trans _ _ _ := lt_trans

theorem keyLt_iff {a b : JsString} : keyLt a b ↔ keyLe a b ∧ a ≠ b := by
  constructor
  · intro h
    exact ⟨le_of_lt h, fun he => lt_irrefl _ (he ▸ h : keyLt a a)⟩
  · rintro ⟨hle, hne⟩
    exact lt_of_le_of_ne hle (fun he => hne (units_injective he))

/-- The buckets, and the number of writes so far. -/
structure Memory where
  store : Store
  writes : Nat

namespace Memory

def write (m : Memory) (slot : Slot) (object : StoredObject) : Memory := ⟨m.store.insert slot object, m.writes + 1⟩

def erase (m : Memory) (slot : Slot) : Memory := ⟨m.store.erase slot, m.writes⟩

def notFound (key : JsString) : Rejection := .storage ⟨.objectNotFound, [("key", key)]⟩

def keyInvalid (key : JsString) : Rejection := .storage ⟨.keyInvalid, [("key", key)]⟩

variable (bucket : JsString)

def slot (override : Option JsString) (key : JsString) : Option Slot :=
  (resolveKey key).map (Slot.mk (override.getD bucket))

/-- The object a call reads. -/
def find (m : Memory) (override : Option JsString) (key : JsString) : Except Rejection StoredObject :=
  match slot bucket override key with
  | none => .error (keyInvalid key)
  | some slot =>
    match m.store.lookup slot with
    | none => .error (notFound key)
    | some object => .ok object

/-- The object an upload leaves; writes are counted, and the count is the clock. -/
def uploaded (options : UploadOptions) (m : Memory) : StoredObject :=
  { StoredObject.plain options.body.bytes (some options.contentType) [] m.writes with
    cacheControl := options.cacheControl
    contentDisposition := options.contentDisposition
    customMetadata := options.metadata.getD [] }

/-- A copy is a version of its own, with the headers of its source. -/
def copied (object : StoredObject) (m : Memory) : StoredObject :=
  { object with lastModified := m.writes, version := m.writes }

def upload (options : UploadOptions) : Async Rejection Memory UploadResult := fun m =>
  match slot bucket none options.key with
  | none => (.error (keyInvalid options.key), m)
  | some slot => (.ok ⟨false⟩, m.write slot (uploaded options m))

def head (key : JsString) (override : Option JsString) : Async Rejection Memory ObjectMetadata := fun m =>
  ((find bucket m override key).map StoredObject.metadata, m)

/-- Ranges are read for the confirm scan only. -/
def download (options : DownloadOptions) : Async Rejection Memory DownloadResult := fun m =>
  ((find bucket m options.bucket options.key).map fun object =>
    ⟨[.buffer (if options.range = some (js "bytes=0-4095") then object.body.take 4096 else object.body)],
      object.metadata⟩, m)

/-- The keys a listing has still to answer, in order. -/
def remaining (m : Memory) (pathPrefix : JsString) (token : Option JsString) : List JsString :=
  ((objectKeys m.store bucket pathPrefix).filter (fun key => ∀ t ∈ token, keyLt t key)).sort keyLe

def listedObject (m : Memory) (key : JsString) : ListedObject :=
  match m.store.lookup ⟨bucket, key⟩ with
  | none => ⟨key, 0, []⟩
  | some object => ⟨key, object.body.length, object.etag⟩

def defaultMaxKeys : Nat := 1000

/-- The token of a page is its last key. -/
def page (m : Memory) (options : ListOptions) : ListResult :=
  let keys := remaining bucket m options.pathPrefix options.continuationToken
  let count := max 1 (options.maxKeys.getD defaultMaxKeys)
  ⟨(keys.take count).map (listedObject bucket m),
    if keys.drop count = [] then none else (keys.take count).getLast?⟩

def list (options : ListOptions) : Async Rejection Memory ListResult := fun m => (.ok (page bucket m options), m)

def delete (key : JsString) (override : Option JsString) : Async Rejection Memory Unit := fun m =>
  match slot bucket override key with
  | none => (.error (keyInvalid key), m)
  | some slot => (.ok (), m.erase slot)

def deleteMany (keys : List JsString) : Async Rejection Memory DeleteManyResult := fun m =>
  (.ok ⟨keys, []⟩, keys.foldl (fun m key => m.erase ⟨bucket, key⟩) m)

def copy (options : CopyOptions) : Async Rejection Memory CopyResult := fun m =>
  match find bucket m none options.sourceKey, slot bucket options.destinationBucket options.destinationKey with
  | .error e, _ => (.error e, m)
  | .ok _, none => (.error (keyInvalid options.destinationKey), m)
  | .ok object, some destination => (.ok ⟨object.etag⟩, m.write destination (copied object m))

def put (key : JsString) (object : StoredObject) (m : Memory) : Memory :=
  match slot bucket none key with
  | none => m
  | some slot => m.write slot object

def provider : Provider Memory where
  service :=
    { upload := upload bucket
      head := head bucket
      download := download bucket
      list := list bucket
      delete := delete bucket
      deleteMany := deleteMany bucket
      copy := copy bucket }
  store := Memory.store
  bucket := bucket
  put := put bucket

/-- The same library, with pages of a size it fixes itself. -/
def paged (pageSize : Nat) : Provider Memory :=
  { provider bucket with
    service := { (provider bucket).service with
      list := fun options => list bucket { options with maxKeys := some pageSize } } }

theorem find_of_lookup {m : Memory} {override : Option JsString} {key : JsString} {target : Slot}
    {object : StoredObject} (hslot : slot bucket override key = some target)
    (hobject : m.store.lookup target = some object) :
    find bucket m override key = .ok object := by
  rw [find, hslot]
  dsimp only
  rw [hobject]

theorem head_run {m : Memory} {override : Option JsString} {key : JsString} {target : Slot} {object : StoredObject}
    (hslot : slot bucket override key = some target) (hobject : m.store.lookup target = some object) :
    head bucket key override m = (.ok object.metadata, m) := by
  rw [head, find_of_lookup bucket hslot hobject]
  rfl

theorem upload_run {m : Memory} {options : UploadOptions} {target : Slot}
    (hslot : slot bucket none options.key = some target) : upload bucket options m =
      (.ok ⟨false⟩, m.write target (uploaded options m)) := by
  rw [upload, hslot]

/-- Writes take nothing away. -/
theorem write_isSome {m : Memory} {target other : Slot} {object : StoredObject}
    (h : (m.store.lookup other).isSome = true ∨ target = other) :
    ((m.write target object).store.lookup other).isSome = true := by
  by_cases hsame : other = target
  · subst hsame
    exact congrArg Option.isSome (Finmap.lookup_insert _)
  · have hkept := h.resolve_right (fun he => hsame he.symm)
    exact (congrArg Option.isSome (Finmap.lookup_insert_of_ne m.store hsame)).trans hkept

/-- An upload stores its object where the key has a slot. -/
theorem upload_isSome {m : Memory} {options : UploadOptions} {other : Slot}
    (h : (m.store.lookup other).isSome = true ∨ slot bucket none options.key = some other) :
    ((upload bucket options m).2.store.lookup other).isSome = true := by
  cases hslot : slot bucket none options.key with
  | none =>
    rw [upload, hslot]
    rw [hslot] at h
    exact h.resolve_right (Option.some_ne_none other).symm
  | some target =>
    rw [upload_run bucket hslot]
    rw [hslot, Option.some.injEq] at h
    exact write_isSome h

theorem put_isSome {m : Memory} {key : JsString} {object : StoredObject} {other : Slot}
    (h : (m.store.lookup other).isSome = true ∨ slot bucket none key = some other) :
    ((put bucket key object m).store.lookup other).isSome = true := by
  rw [put]
  cases hslot : slot bucket none key with
  | none =>
    rw [hslot] at h
    exact h.resolve_right (Option.some_ne_none other).symm
  | some target =>
    rw [hslot, Option.some.injEq] at h
    exact write_isSome h

theorem delete_run {m : Memory} {override : Option JsString} {key : JsString} {target : Slot}
    (hslot : slot bucket override key = some target) : delete bucket key override m = (.ok (), m.erase target) := by
  rw [delete, hslot]

/-- A copy of what is there, to where there is a slot, resolves. -/
theorem copy_run {m : Memory} {options : CopyOptions} {source destination : Slot} {object : StoredObject}
    (hsource : slot bucket none options.sourceKey = some source) (hobject : m.store.lookup source = some object)
    (hdestination : slot bucket options.destinationBucket options.destinationKey = some destination) :
    copy bucket options m = (.ok ⟨object.etag⟩, m.write destination (copied object m)) := by
  rw [copy, find_of_lookup bucket hsource hobject, hdestination]

theorem head_contract : (provider bucket).HeadContract where
  present {key override target object m} hslot hobject := by
    change Async.Settles (head bucket key override) m _ _
    rw [Async.Settles, head_run bucket hslot hobject]
    exact ⟨rfl, rfl⟩
  absent {key override m} habsent := by
    change Async.Settles (head bucket key override) m _ _
    unfold Async.Settles head find
    cases hslot : slot bucket override key with
    | none => rfl
    | some target =>
      have hnone : m.store.lookup target = none := habsent target hslot
      dsimp only
      rw [hnone]
      rfl

theorem download_contract : (provider bucket).DownloadContract := by
  intro key override target object m hslot hobject _
  change Async.Settles (download bucket ⟨key, override, some (js "bytes=0-4095")⟩) m _ _
  unfold Async.Settles download
  rw [find_of_lookup bucket hslot hobject]
  simp [Except.map, Chunk.bytes]

theorem emptyRange_contract : (provider bucket).EmptyRangeContract true := by
  intro key override target object m hslot hobject hempty
  change Async.Settles (download bucket ⟨key, override, some (js "bytes=0-4095")⟩) m _ _
  unfold Async.Settles download
  rw [find_of_lookup bucket hslot hobject]
  simp [Except.map, Chunk.bytes, hempty]

private theorem listedObject_key (m : Memory) (key : JsString) : (listedObject bucket m key).key = key := by
  unfold listedObject
  split <;> rfl

private theorem page_keys (m : Memory) (options : ListOptions) :
    (page bucket m options).objects.map ListedObject.key =
      (remaining bucket m options.pathPrefix options.continuationToken).take
        (max 1 (options.maxKeys.getD defaultMaxKeys)) := by
  have hkey : ListedObject.key ∘ listedObject bucket m = id := funext (listedObject_key bucket m)
  unfold page
  rw [List.map_map, hkey, List.map_id]

private theorem remaining_ascending (m : Memory) (pathPrefix : JsString) (token : Option JsString) :
    (remaining bucket m pathPrefix token).Pairwise keyLt := by
  unfold remaining
  have hle := Finset.pairwise_sort ((objectKeys m.store bucket pathPrefix).filter (∀ t ∈ token, keyLt t ·)) keyLe
  have hne := Finset.sort_nodup ((objectKeys m.store bucket pathPrefix).filter (∀ t ∈ token, keyLt t ·)) keyLe
  exact (hle.and hne).imp keyLt_iff.mpr

/-- What is left to list is the keys after the token, in order. -/
theorem remaining_eq {m : Memory} {pathPrefix : JsString} {token : Option JsString} {keys : List JsString}
    (hkeys : keys.Pairwise keyLt)
    (hmem : ∀ key, key ∈ keys ↔ key ∈ objectKeys m.store bucket pathPrefix ∧ After keyLt token key) :
    remaining bucket m pathPrefix token = keys := by
  have hfinset : (objectKeys m.store bucket pathPrefix).filter (∀ t ∈ token, keyLt t ·) = keys.toFinset := by
    ext key
    rw [Finset.mem_filter, List.mem_toFinset]
    exact (hmem key).symm
  rw [remaining, hfinset]
  exact (List.toFinset_sort keyLe (hkeys.imp fun h => (keyLt_iff.mp h).2)).mpr
    (hkeys.imp fun h => (keyLt_iff.mp h).1)

private theorem mem_remaining (m : Memory) (pathPrefix : JsString) (token : Option JsString) (key : JsString) :
    key ∈ remaining bucket m pathPrefix token ↔
      key ∈ {key | key ∈ objectKeys m.store bucket pathPrefix} ∧ After keyLt token key := by
  rw [remaining, Finset.mem_sort, Finset.mem_filter]
  rfl

/-- A page of one key: what is left to list begins with it, and its token is there when more is. -/
theorem page_one {m : Memory} {pathPrefix : JsString} {token : Option JsString} {key : JsString} {keys : List JsString}
    (h : remaining bucket m pathPrefix token = key :: keys) :
    (page bucket m ⟨pathPrefix, some 1, token⟩).objects.map ListedObject.key = [key] ∧
      (page bucket m ⟨pathPrefix, some 1, token⟩).nextContinuationToken = if keys = [] then none else some key := by
  rw [page_keys, page, h]
  exact ⟨rfl, rfl⟩

/-- A page that is cut short has a last key. -/
private theorem page_token (m : Memory) (options : ListOptions) :
    ((page bucket m options).nextContinuationToken.isSome = true ↔
      (remaining bucket m options.pathPrefix options.continuationToken).drop
        (max 1 (options.maxKeys.getD defaultMaxKeys)) ≠ []) ∧
    ∀ token ∈ (page bucket m options).nextContinuationToken,
      ((page bucket m options).objects.map ListedObject.key).getLast? = some token := by
  rw [page_keys]
  unfold page
  dsimp only
  split
  · rename_i hdrop
    simp [hdrop]
  · rename_i hdrop
    refine ⟨iff_of_true ?_ hdrop, fun token htoken => htoken⟩
    rw [List.getLast?_isSome]
    intro htake
    rw [List.take_eq_nil_iff] at htake
    rcases htake with hzero | hnil
    · omega
    · exact hdrop (by rw [hnil, List.drop_nil])

def list_contract : (provider bucket).ListContract where
  before := keyLt
  order := inferInstance
  bound := some
  lists options m := by
    change Async.Settles (list bucket options) m _ _
    have hbound : options.continuationToken.bind some = options.continuationToken := by
      cases options.continuationToken <;> rfl
    have hkeys := remaining_ascending bucket m options.pathPrefix options.continuationToken
    have hmem := mem_remaining bucket m options.pathPrefix options.continuationToken
    obtain ⟨hmore, hlast⟩ := page_token bucket m options
    refine ⟨rfl, ?_, ?_, ?_⟩
    · rw [hbound, page_keys]
      exact isPage_take hkeys hmem _
    · rw [hbound, page_keys, hmore]
      exact drop_ne_nil_iff hkeys hmem _
    · intro token htoken
      rw [nextBound, hlast token htoken, Option.some_or]
  emptyPages pathPrefix maxKeys := by
    refine ⟨fun current => ⟨current, fun next hnext => ?_⟩⟩
    -- a page with a token is never empty
    obtain ⟨page, hrun, hempty, htoken, hsome⟩ := hnext
    have hpage : Memory.page bucket current.1 ⟨pathPrefix, maxKeys, current.2⟩ = page :=
      Except.ok.inj (congrArg Prod.fst hrun)
    obtain ⟨token, htoken'⟩ := Option.isSome_iff_exists.mp hsome
    have hlast := (page_token bucket current.1 ⟨pathPrefix, maxKeys, current.2⟩).2 token
      (by rw [hpage, htoken, htoken']; rfl)
    rw [hpage, hempty] at hlast
    cases hlast

def paged_list_contract (pageSize : Nat) : (paged bucket pageSize).ListContract where
  before := keyLt
  order := inferInstance
  bound := some
  lists options m := (list_contract bucket).lists { options with maxKeys := some pageSize } m
  emptyPages pathPrefix _ := (list_contract bucket).emptyPages pathPrefix (some pageSize)

theorem lookup_foldl_erase (keys : List JsString) (m : Memory) (slot : Slot) :
    (keys.foldl (fun m key => m.erase ⟨bucket, key⟩) m).store.lookup slot =
      if slot.bucket = bucket ∧ slot.key ∈ keys then none else m.store.lookup slot := by
  induction keys generalizing m with
  | nil => simp
  | cons key keys ih =>
    rw [List.foldl_cons, ih]
    by_cases hslot : slot = ⟨bucket, key⟩
    · subst hslot
      simp [erase]
    · have hkey : slot.bucket = bucket → slot.key ≠ key := fun hb hk => hslot (by rw [← hb, ← hk])
      have herase : (m.erase ⟨bucket, key⟩).store.lookup slot = m.store.lookup slot :=
        Finmap.lookup_erase_ne hslot
      rw [herase]
      grind

theorem deleteMany_contract : (provider bucket).DeleteManyContract := by
  intro keys m _
  refine ⟨?_, fun slot => lookup_foldl_erase bucket keys m slot⟩
  simp

theorem deleteMany_among (keys : List JsString) (m : Memory) :
    (provider bucket).DeletesAmong keys m.store (deleteMany bucket keys m).2.store := by
  intro slot
  have hlater := lookup_foldl_erase bucket keys m slot
  by_cases hslot : slot.bucket = bucket ∧ slot.key ∈ keys
  · rw [if_pos hslot] at hlater
    exact Or.inr ⟨hslot.1, hslot.2, hlater⟩
  · rw [if_neg hslot] at hlater
    exact Or.inl hlater

theorem delete_contract : (provider bucket).DeleteContract := by
  intro key override target m hslot
  change Async.Settles (delete bucket key override) m _ _
  rw [Async.Settles, delete_run bucket hslot]
  rfl

theorem put_contract : (provider bucket).PutContract := by
  intro key target object m hslot
  change (put bucket key object m).store = _
  have hslot' : slot bucket none key = some target := hslot
  rw [put, hslot']
  rfl

theorem upload_contract : (provider bucket).UploadContract := by
  intro options m
  change Async.Settles (upload bucket options) m _ _
  unfold Async.Settles upload
  cases hslot : slot bucket none options.key with
  | none => exact fun _ _ => rfl
  | some target =>
    intro other hother
    have hne : other ≠ target := fun he => hother (he ▸ hslot)
    exact Finmap.lookup_insert_of_ne _ hne

theorem faulty_contract : (provider bucket).FaultyContract where
  head key override m := by
    change Async.Settles (head bucket key override) m _ _
    unfold Async.Settles head
    cases find bucket m override key <;> rfl
  copy options m := by
    change Async.Settles (copy bucket options) m _ _
    unfold Async.Settles copy
    cases hsource : slot bucket none options.sourceKey with
    | none =>
      rw [find, hsource]
      exact Or.inl rfl
    | some source =>
      cases hobject : m.store.lookup source with
      | none =>
        rw [find, hsource]
        dsimp only
        rw [hobject]
        exact Or.inl rfl
      | some object =>
        rw [find_of_lookup bucket hsource hobject]
        cases hdestination : slot bucket options.destinationBucket options.destinationKey with
        | none => exact Or.inl rfl
        | some destination =>
          exact ⟨source, destination, object, copied object m, hsource, hdestination, hobject,
            rfl, rfl⟩
  delete key override m := by
    change Async.Settles (delete bucket key override) m _ _
    unfold Async.Settles delete
    cases hslot : slot bucket override key with
    | none => exact Or.inl rfl
    | some target => exact ⟨target, hslot, rfl⟩

end Memory

end NestStorageExample.Storage
