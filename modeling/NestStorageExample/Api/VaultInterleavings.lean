import NestStorageExample.Api.ExistenceProbes
import NestStorageExample.Api.VaultDownloads
import NestStorageExample.Runs.Suspended
import NestStorageExample.Web.Responses

/-! The requests of the vault side by side: every handler is suspended at the library calls
it awaits, and the calls of many requests are served in any order. -/
namespace NestStorageExample.Api
open Text Effects Storage Runs
variable {W : Type}

/-- The library as `VaultService` calls it. -/
structure VaultLibrary (W : Type) extends BufferedProvider W where
  listPage : VaultListOptions → Async Rejection W VaultListResult

inductive VaultCall where
  | head (key : JsString) (bucket : Option JsString)
  | downloadBuffer (options : DownloadOptions)
  | list (options : VaultListOptions)
  | delete (key : JsString) (bucket : Option JsString)
  | deleteMany (keys : List JsString)
  | copy (options : CopyOptions)

abbrev VaultCall.Answer : VaultCall → Type
  | head _ _ => Except Rejection ObjectMetadata
  | downloadBuffer _ => Except Rejection DownloadBufferResult
  | list _ => Except Rejection VaultListResult
  | delete _ _ => Except Rejection Unit
  | deleteMany _ => Except Rejection DeleteManyResult
  | copy _ => Except Rejection CopyResult

/-- The calls that `VaultBrowseController` and `VaultController` make of the service. -/
inductive VaultRequest where
  | head (key : JsString)
  | preview (key : JsString)
  | version (key versionedBucket : JsString)
  | list (query : ListQuery)
  | delete (key : JsString)
  | bulkDelete (keys : List JsString)
  | copy (options : CopyServiceOptions) (archiveBucket defaultBucket : JsString)

inductive VaultAnswer where
  | head (result : Except Rejection ObjectMetadata)
  | buffered (result : Except VaultRejection BufferedDownloadResult)
  | listed (result : Except Rejection ListResponse)
  | deleted (result : Except Rejection DeleteOneResponse)
  | bulkDeleted (result : Except Rejection DeleteManyResult)
  | copied (result : Except Rejection CopyResponse)

namespace VaultService

def head (storage : StorageService W) (key : JsString) : Async Rejection W ObjectMetadata := storage.head key none

def downloadVersion (storage : BufferedStorage W) (key versionedBucket : JsString) :
    Async VaultRejection W BufferedDownloadResult := do
  let download ← (storage.downloadBuffer ⟨key, some versionedBucket, none⟩).mapError .library
  return ⟨base64 download.buffer, download.metadata⟩

def deleteMany (storage : StorageService W) (keys : List JsString) : Async Rejection W DeleteManyResult :=
  storage.deleteMany keys

end VaultService

namespace VaultLibrary
variable (library : VaultLibrary W)

def serve : (call : VaultCall) → W → call.Answer × W
  | .head key bucket, w => library.service.head key bucket w
  | .downloadBuffer options, w => library.downloadBuffer options w
  | .list options, w => library.listPage options w
  | .delete key bucket, w => library.service.delete key bucket w
  | .deleteMany keys, w => library.service.deleteMany keys w
  | .copy options, w => library.service.copy options w

/-- A request that has the library to itself. -/
def perform : VaultRequest → W → VaultAnswer × W
  | .head key, w => Prod.map .head id (VaultService.head library.service key w)
  | .preview key, w => Prod.map .buffered id (VaultService.preview library.storage key w)
  | .version key versionedBucket, w =>
    Prod.map .buffered id (VaultService.downloadVersion library.storage key versionedBucket w)
  | .list query, w => Prod.map .listed id (VaultService.list library.listPage query w)
  | .delete key, w => Prod.map .deleted id (VaultService.deleteOne library.service key w)
  | .bulkDelete keys, w => Prod.map .bulkDeleted id (VaultService.deleteMany library.service keys w)
  | .copy options archiveBucket defaultBucket, w =>
    Prod.map .copied id (VaultService.copy library.service options archiveBucket defaultBucket w)

end VaultLibrary

/-! The handlers once more, with their awaited calls told apart. -/

abbrev VaultHandler := Suspended VaultCall VaultCall.Answer VaultAnswer

namespace VaultHandler
open Suspended

/-- What `exists` makes of the answer to its `head`. -/
def existence : Except Rejection ObjectMetadata → Except Rejection Bool
  | .ok _ => .ok true
  | .error (.storage ⟨.objectNotFound, _⟩) => .ok false
  | .error error => .error error

/-- `await this.exists(key)` in front of the rest. -/
def probing (key : JsString) (failed : Rejection → VaultHandler) (rest : Bool → VaultHandler) : VaultHandler :=
  awaiting (.head key none) fun result =>
    match existence result with
    | .ok isExisting => rest isExisting
    | .error error => failed error

/-- `await this.storage.downloadBuffer(options)`, the last call of a buffered download. -/
def buffering (options : DownloadOptions) : VaultHandler :=
  awaiting (.downloadBuffer options) fun
    | .ok download => finished (.buffered (.ok ⟨base64 download.buffer, download.metadata⟩))
    | .error error => finished (.buffered (.error (.library error)))

def deleting (key : JsString) (isExisting : Bool) : VaultHandler :=
  awaiting (.delete key none) fun
    | .ok _ => finished (.deleted (.ok ⟨key, !isExisting⟩))
    | .error error => finished (.deleted (.error error))

def removingSource (options : CopyServiceOptions) (response : CopyResponse) : VaultHandler :=
  if options.deleteSource = some true then
    awaiting (.delete options.sourceKey none) fun
      | .ok _ => finished (.copied (.ok response))
      | .error error => finished (.copied (.error error))
  else finished (.copied (.ok response))

def copying (options : CopyServiceOptions) (archiveBucket defaultBucket : JsString) : VaultHandler :=
  let isArchive := decide (options.destination = .archive)
  awaiting (.copy ⟨options.sourceKey, options.destinationKey, if isArchive then some archiveBucket else none⟩) fun
    | .ok result => removingSource options ⟨result.etag, options.sourceKey, options.destinationKey,
        if isArchive then archiveBucket else defaultBucket⟩
    | .error error => finished (.copied (.error error))

end VaultHandler

open Suspended VaultHandler in
def VaultRequest.handler : VaultRequest → VaultHandler
  | head key => awaiting (.head key none) fun result => finished (.head result)
  | preview key => awaiting (.head key none) fun
    | .ok metadata =>
      if metadata.size > VaultService.maxPreviewBytes then
        finished (.buffered (.error (.payloadTooLarge (VaultService.previewSizeExceeded metadata.size))))
      else buffering ⟨key, none, none⟩
    | .error error => finished (.buffered (.error (.library error)))
  | version key versionedBucket => buffering ⟨key, some versionedBucket, none⟩
  | list query => awaiting (.list ⟨query.pathPrefix, query.maxKeys, query.cursor, query.delimiter⟩) fun
    | .ok page => finished (.listed (.ok ⟨page.objects, page.commonPrefixes, page.isTruncated,
        page.nextContinuationToken⟩))
    | .error error => finished (.listed (.error error))
  | delete key => probing key (fun error => finished (.deleted (.error error))) (deleting key)
  | bulkDelete keys => awaiting (.deleteMany keys) fun result => finished (.bulkDeleted result)
  | copy options archiveBucket defaultBucket =>
    probing options.sourceKey (fun error => finished (.copied (.error error))) fun isSourcePresent =>
      if isSourcePresent then copying options archiveBucket defaultBucket
      else finished (.copied (.error (.storage ⟨.objectNotFound, [("key", options.sourceKey)]⟩)))


section Alone
variable {library : VaultLibrary W}

theorem existence_eq (storage : StorageService W) (key : JsString) (bucket : Option JsString) (w : W) :
    VaultService.exists_ storage key bucket w =
      (VaultHandler.existence (storage.head key bucket w).1, (storage.head key bucket w).2) := by
  obtain ⟨metadata, w', h, -⟩ | ⟨details, w', h, -⟩ | ⟨error, w', h, -, hother⟩ :=
    providerOutcome_cases storage key bucket w
  · have hprobe : (storage.head key bucket >>= fun _ => pure true) w = (.ok true, w') := Async.bind_of_ok h
    rw [VaultService.exists_, Async.tryCatch_of_ok hprobe, h]
    rfl
  · have hprobe : (storage.head key bucket >>= fun _ => pure true) w = (.error _, w') := Async.bind_of_error h
    rw [VaultService.exists_, Async.tryCatch_of_error hprobe, h]
    rfl
  · have hprobe : (storage.head key bucket >>= fun _ => pure true) w = (.error error, w') := Async.bind_of_error h
    have hexistence : VaultHandler.existence (.error error) = .error error := by
      unfold VaultHandler.existence
      split
      · cases ‹Except.error error = Except.ok _›
      · rename_i heq
        cases heq
        exact absurd rfl (hother _)
      · rename_i heq
        cases heq
        rfl
    rw [VaultService.exists_, Async.tryCatch_of_error hprobe, h, hexistence]
    split
    · exact absurd rfl (hother _)
    · rfl

theorem alone_probing (key : JsString) (failed : Rejection → VaultHandler) (rest : Bool → VaultHandler) (w : W) :
    (VaultHandler.probing key failed rest).alone library.serve w =
      match VaultService.exists_ library.service key none w with
      | (.ok isExisting, w') => (rest isExisting).alone library.serve w'
      | (.error error, w') => (failed error).alone library.serve w' := by
  have hserve : library.serve (.head key none) w = library.service.head key none w := rfl
  rw [VaultHandler.probing, Suspended.alone, hserve, existence_eq]
  generalize library.service.head key none w = outcome
  obtain ⟨result, w'⟩ := outcome
  cases VaultHandler.existence result <;> rfl

theorem alone_buffering (options : DownloadOptions) (w : W) :
    (VaultHandler.buffering options).alone library.serve w = Prod.map .buffered id
      (((library.downloadBuffer options).mapError .library >>= fun download =>
        (pure ⟨base64 download.buffer, download.metadata⟩ : Async VaultRejection W BufferedDownloadResult)) w) := by
  have hserve : library.serve (.downloadBuffer options) w = library.downloadBuffer options w := rfl
  rw [VaultHandler.buffering, Suspended.alone, hserve]
  cases hdownload : library.downloadBuffer options w with
  | mk result w' =>
    cases result with
    | ok download =>
      rw [Async.bind_of_ok (Async.mapError_of_ok hdownload)]
      rfl
    | error error =>
      rw [Async.bind_of_error (Async.mapError_of_error hdownload)]
      rfl

theorem alone_deleting (key : JsString) (isExisting : Bool) (w : W) :
    (VaultHandler.deleting key isExisting).alone library.serve w = Prod.map .deleted id
      ((library.service.delete key none >>= fun _ =>
        (pure ⟨key, !isExisting⟩ : Async Rejection W DeleteOneResponse)) w) := by
  have hserve : library.serve (.delete key none) w = library.service.delete key none w := rfl
  rw [VaultHandler.deleting, Suspended.alone, hserve]
  cases hdelete : library.service.delete key none w with
  | mk result w' =>
    cases result with
    | ok _ =>
      rw [Async.bind_of_ok hdelete]
      rfl
    | error error =>
      rw [Async.bind_of_error hdelete]
      rfl

theorem alone_removingSource (options : CopyServiceOptions) (response : CopyResponse) (w : W) :
    (VaultHandler.removingSource options response).alone library.serve w = Prod.map .copied id
      ((VaultService.removeSource library.service options >>= fun _ =>
        (pure response : Async Rejection W CopyResponse)) w) := by
  rw [VaultHandler.removingSource, VaultService.removeSource]
  split
  · have hserve : library.serve (.delete options.sourceKey none) w =
        library.service.delete options.sourceKey none w := rfl
    rw [Suspended.alone, hserve]
    cases hdelete : library.service.delete options.sourceKey none w with
    | mk result w' =>
      cases result with
      | ok _ =>
        rw [Async.bind_of_ok hdelete]
        rfl
      | error error =>
        rw [Async.bind_of_error hdelete]
        rfl
  · rfl

theorem alone_copying (options : CopyServiceOptions) (archiveBucket defaultBucket : JsString) (w : W) :
    (VaultHandler.copying options archiveBucket defaultBucket).alone library.serve w = Prod.map .copied id
      ((do
        let isArchive := decide (options.destination = .archive)
        let result ← library.service.copy
          ⟨options.sourceKey, options.destinationKey, if isArchive then some archiveBucket else none⟩
        VaultService.removeSource library.service options
        return ⟨result.etag, options.sourceKey, options.destinationKey,
          if isArchive then archiveBucket else defaultBucket⟩ : Async Rejection W CopyResponse) w) := by
  have hserve (copyOptions : CopyOptions) :
      library.serve (.copy copyOptions) w = library.service.copy copyOptions w := rfl
  rw [VaultHandler.copying, Suspended.alone, hserve]
  dsimp only
  cases hcopy : library.service.copy ⟨options.sourceKey, options.destinationKey,
      if decide (options.destination = .archive) then some archiveBucket else none⟩ w with
  | mk result w' =>
    cases result with
    | ok result =>
      rw [Async.bind_of_ok hcopy]
      exact alone_removingSource options _ w'
    | error error =>
      rw [Async.bind_of_error hcopy]
      rfl

/-- A handler with the library to itself does what the service's method does. -/
theorem handler_alone (request : VaultRequest) (w : W) :
    request.handler.alone library.serve w = library.perform request w := by
  cases request with
  | head key => rfl
  | preview key =>
    have hserve : library.serve (.head key none) w = library.service.head key none w := rfl
    rw [VaultRequest.handler, Suspended.alone, hserve, VaultLibrary.perform, VaultService.preview]
    cases hhead : library.service.head key none w with
    | mk result w' =>
      cases result with
      | ok metadata =>
        have hrun : (library.storage.head key none).mapError VaultRejection.library w = (.ok metadata, w') :=
          Async.mapError_of_ok hhead
        rw [Async.bind_of_ok hrun, Async.ite_apply]
        dsimp only
        split
        · rfl
        · exact alone_buffering _ w'
      | error error =>
        have hrun : (library.storage.head key none).mapError VaultRejection.library w = (.error (.library error), w') :=
          Async.mapError_of_error hhead
        rw [Async.bind_of_error hrun]
        rfl
  | version key versionedBucket => exact alone_buffering _ w
  | list query =>
    have hserve (options : VaultListOptions) : library.serve (.list options) w = library.listPage options w := rfl
    rw [VaultRequest.handler, Suspended.alone, hserve, VaultLibrary.perform, VaultService.list]
    cases hlist : library.listPage ⟨query.pathPrefix, query.maxKeys, query.cursor, query.delimiter⟩ w with
    | mk result w' =>
      cases result with
      | ok page =>
        rw [Async.bind_of_ok hlist]
        rfl
      | error error =>
        rw [Async.bind_of_error hlist]
        rfl
  | delete key =>
    rw [VaultRequest.handler, alone_probing, VaultLibrary.perform, VaultService.deleteOne]
    cases hexists : VaultService.exists_ library.service key none w with
    | mk result w' =>
      cases result with
      | ok isExisting =>
        rw [Async.bind_of_ok hexists]
        exact alone_deleting key isExisting w'
      | error error =>
        rw [Async.bind_of_error hexists]
        rfl
  | bulkDelete keys => rfl
  | copy options archiveBucket defaultBucket =>
    rw [VaultRequest.handler, alone_probing, VaultLibrary.perform, VaultService.copy]
    cases hexists : VaultService.exists_ library.service options.sourceKey none w with
    | mk result w' =>
      cases result with
      | ok isExisting =>
        rw [Async.bind_of_ok hexists]
        cases isExisting with
        | false => rfl
        | true => exact alone_copying options archiveBucket defaultBucket w'
      | error error =>
        rw [Async.bind_of_error hexists]
        rfl

end Alone

/-- `STORAGE_OBJECT_NOT_FOUND`, with any details. -/
def NotFound (error : Rejection) : Prop := ∃ details, error = .storage ⟨.objectNotFound, details⟩

namespace VaultLibrary
variable (library : VaultLibrary W)

def Absent (store : Store) (key : JsString) : Prop :=
  ∀ slot, library.slot none key = some slot → store.lookup slot = none

/-- The library with a provider behind it that may fail at any call. A call that fails may
have taken effect, but for a deletion that says it found nothing. -/
structure Contract : Prop where
  faulty : library.FaultyContract
  head : ∀ key w, (library.service.head key none).Settles w (fun _ _ => True)
    (fun error _ => NotFound error → library.Absent (library.store w) key)
  download : ∀ options w, (library.downloadBuffer options).Settles w
    (fun _ w' => library.store w' = library.store w) (fun _ w' => library.store w' = library.store w)
  list : ∀ options w, (library.listPage options).Settles w
    (fun _ w' => library.store w' = library.store w) (fun _ w' => library.store w' = library.store w)
  delete : ∀ key w, (library.service.delete key none).Settles w (fun _ _ => True)
    (fun error w' => NotFound error → library.store w' = library.store w)
  deleteMany : ∀ keys w, (library.service.deleteMany keys).Settles w
    (fun outcome w' => library.DeletesAmong outcome.deleted (library.store w) (library.store w'))
    (fun error w' => library.DeletesAmong keys (library.store w) (library.store w') ∧
      (NotFound error → library.store w' = library.store w))

/-- `options` as the library is asked to copy. -/
def copyOptions (options : CopyServiceOptions) (archiveBucket : JsString) : CopyOptions :=
  ⟨options.sourceKey, options.destinationKey,
    if decide (options.destination = .archive) then some archiveBucket else none⟩

/-- What is left of a request once its first call, a `head`, was answered in a world of `past`:
a deletion that knows whether the key exists, a copy that knows that its source does, a
preview that knows that the object is small enough. -/
def Probed (past : List W) : VaultRequest → VaultHandler → Prop
  | .delete key, rest => ∃ v ∈ past, ∃ isExisting,
    VaultHandler.existence (library.service.head key none v).1 = .ok isExisting ∧
      rest = VaultHandler.deleting key isExisting
  | .copy options archiveBucket defaultBucket, rest => ∃ v ∈ past,
    VaultHandler.existence (library.service.head options.sourceKey none v).1 = .ok true ∧
      rest = VaultHandler.copying options archiveBucket defaultBucket
  | .preview key, rest => ∃ v ∈ past, ∃ metadata, (library.service.head key none v).1 = .ok metadata ∧
    metadata.size ≤ VaultService.maxPreviewBytes ∧ rest = VaultHandler.buffering ⟨key, none, none⟩
  | _, _ => False

/-- A request executed at one moment of the run, a world `v` that it has come to: the whole of
it, or what is left of it since it probed. -/
def Executed (past : List W) (request : VaultRequest) (before : Store) (answer : VaultAnswer) (after : Store) : Prop :=
  ∃ v ∈ past, ∃ v', library.store v = before ∧ library.store v' = after ∧
    (library.perform request v = (answer, v') ∨
      ∃ rest, library.Probed past request rest ∧ rest.alone library.serve v = (answer, v'))

end VaultLibrary

/-- A copy that deletes its source acts twice. -/
def VaultRequest.Renames : VaultRequest → Prop
  | copy options _ _ => options.deleteSource = some true
  | _ => False

section InMemory
variable (bucket : JsString)

/-- The buckets in memory, listed as the vault lists them; nothing is grouped. -/
def memoryLibrary : VaultLibrary Memory where
  toBufferedProvider := Memory.bufferedProvider bucket
  listPage options := fun m =>
    let page := Memory.page bucket m ⟨options.pathPrefix.getD [], some options.maxKeys, options.continuationToken⟩
    (.ok ⟨page.objects, [], page.nextContinuationToken.isSome, page.nextContinuationToken⟩, m)

theorem memoryLibrary_contract : (memoryLibrary bucket).Contract where
  faulty :=
    { head := (Memory.faulty_contract bucket).head
      copy := (Memory.faulty_contract bucket).copy
      delete := (Memory.faulty_contract bucket).delete }
  head key m := by
    change Async.Settles (Memory.head bucket key none) m _ _
    unfold Async.Settles Memory.head Memory.find
    cases hslot : Memory.slot bucket none key with
    | none => exact fun _ => Provider.forall_no_slot hslot
    | some target =>
      dsimp only
      cases hobject : m.store.lookup target with
      | none => exact fun _ => Provider.forall_slot hslot hobject
      | some object => exact trivial
  download options m := by
    change Async.Settles (Memory.downloadBuffer bucket options) m _ _
    unfold Async.Settles Memory.downloadBuffer
    cases Memory.find bucket m options.bucket options.key with
    | error error => rfl
    | ok object =>
      dsimp only [Except.bind, bind]
      cases Memory.serve object.body options.range <;> rfl
  list options m := rfl
  delete key m := by
    change Async.Settles (Memory.delete bucket key none) m _ _
    unfold Async.Settles Memory.delete
    cases Memory.slot bucket none key with
    | none => exact fun _ => rfl
    | some target => exact trivial
  deleteMany keys m := Memory.deleteMany_among bucket keys m

/-- One object, under `a.pdf` of the bucket `vault`. -/
def oneObject : Memory := Memory.write ⟨∅, 0⟩ ⟨js "vault", js "a.pdf"⟩ (StoredObject.plain [37, 80] none [] 0)

/-- Two deletions arrive, both probe, both delete. -/
def bothDeletions : List (PoolEvent VaultRequest) :=
  [.arrive (.delete (js "a.pdf")), .arrive (.delete (js "a.pdf")), .serve 0, .serve 0, .serve 0, .serve 0]

private theorem both_deletions_run :
    run (Pool.next VaultRequest.handler (memoryLibrary (js "vault")).serve) (Pool.opened oneObject) bothDeletions =
        some ⟨(oneObject.erase ⟨js "vault", js "a.pdf"⟩).erase ⟨js "vault", js "a.pdf"⟩, [],
          [(.delete (js "a.pdf"), .deleted (.ok ⟨js "a.pdf", false⟩)),
            (.delete (js "a.pdf"), .deleted (.ok ⟨js "a.pdf", false⟩))]⟩ := rfl

end InMemory

section Linearizable
variable {library : VaultLibrary W}

/-- A call that leaves the stored objects as they are. -/
theorem store_of_settles {α : Type} {m : Async Rejection W α} {w : W}
    (h : m.Settles w (fun _ w' => library.store w' = library.store w) (fun _ w' => library.store w' = library.store w)) :
    library.store (m w).2 = library.store w := by
  rcases hrun : m w with ⟨_ | _, w'⟩
  · exact h.of_error hrun
  · exact h.of_ok hrun

theorem buffering_atLast (options : DownloadOptions) : (VaultHandler.buffering options).AtLast := by
  intro answer
  cases answer <;> exact ⟨_, rfl⟩

theorem deleting_atLast (key : JsString) (isExisting : Bool) : (VaultHandler.deleting key isExisting).AtLast := by
  intro answer
  cases answer <;> exact ⟨_, rfl⟩

/-- A copy that keeps its source. -/
theorem copying_atLast {options : CopyServiceOptions} (hkeeps : ¬ options.deleteSource = some true)
    (archiveBucket defaultBucket : JsString) : (VaultHandler.copying options archiveBucket defaultBucket).AtLast := by
  intro answer
  cases answer with
  | error error => exact ⟨_, rfl⟩
  | ok result => exact ⟨_, if_neg hkeeps⟩

/-- The request probes with a `head` of `key`, and has one call left at most when it knows. -/
structure Probes (library : VaultLibrary W) (request : VaultRequest) (key : JsString)
    (resume : Except Rejection ObjectMetadata → VaultHandler) : Prop where
  handler : request.handler = .awaiting (.head key none) resume
  last : ∀ answer, (resume answer).AtLast
  left : ∀ past, ∀ v ∈ past, library.Probed past request (resume (library.service.head key none v).1) ∨
    ∃ result, resume (library.service.head key none v).1 = .finished result

theorem preview_probes (library : VaultLibrary W) (key : JsString) :
    ∃ resume, Probes library (.preview key) key resume := by
  refine ⟨_, rfl, fun answer => ?_, fun past v hv => ?_⟩
  · cases answer with
    | error error => trivial
    | ok metadata =>
      dsimp only
      split
      · trivial
      · exact buffering_atLast _
  · cases hhead : (library.service.head key none v).1 with
    | error error => exact Or.inr ⟨_, rfl⟩
    | ok metadata =>
      dsimp only
      split
      · exact Or.inr ⟨_, rfl⟩
      · rename_i hsmall
        exact Or.inl ⟨v, hv, metadata, hhead, Nat.le_of_not_lt hsmall, rfl⟩

theorem delete_probes (library : VaultLibrary W) (key : JsString) :
    ∃ resume, Probes library (.delete key) key resume := by
  refine ⟨_, rfl, fun answer => ?_, fun past v hv => ?_⟩
  · cases VaultHandler.existence answer with
    | error error => trivial
    | ok isExisting => exact deleting_atLast key isExisting
  · cases hexistence : VaultHandler.existence (library.service.head key none v).1 with
    | error error => exact Or.inr ⟨_, rfl⟩
    | ok isExisting => exact Or.inl ⟨v, hv, isExisting, hexistence, rfl⟩

theorem copy_probes (library : VaultLibrary W) {options : CopyServiceOptions}
    (hkeeps : ¬ options.deleteSource = some true) (archiveBucket defaultBucket : JsString) :
    ∃ resume, Probes library (.copy options archiveBucket defaultBucket) options.sourceKey resume := by
  refine ⟨_, rfl, fun answer => ?_, fun past v hv => ?_⟩
  · cases VaultHandler.existence answer with
    | error error => trivial
    | ok isSourcePresent =>
      cases isSourcePresent with
      | false => trivial
      | true => exact copying_atLast hkeeps archiveBucket defaultBucket
  · cases hexistence : VaultHandler.existence (library.service.head options.sourceKey none v).1 with
    | error error => exact Or.inr ⟨_, rfl⟩
    | ok isSourcePresent =>
      cases isSourcePresent with
      | false => exact Or.inr ⟨_, rfl⟩
      | true => exact Or.inl ⟨v, hv, hexistence, rfl⟩

/-- A request that renames nothing makes one call, or probes before it. -/
theorem handler_shape (library : VaultLibrary W) {request : VaultRequest} (hrequest : ¬ request.Renames) :
    request.handler.AtLast ∨ ∃ key resume, Probes library request key resume := by
  cases request with
  | head key => exact Or.inl (fun _ => ⟨_, rfl⟩)
  | preview key => exact Or.inr ⟨key, preview_probes library key⟩
  | version key versionedBucket => exact Or.inl (buffering_atLast _)
  | list query =>
    refine Or.inl (fun answer => ?_)
    cases answer <;> exact ⟨_, rfl⟩
  | delete key => exact Or.inr ⟨key, delete_probes library key⟩
  | bulkDelete keys => exact Or.inl (fun _ => ⟨_, rfl⟩)
  | copy options archiveBucket defaultBucket =>
    exact Or.inr ⟨options.sourceKey, copy_probes library hrequest archiveBucket defaultBucket⟩

/-- A probe changes nothing, so what a request does it does with its last call. -/
theorem handler_actsLast (h : library.Contract) {request : VaultRequest} (hrequest : ¬ request.Renames) :
    request.handler.ActsLast library.serve library.store := by
  rcases handler_shape library hrequest with hlast | ⟨key, resume, hprobes⟩
  · exact hlast.actsLast
  · rw [hprobes.handler]
    exact fun w => Or.inr ⟨store_of_settles (h.faulty.head key none w), (hprobes.last _).actsLast⟩

/-- What is left of it before that call is the whole of it, or what is left after the probe. -/
theorem left_cases {past : List W} {request : VaultRequest} {rest : VaultHandler} {v v' : W} {answer : VaultAnswer}
    (hrequest : ¬ request.Renames) (hleft : request.handler.LeftOf library.serve past rest)
    (hends : rest.EndsIn library.serve v answer v') : rest = request.handler ∨ library.Probed past request rest := by
  rcases handler_shape library hrequest with hlast | ⟨key, resume, hprobes⟩
  · exact Or.inl ((hleft.of_atLast hlast).resolve_right hends.not_finished)
  · rw [hprobes.handler] at hleft ⊢
    rcases hleft.of_probe hprobes.last with hwhole | ⟨v₀, hv₀, rfl⟩ | hfinished
    · exact Or.inl hwhole
    · exact Or.inr ((hprobes.left past v₀ hv₀).resolve_right hends.not_finished)
    · exact absurd hfinished hends.not_finished

end Linearizable

/-- An answer that owns up to the end of an object: it reports it, or it is the failure of what
was to delete it, other than to find nothing, and leaves the outcome open. -/
def VaultLibrary.Accounts (library : VaultLibrary W) (slot : Slot) : VaultRequest → VaultAnswer → Prop
  | .delete key, .deleted (.ok response) => library.slot none key = some slot ∧ response.warned = false
  | .delete key, .deleted (.error error) => library.slot none key = some slot ∧ ¬ NotFound error
  | .bulkDelete _, .bulkDeleted (.ok outcome) => slot.bucket = library.bucket ∧ slot.key ∈ outcome.deleted
  | .bulkDelete keys, .bulkDeleted (.error error) =>
    (slot.bucket = library.bucket ∧ slot.key ∈ keys) ∧ ¬ NotFound error
  | .copy options _ _, .copied (.ok _) =>
    options.deleteSource = some true ∧ library.slot none options.sourceKey = some slot
  | .copy options _ _, .copied (.error error) =>
    (options.deleteSource = some true ∧ library.slot none options.sourceKey = some slot) ∧ ¬ NotFound error
  | _, _ => False

section Vanishing
variable {library : VaultLibrary W} {slot : Slot}

/-- The slot holds an object. -/
def VaultLibrary.Filled (library : VaultLibrary W) (slot : Slot) (w : W) : Prop :=
  ((library.store w).lookup slot).isSome = true

theorem VaultLibrary.Filled.of_same {w w' : W} (hw : library.Filled slot w) (h : library.store w' = library.store w) :
    library.Filled slot w' := by
  rwa [VaultLibrary.Filled, h]

theorem VaultLibrary.Filled.copyDone {options : CopyOptions} {w w' : W} (hw : library.Filled slot w)
    (h : library.CopyDone options (library.store w) (library.store w')) : library.Filled slot w' := by
  obtain ⟨source, destination, object, copied, -, -, -, -, hlater⟩ := h
  rw [VaultLibrary.Filled, hlater]
  by_cases hslot : slot = destination
  · subst hslot
    simp
  · rwa [Finmap.lookup_insert_of_ne _ hslot]

/-- A deletion of another key, or one that was not made. -/
theorem VaultLibrary.Filled.deleteDone {key : JsString} {w w' : W} (hw : library.Filled slot w)
    (hkey : library.slot none key ≠ some slot)
    (h : library.store w' = library.store w ∨ library.DeleteDone key none (library.store w) (library.store w')) :
    library.Filled slot w' := by
  rcases h with hsame | ⟨target, htarget, hlater⟩
  · exact hw.of_same hsame
  · have hne : slot ≠ target := fun he => hkey (he ▸ htarget)
    rw [VaultLibrary.Filled, hlater]
    rwa [Finmap.lookup_erase_ne hne]

theorem VaultLibrary.Filled.deletesAmong {keys : List JsString} {w w' : W} (hw : library.Filled slot w)
    (hkeys : ¬ (slot.bucket = library.bucket ∧ slot.key ∈ keys))
    (h : library.DeletesAmong keys (library.store w) (library.store w')) : library.Filled slot w' := by
  rcases h slot with hsame | ⟨hbucket, hkey, -⟩
  · rwa [VaultLibrary.Filled, hsame]
  · exact absurd ⟨hbucket, hkey⟩ hkeys

theorem keeps_probing (h : library.Contract) {reports : VaultAnswer → Prop} (key : JsString)
    {failed : Rejection → VaultHandler} {rest : Bool → VaultHandler}
    (hfailed : ∀ error, (failed error).KeepsOrReports library.serve (library.Filled slot) reports)
    (hrest : ∀ isExisting, (library.slot none key = some slot → isExisting = true) →
      (rest isExisting).KeepsOrReports library.serve (library.Filled slot) reports) :
    (VaultHandler.probing key failed rest).KeepsOrReports library.serve (library.Filled slot) reports := by
  intro w hw
  have hserve : library.serve (.head key none) w = library.service.head key none w := rfl
  rw [hserve]
  rcases hrun : library.service.head key none w with ⟨error | metadata, w'⟩
  · refine Or.inr ⟨hw.of_same ((h.faulty.head key none w).of_error hrun), ?_⟩
    have habsent := (h.head key w).of_error hrun
    dsimp only
    split
    · rename_i isExisting hexistence
      refine hrest isExisting (fun hslot => ?_)
      -- a `head` that finds nothing found the slot empty
      unfold VaultHandler.existence at hexistence
      split at hexistence
      · cases ‹Except.error error = Except.ok _›
      · rename_i details heq
        cases heq
        have hnone := habsent ⟨details, rfl⟩ slot hslot
        rw [VaultLibrary.Filled, hnone] at hw
        cases hw
      · cases hexistence
    · exact hfailed _
  · exact Or.inr ⟨hw.of_same ((h.faulty.head key none w).of_ok hrun), hrest true (fun _ => rfl)⟩

theorem keeps_buffering (h : library.Contract) {reports : VaultAnswer → Prop} (options : DownloadOptions) :
    (VaultHandler.buffering options).KeepsOrReports library.serve (library.Filled slot) reports := by
  intro w hw
  refine Or.inr ⟨hw.of_same (store_of_settles (h.download options w)), ?_⟩
  cases (library.serve (.downloadBuffer options) w).1 <;> trivial

theorem keeps_deleting (h : library.Contract) {key : JsString} {isExisting : Bool}
    (hexisting : library.slot none key = some slot → isExisting = true) :
    (VaultHandler.deleting key isExisting).KeepsOrReports library.serve (library.Filled slot)
      (library.Accounts slot (.delete key)) := by
  intro w hw
  have hdelete := h.faulty.delete key none w
  have hserve : library.serve (.delete key none) w = library.service.delete key none w := rfl
  rw [hserve]
  by_cases hslot : library.slot none key = some slot
  · obtain rfl := hexisting hslot
    rcases hrun : library.service.delete key none w with ⟨error | _, w'⟩
    · by_cases hnone : NotFound error
      · exact Or.inr ⟨hw.of_same ((h.delete key w).of_error hrun hnone), trivial⟩
      · exact Or.inl ⟨_, rfl, hslot, hnone⟩
    · exact Or.inl ⟨_, rfl, hslot, rfl⟩
  · rcases hrun : library.service.delete key none w with ⟨error | _, w'⟩
    · exact Or.inr ⟨hw.deleteDone hslot (hdelete.of_error hrun), trivial⟩
    · exact Or.inr ⟨hw.deleteDone hslot (Or.inr (hdelete.of_ok hrun)), trivial⟩

theorem keeps_removingSource (h : library.Contract) (options : CopyServiceOptions)
    (archiveBucket defaultBucket : JsString) (response : CopyResponse) :
    (VaultHandler.removingSource options response).KeepsOrReports library.serve (library.Filled slot)
      (library.Accounts slot (.copy options archiveBucket defaultBucket)) := by
  unfold VaultHandler.removingSource
  split
  · rename_i hdelete
    intro w hw
    have hdeleted := h.faulty.delete options.sourceKey none w
    have hserve : library.serve (.delete options.sourceKey none) w =
        library.service.delete options.sourceKey none w := rfl
    rw [hserve]
    by_cases hslot : library.slot none options.sourceKey = some slot
    · rcases hrun : library.service.delete options.sourceKey none w with ⟨error | _, w'⟩
      · by_cases hnone : NotFound error
        · exact Or.inr ⟨hw.of_same ((h.delete options.sourceKey w).of_error hrun hnone), trivial⟩
        · exact Or.inl ⟨_, rfl, ⟨hdelete, hslot⟩, hnone⟩
      · exact Or.inl ⟨_, rfl, hdelete, hslot⟩
    · rcases hrun : library.service.delete options.sourceKey none w with ⟨error | _, w'⟩
      · exact Or.inr ⟨hw.deleteDone hslot (hdeleted.of_error hrun), trivial⟩
      · exact Or.inr ⟨hw.deleteDone hslot (Or.inr (hdeleted.of_ok hrun)), trivial⟩
  · trivial

theorem keeps_copying (h : library.Contract) (options : CopyServiceOptions)
    (archiveBucket defaultBucket : JsString) :
    (VaultHandler.copying options archiveBucket defaultBucket).KeepsOrReports library.serve (library.Filled slot)
      (library.Accounts slot (.copy options archiveBucket defaultBucket)) := by
  intro w hw
  have hcopy := h.faulty.copy (VaultLibrary.copyOptions options archiveBucket) w
  have hserve : library.serve (.copy (VaultLibrary.copyOptions options archiveBucket)) w =
      library.service.copy (VaultLibrary.copyOptions options archiveBucket) w := rfl
  rw [← VaultLibrary.copyOptions, hserve]
  rcases hrun : library.service.copy (VaultLibrary.copyOptions options archiveBucket) w with ⟨error | result, w'⟩
  · refine Or.inr ⟨?_, trivial⟩
    rcases hcopy.of_error hrun with hsame | hdone
    · exact hw.of_same hsame
    · exact hw.copyDone hdone
  · exact Or.inr ⟨hw.copyDone (hcopy.of_ok hrun), keeps_removingSource h options _ _ _⟩

theorem handler_keepsOrReports (h : library.Contract) (request : VaultRequest) :
    request.handler.KeepsOrReports library.serve (library.Filled slot) (library.Accounts slot request) := by
  cases request with
  | head key =>
    intro w hw
    have hserve : library.serve (.head key none) w = library.service.head key none w := rfl
    rw [hserve]
    rcases hrun : library.service.head key none w with ⟨error | metadata, w'⟩
    · exact Or.inr ⟨hw.of_same ((h.faulty.head key none w).of_error hrun), trivial⟩
    · exact Or.inr ⟨hw.of_same ((h.faulty.head key none w).of_ok hrun), trivial⟩
  | preview key =>
    intro w hw
    have hserve : library.serve (.head key none) w = library.service.head key none w := rfl
    rw [hserve]
    rcases hrun : library.service.head key none w with ⟨error | metadata, w'⟩
    · exact Or.inr ⟨hw.of_same ((h.faulty.head key none w).of_error hrun), trivial⟩
    · refine Or.inr ⟨hw.of_same ((h.faulty.head key none w).of_ok hrun), ?_⟩
      dsimp only
      split
      · trivial
      · exact keeps_buffering h _
  | version key versionedBucket => exact keeps_buffering h _
  | list query =>
    intro w hw
    have hlist := h.list ⟨query.pathPrefix, query.maxKeys, query.cursor, query.delimiter⟩ w
    have hserve (options : VaultListOptions) : library.serve (.list options) w = library.listPage options w := rfl
    rw [hserve]
    rcases hrun : library.listPage ⟨query.pathPrefix, query.maxKeys, query.cursor, query.delimiter⟩ w
      with ⟨error | page, w'⟩
    · exact Or.inr ⟨hw.of_same (hlist.of_error hrun), trivial⟩
    · exact Or.inr ⟨hw.of_same (hlist.of_ok hrun), trivial⟩
  | delete key => exact keeps_probing h key (fun _ => trivial) (fun _ hexisting => keeps_deleting h hexisting)
  | bulkDelete keys =>
    intro w hw
    have hdelete := h.deleteMany keys w
    have hserve : library.serve (.deleteMany keys) w = library.service.deleteMany keys w := rfl
    rw [hserve]
    rcases hrun : library.service.deleteMany keys w with ⟨error | outcome, w'⟩
    · obtain ⟨hamong, hsame⟩ := hdelete.of_error hrun
      by_cases hkeys : slot.bucket = library.bucket ∧ slot.key ∈ keys
      · by_cases hnone : NotFound error
        · exact Or.inr ⟨hw.of_same (hsame hnone), trivial⟩
        · exact Or.inl ⟨_, rfl, hkeys, hnone⟩
      · exact Or.inr ⟨hw.deletesAmong hkeys hamong, trivial⟩
    · by_cases hkeys : slot.bucket = library.bucket ∧ slot.key ∈ outcome.deleted
      · exact Or.inl ⟨_, rfl, hkeys⟩
      · exact Or.inr ⟨hw.deletesAmong hkeys (hdelete.of_ok hrun), trivial⟩
  | copy options archiveBucket defaultBucket =>
    refine keeps_probing h options.sourceKey (fun _ => trivial) (fun isSourcePresent _ => ?_)
    cases isSourcePresent with
    | false => trivial
    | true => exact keeps_copying h options archiveBucket defaultBucket

/-- However the calls of the vault's requests are interleaved, and whichever of them fail, an
object that is gone in the end was not deleted behind everybody's back: some answer owns up to
it, none that says the object was not found or gone before. -/
theorem vanished_object_accounted (h : library.Contract) {w : W}
    {s : Pool W VaultCall VaultCall.Answer VaultRequest VaultAnswer} {events : List (PoolEvent VaultRequest)}
    (hrun : run (Pool.next VaultRequest.handler library.serve) (Pool.opened w) events = some s)
    (hfilled : library.Filled slot w) (hgone : ¬ library.Filled slot s.world) :
    ∃ entry ∈ s.answered, library.Accounts slot entry.1 entry.2 :=
  (Pool.kept_or_reported (fun request (_ : True) => handler_keepsOrReports h request) hfilled
    (fun _ _ => trivial) hrun).resolve_right hgone

theorem both_deletions_account : ∃ entry ∈
      ([(.delete (js "a.pdf"), .deleted (.ok ⟨js "a.pdf", false⟩)),
        (.delete (js "a.pdf"), .deleted (.ok ⟨js "a.pdf", false⟩))] : List (VaultRequest × VaultAnswer)),
      (memoryLibrary (js "vault")).Accounts ⟨js "vault", js "a.pdf"⟩ entry.1 entry.2 := by
  have hfilled : (memoryLibrary (js "vault")).Filled ⟨js "vault", js "a.pdf"⟩ oneObject :=
    congrArg Option.isSome (Finmap.lookup_insert _)
  refine vanished_object_accounted (memoryLibrary_contract (js "vault")) both_deletions_run hfilled ?_
  rw [VaultLibrary.Filled]
  have hgone : Finmap.lookup ⟨js "vault", js "a.pdf"⟩ ((memoryLibrary (js "vault")).store
      ((oneObject.erase ⟨js "vault", js "a.pdf"⟩).erase ⟨js "vault", js "a.pdf"⟩)) = none := Finmap.lookup_erase _ _
  rw [hgone]
  exact Bool.false_ne_true

end Vanishing

end NestStorageExample.Api
