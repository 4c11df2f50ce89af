import NestStorageExample.Storage.InMemory
import NestStorageExample.Storage.Observed
import NestStorageExample.Text.Decimal

/-! Downloads into one buffer, and the ranges that an object store serves. -/
namespace NestStorageExample.Storage
open Text Effects

structure DownloadBufferResult where
  buffer : List Byte
  metadata : ObjectMetadata

/-- The library with `StorageService.downloadBuffer`. -/
structure BufferedStorage (W : Type) extends StorageService W where
  downloadBuffer : DownloadOptions → Async Rejection W DownloadBufferResult

structure BufferedProvider (W : Type) extends Provider W where
  downloadBuffer : DownloadOptions → Async Rejection W DownloadBufferResult

/-- What `bytes=first-last` asks for; `none` where it starts past the end. -/
def byteRange (body : List Byte) (first last : Nat) : Option (List Byte) :=
  if first < body.length then some ((body.drop first).take (last + 1 - first)) else none

namespace BufferedProvider
variable {W : Type} (provider : BufferedProvider W)

def storage : BufferedStorage W := ⟨provider.service, provider.downloadBuffer⟩

/-- The library watched from outside; either download is the same request to the store. -/
def observedStorage : BufferedStorage (Observed W) :=
  ⟨provider.observed, fun options => provider.observe (.download options) (provider.downloadBuffer options)⟩

/-- Without a provider fault a download without a range gives the object that is stored. -/
def BufferContract : Prop :=
  ∀ {key bucket slot object w}, provider.slot bucket key = some slot →
    (provider.store w).lookup slot = some object →
    (provider.downloadBuffer ⟨key, bucket, none⟩).Settles w
      (fun result w' => result.buffer = object.body ∧ provider.store w' = provider.store w) (fun _ _ => False)

/-- A range that is served has at most the bytes it asks for. -/
def AtMostRequested : Prop :=
  ∀ {key bucket first last w}, first ≤ last →
    (provider.downloadBuffer ⟨key, bucket, some (rangeHeader first last)⟩).Settles w
      (fun result _ => result.buffer.length ≤ last + 1 - first) (fun _ _ => True)

/-- HTTP ranges: the bytes there are of those asked for, and a rejection where the range
starts past the end. -/
structure RangeContract : Prop where
  stream : ∀ {key bucket slot object w} (first last : Nat), first ≤ last → provider.slot bucket key = some slot →
    (provider.store w).lookup slot = some object →
    (provider.service.download ⟨key, bucket, some (rangeHeader first last)⟩).Settles w
      (fun result w' => byteRange object.body first last = some (result.stream.flatMap Chunk.bytes) ∧
        result.metadata = object.metadata ∧ provider.store w' = provider.store w)
      (fun _ w' => byteRange object.body first last = none ∧ provider.store w' = provider.store w)
  buffer : ∀ {key bucket slot object w} (first last : Nat), first ≤ last → provider.slot bucket key = some slot →
    (provider.store w).lookup slot = some object →
    (provider.downloadBuffer ⟨key, bucket, some (rangeHeader first last)⟩).Settles w
      (fun result w' => byteRange object.body first last = some result.buffer ∧ provider.store w' = provider.store w)
      (fun _ w' => byteRange object.body first last = none ∧ provider.store w' = provider.store w)

end BufferedProvider

theorem byteRange_length {body bytes : List Byte} {first last : Nat} (h : byteRange body first last = some bytes) :
    bytes.length ≤ last + 1 - first := by
  unfold byteRange at h
  split at h
  · cases h
    exact List.length_take_le _ _
  · cases h

/-- A range from the start of an object that has any bytes is served. -/
theorem byteRange_zero {body : List Byte} (h : body ≠ []) (last : Nat) :
    byteRange body 0 last = some (body.take (last + 1)) := by
  rw [byteRange, if_pos (List.length_pos_of_ne_nil h)]
  rfl

theorem byteRange_nil (first last : Nat) : byteRange [] first last = none := by
  rw [byteRange, if_neg (by simp)]

namespace BufferedProvider
variable {W : Type} {provider : BufferedProvider W}

private theorem scanHeader_eq : js "bytes=0-4095" = rangeHeader 0 4095 := by decide

/-- The range that a scan asks for is served where there are bytes. -/
theorem RangeContract.download (h : provider.RangeContract) : provider.DownloadContract := by
  intro key bucket slot object w hslot hobject hbody
  rw [scanHeader_eq]
  have hrange := byteRange_zero hbody 4095
  refine (h.stream 0 4095 (Nat.zero_le _) hslot hobject).mono ?_ ?_
  · rintro result w' ⟨hbytes, hmetadata, hstore⟩
    exact ⟨(Option.some.inj (hrange.symm.trans hbytes)).symm, hmetadata, hstore⟩
  · rintro e w' ⟨hnone, -⟩
    rw [hrange] at hnone
    cases hnone

theorem RangeContract.emptyRange (h : provider.RangeContract) : provider.EmptyRangeContract false := by
  intro key bucket slot object w hslot hobject hbody
  rw [scanHeader_eq]
  refine (h.stream 0 4095 (Nat.zero_le _) hslot hobject).mono ?_ ?_
  · rintro result w' ⟨hbytes, -⟩
    rw [hbody, byteRange_nil] at hbytes
    cases hbytes
  · rintro e w' ⟨-, hstore⟩
    exact ⟨rfl, hstore⟩

end BufferedProvider

namespace Memory
variable (bucket : JsString)

/-- What a request with a range is answered with; a header that is no range is passed over. -/
def serve (body : List Byte) (range : Option JsString) : Except Rejection (List Byte) :=
  match range.bind readRange with
  | none => .ok body
  | some (first, last) =>
    match byteRange body first last with
    | none => .error (.storage ⟨.providerError, []⟩)
    | some bytes => .ok bytes

def downloadBuffer (options : DownloadOptions) : Async Rejection Memory DownloadBufferResult := fun m =>
  ((find bucket m options.bucket options.key).bind fun object =>
    (serve object.body options.range).map fun bytes => ⟨bytes, object.metadata⟩, m)

def rangedDownload (options : DownloadOptions) : Async Rejection Memory DownloadResult := fun m =>
  ((find bucket m options.bucket options.key).bind fun object =>
    (serve object.body options.range).map fun bytes => ⟨[.buffer bytes], object.metadata⟩, m)

/-- The same buckets, every range read. -/
def bufferedProvider : BufferedProvider Memory where
  toProvider := { provider bucket with service := { (provider bucket).service with download := rangedDownload bucket } }
  downloadBuffer := downloadBuffer bucket

theorem buffered_head_contract : (bufferedProvider bucket).HeadContract :=
  ⟨(head_contract bucket).present, (head_contract bucket).absent⟩

theorem buffered_put_contract : (bufferedProvider bucket).PutContract := put_contract bucket

theorem buffered_delete_contract : (bufferedProvider bucket).DeleteContract := delete_contract bucket

theorem buffered_buffer_contract : (bufferedProvider bucket).BufferContract := by
  intro key override target object m hslot hobject
  change Async.Settles (downloadBuffer bucket ⟨key, override, none⟩) m _ _
  unfold Async.Settles downloadBuffer
  rw [find_of_lookup bucket hslot hobject]
  exact ⟨rfl, rfl⟩

theorem serve_rangeHeader (body : List Byte) (first last : Nat) :
    serve body (some (rangeHeader first last)) =
      match byteRange body first last with
      | none => .error (.storage ⟨.providerError, []⟩)
      | some bytes => .ok bytes := by
  rw [serve, Option.bind_some, readRange_rangeHeader]

theorem buffered_range_contract : (bufferedProvider bucket).RangeContract where
  stream {key override target object m} first last _ hslot hobject := by
    change Async.Settles (rangedDownload bucket ⟨key, override, some (rangeHeader first last)⟩) m _ _
    unfold Async.Settles rangedDownload
    rw [find_of_lookup bucket hslot hobject, Except.bind, serve_rangeHeader]
    cases byteRange object.body first last with
    | none => exact ⟨rfl, rfl⟩
    | some bytes => exact ⟨by simp [Chunk.bytes], rfl, rfl⟩
  buffer {key override target object m} first last _ hslot hobject := by
    change Async.Settles (downloadBuffer bucket ⟨key, override, some (rangeHeader first last)⟩) m _ _
    unfold Async.Settles downloadBuffer
    rw [find_of_lookup bucket hslot hobject, Except.bind, serve_rangeHeader]
    cases byteRange object.body first last with
    | none => exact ⟨rfl, rfl⟩
    | some bytes => exact ⟨rfl, rfl⟩

theorem buffered_atMostRequested : (bufferedProvider bucket).AtMostRequested := by
  intro key override first last m _
  change Async.Settles (downloadBuffer bucket ⟨key, override, some (rangeHeader first last)⟩) m _ _
  unfold Async.Settles downloadBuffer
  cases hfind : find bucket m override key with
  | error e => trivial
  | ok object =>
    rw [Except.bind, serve_rangeHeader]
    cases hbytes : byteRange object.body first last with
    | none => trivial
    | some bytes => exact byteRange_length hbytes

end Memory

end NestStorageExample.Storage
