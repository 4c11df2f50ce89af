import NestStorageExample.Storage.Service
import NestStorageExample.Collections.Paging
import NestStorageExample.Text.Utf8

/-! A storage library in front of its buckets, and what each call is relied on to do.
Every contract is about one call; what a service needs is named where it is proved. -/
namespace NestStorageExample.Storage
open Text Effects Collections

structure Slot where
  bucket : JsString
  key : JsString
  deriving DecidableEq

/-- A stored version; `version` tells apart two writes that agree on everything else. -/
structure StoredObject extends ObjectHeaders where
  body : List Byte
  version : Nat
  deriving DecidableEq

def StoredObject.metadata (object : StoredObject) : ObjectMetadata := ⟨object.toObjectHeaders, object.body.length⟩

/-- A version written at `writtenAt` with no headers but a type. -/
def StoredObject.plain (body : List Byte) (contentType : Option JsString) (etag : JsString) (writtenAt : Nat) :
    StoredObject :=
  ⟨⟨contentType, etag, writtenAt, none, none, none, none, []⟩, body, writtenAt⟩

abbrev Store := Finmap (fun _ : Slot => StoredObject)

/-- The keys a bucket holds under a prefix. -/
def objectKeys (store : Store) (bucket pathPrefix : JsString) : Finset JsString :=
  (store.keys.filter (fun slot => slot.bucket = bucket ∧ pathPrefix <+: slot.key)).image Slot.key

theorem mem_objectKeys (store : Store) (bucket pathPrefix key : JsString) :
    key ∈ objectKeys store bucket pathPrefix ↔ pathPrefix <+: key ∧ (store.lookup ⟨bucket, key⟩).isSome = true := by
  simp only [objectKeys, Finset.mem_image, Finset.mem_filter, Finmap.mem_keys, Finmap.lookup_isSome]
  constructor
  · rintro ⟨⟨_, _⟩, ⟨hmem, rfl, hstarts⟩, rfl⟩
    exact ⟨hstarts, hmem⟩
  · rintro ⟨hstarts, hmem⟩
    exact ⟨⟨bucket, key⟩, ⟨hmem, rfl, hstarts⟩, rfl⟩

theorem mem_objectKeys_insert (store : Store) (slot : Slot) (object : StoredObject) (bucket pathPrefix key : JsString) :
    key ∈ objectKeys (store.insert slot object) bucket pathPrefix ↔
      slot = ⟨bucket, key⟩ ∧ pathPrefix <+: key ∨ key ∈ objectKeys store bucket pathPrefix := by
  rw [mem_objectKeys, mem_objectKeys, Finmap.lookup_isSome, Finmap.lookup_isSome, Finmap.mem_insert, and_or_left]
  exact or_congr_left ⟨fun h => ⟨h.2.symm, h.1⟩, fun h => ⟨h.2, h.1.symm⟩⟩

/-- The bytes a consumer reads off a chunk; text is `Buffer.from`'d. -/
def Chunk.bytes : Chunk → List Byte
  | buffer bytes => bytes
  | text s => encodeUtf8 s

def UploadBody.bytes : UploadBody → List Byte
  | buffer bytes => bytes
  | stream chunks => chunks.flatMap Chunk.bytes

/-- The library with the world it acts on: the buckets in it, the default bucket, and what
a client PUT through a presigned URL does to it. -/
structure Provider (W : Type) where
  service : StorageService W
  store : W → Store
  bucket : JsString
  put : JsString → StoredObject → W → W

namespace Provider
variable {W : Type}

/-- The slot a call addresses, `none` for a key the resolver turns away. -/
def slot (provider : Provider W) (bucket : Option JsString) (key : JsString) : Option Slot :=
  (resolveKey key).map (Slot.mk (bucket.getD provider.bucket))

/-- A key has one slot at most. -/
theorem forall_slot {provider : Provider W} {bucket : Option JsString} {key : JsString} {slot : Slot} {P : Slot → Prop}
    (hslot : provider.slot bucket key = some slot) (h : P slot) :
    ∀ target, provider.slot bucket key = some target → P target := by
  intro target htarget
  rw [hslot, Option.some.injEq] at htarget
  rwa [← htarget]

theorem forall_no_slot {provider : Provider W} {bucket : Option JsString} {key : JsString} {P : Slot → Prop}
    (hslot : provider.slot bucket key = none) : ∀ target, provider.slot bucket key = some target → P target := by
  intro target htarget
  rw [hslot] at htarget
  cases htarget

variable (provider : Provider W)

/-- Without a provider fault `head` answers the metadata of what is stored, or rejects
where nothing is. -/
structure HeadContract : Prop where
  present : ∀ {key bucket slot object w}, provider.slot bucket key = some slot →
    (provider.store w).lookup slot = some object →
    (provider.service.head key bucket).Settles w
      (fun metadata w' => metadata = object.metadata ∧ provider.store w' = provider.store w) (fun _ _ => False)
  absent : ∀ {key bucket w}, (∀ slot, provider.slot bucket key = some slot → (provider.store w).lookup slot = none) →
    (provider.service.head key bucket).Settles w (fun _ _ => False) (fun _ w' => provider.store w' = provider.store w)

/-- Without a provider fault a download of the first 4096 bytes of an object that has any
streams those bytes, in whatever chunks. -/
def DownloadContract : Prop :=
  ∀ {key bucket slot object w}, provider.slot bucket key = some slot →
    (provider.store w).lookup slot = some object → object.body ≠ [] →
    (provider.service.download ⟨key, bucket, some (js "bytes=0-4095")⟩).Settles w
      (fun result w' => result.stream.flatMap Chunk.bytes = object.body.take 4096 ∧
        result.metadata = object.metadata ∧ provider.store w' = provider.store w)
      (fun _ _ => False)

/-- That range of an empty object is answered with nothing, or turned away. -/
def EmptyRangeContract (answers : Bool) : Prop :=
  ∀ {key bucket slot object w}, provider.slot bucket key = some slot →
    (provider.store w).lookup slot = some object → object.body = [] →
    (provider.service.download ⟨key, bucket, some (js "bytes=0-4095")⟩).Settles w
      (fun result w' => answers = true ∧ result.stream.flatMap Chunk.bytes = [] ∧
        result.metadata = object.metadata ∧ provider.store w' = provider.store w)
      (fun _ w' => answers = false ∧ provider.store w' = provider.store w)

/-- Without a provider fault `delete` removes the key. -/
def DeleteContract : Prop :=
  ∀ {key bucket slot w}, provider.slot bucket key = some slot →
    (provider.service.delete key bucket).Settles w
      (fun _ w' => provider.store w' = (provider.store w).erase slot) (fun _ _ => False)

/-- A listing takes one page of the keys under the prefix, in the provider's order, from
where the token stands. The token it answers stands at the last key of the page, and is
there exactly when more remain; no prefix yields empty pages for ever. -/
structure ListContract where
  before : JsString → JsString → Prop
  order : IsStrictTotalOrder JsString before
  bound : JsString → Option JsString
  lists : ∀ (options : ListOptions) (w : W), (provider.service.list options).Settles w
    (fun page w' => provider.store w' = provider.store w ∧
      IsPage before {key | key ∈ objectKeys (provider.store w) provider.bucket options.pathPrefix}
        (options.continuationToken.bind bound) (page.objects.map ListedObject.key) ∧
      (page.nextContinuationToken.isSome = true ↔
        ∃ key ∈ objectKeys (provider.store w) provider.bucket options.pathPrefix,
          After before (options.continuationToken.bind bound) key ∧ key ∉ page.objects.map ListedObject.key) ∧
      ∀ token ∈ page.nextContinuationToken,
        bound token = nextBound (options.continuationToken.bind bound) (page.objects.map ListedObject.key))
    (fun _ _ => False)
  emptyPages : ∀ pathPrefix maxKeys, WellFounded (fun next current : W × Option JsString =>
    ∃ page, provider.service.list ⟨pathPrefix, maxKeys, current.2⟩ current.1 = (.ok page, next.1) ∧
      page.objects = [] ∧ page.nextContinuationToken = next.2 ∧ next.2.isSome = true)

/-- `deleteMany` reports each key it was given once, removes the ones it reports deleted
and keeps the ones it reports failed. -/
def DeleteManyContract : Prop :=
  ∀ {keys : List JsString} {w : W}, keys.Nodup → (provider.service.deleteMany keys).Settles w
    (fun outcome w' => (outcome.deleted ++ outcome.failed.map FailedDeletion.key).Perm keys ∧
      ∀ slot, (provider.store w').lookup slot =
        if slot.bucket = provider.bucket ∧ slot.key ∈ outcome.deleted then none else (provider.store w).lookup slot)
    (fun _ _ => False)

/-- However it settles, an upload touches no slot but the one its key addresses. -/
def UploadContract : Prop :=
  ∀ (options : UploadOptions) (w : W), (provider.service.upload options).Settles w
    (fun _ w' => ∀ slot, provider.slot none options.key ≠ some slot →
      (provider.store w').lookup slot = (provider.store w).lookup slot)
    (fun _ w' => ∀ slot, provider.slot none options.key ≠ some slot →
      (provider.store w').lookup slot = (provider.store w).lookup slot)

/-- A client PUT stores its object under the key the URL was signed for. -/
def PutContract : Prop :=
  ∀ {key slot object w}, provider.slot none key = some slot →
    provider.store (provider.put key object w) = (provider.store w).insert slot object

/-- A copy has left the source's bytes at the destination and touched nothing else. -/
def CopyDone (options : CopyOptions) (earlier later : Store) : Prop :=
  ∃ source destination object copied, provider.slot none options.sourceKey = some source ∧
    provider.slot options.destinationBucket options.destinationKey = some destination ∧
    earlier.lookup source = some object ∧ copied.body = object.body ∧ later = earlier.insert destination copied

def DeleteDone (key : JsString) (bucket : Option JsString) (earlier later : Store) : Prop :=
  ∃ slot, provider.slot bucket key = some slot ∧ later = earlier.erase slot

/-- Each key of a bulk delete is still there or gone, and nothing else has changed. -/
def DeletesAmong (keys : List JsString) (earlier later : Store) : Prop :=
  ∀ slot, later.lookup slot = earlier.lookup slot ∨
    (slot.bucket = provider.bucket ∧ slot.key ∈ keys ∧ later.lookup slot = none)

/-- Calls that may reject at any point. A call that rejects may have taken effect. -/
structure FaultyContract : Prop where
  head : ∀ key bucket w, (provider.service.head key bucket).Settles w
    (fun _ w' => provider.store w' = provider.store w) (fun _ w' => provider.store w' = provider.store w)
  copy : ∀ options w, (provider.service.copy options).Settles w
    (fun _ w' => provider.CopyDone options (provider.store w) (provider.store w'))
    (fun _ w' => provider.store w' = provider.store w ∨
      provider.CopyDone options (provider.store w) (provider.store w'))
  delete : ∀ key bucket w, (provider.service.delete key bucket).Settles w
    (fun _ w' => provider.DeleteDone key bucket (provider.store w) (provider.store w'))
    (fun _ w' => provider.store w' = provider.store w ∨
      provider.DeleteDone key bucket (provider.store w) (provider.store w'))

end Provider

end NestStorageExample.Storage
