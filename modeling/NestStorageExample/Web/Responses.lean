import NestStorageExample.Api.ProviderKey
import NestStorageExample.Api.UploadSessionStore
import NestStorageExample.Api.VaultCopy
import NestStorageExample.Api.VaultListing
import NestStorageExample.Storage.InMemory
import NestStorageExample.Text.Json

/-! Five responses as the API writes them, and the same five as the dashboard declares them.
The client casts a body without a look at it, so what it has of a response is what stands
under the declared names in the declared types. -/
namespace NestStorageExample.Api
open Text Effects Storage
variable {W : Type}

structure DeleteOneResponse where
  deleted : JsString
  warned : Bool

def VaultService.deleteOne (storage : StorageService W) (key : JsString) : Async Rejection W DeleteOneResponse := do
  let isExisting ← exists_ storage key none
  storage.delete key none
  return ⟨key, !isExisting⟩

structure SessionResponse where
  id : JsString
  snapshots : List ProgressSnapshot

structure NotFoundException where
  code : String

def asciiLower (c : CodeUnit) : CodeUnit := if 0x41 ≤ c.toNat ∧ c.toNat ≤ 0x5A then c + 0x20 else c

/-- `UUID_RE.test(id)`; the pattern takes letters of either case. -/
def isSessionId (id : JsString) : Bool := isUuid (id.map asciiLower)

def UploadsController.getSession (sessions : UploadSessionStore) (id : JsString) :
    Except NotFoundException SessionResponse × UploadSessionStore :=
  if !isSessionId id then (.error ⟨"SESSION_NOT_FOUND"⟩, sessions)
  else
    match sessions.get id with
    | (none, sessions) => (.error ⟨"SESSION_NOT_FOUND"⟩, sessions)
    | (some snapshots, sessions) => (.ok ⟨id, snapshots⟩, sessions)

/-! The bodies, as `JSON.stringify` writes them. -/

def ListedObject.toJson (object : ListedObject) : Json :=
  .object [(js "key", .string object.key), (js "size", .number (.finite object.size)),
    (js "etag", .string object.etag)]

def ListResponse.toJson (response : ListResponse) : Json :=
  .object ([(js "objects", .array (response.objects.map ListedObject.toJson)),
    (js "commonPrefixes", .array (response.commonPrefixes.map Json.string)),
    (js "isTruncated", .bool response.isTruncated)] ++
    Json.optionalField "nextCursor" (response.nextCursor.map Json.string))

def DeleteOneResponse.toJson (response : DeleteOneResponse) : Json :=
  .object [(js "deleted", .string response.deleted), (js "warned", .bool response.warned)]

def CopyResponse.toJson (response : CopyResponse) : Json :=
  .object [(js "etag", .string response.etag), (js "source", .string response.source),
    (js "destination", .string response.destination), (js "bucket", .string response.bucket)]

def PublicUrlResponse.toJson (response : PublicUrlResponse) : Json :=
  .object ([(js "url", .string response.url)] ++ Json.optionalField "cdnUrl" (response.cdnUrl.map Json.string) ++
    [(js "note", .string (js response.note))])

def UploadStrategy.text : UploadStrategy → JsString
  | single => js "single"
  | multipart => js "multipart"

def ProgressSnapshot.toJson (snapshot : ProgressSnapshot) : Json :=
  .object ([(js "loaded", .number (.finite snapshot.loaded))] ++
    Json.optionalField "total" (snapshot.total.map (fun total => .number (.finite total))) ++
    Json.optionalField "part" (snapshot.part.map (fun part => .number (.finite part))) ++
    Json.optionalField "strategy" (snapshot.strategy.map (fun strategy => .string strategy.text)))

def SessionResponse.toJson (response : SessionResponse) : Json :=
  .object [(js "id", .string response.id), (js "snapshots", .array (response.snapshots.map ProgressSnapshot.toJson))]

end NestStorageExample.Api

namespace NestStorageExample.Web
open Text Collections Storage Api

/-- What stands under a name in a body. -/
def field (name : String) (body : Json) : Option Json :=
  match body with
  | .object entries => Json.lookup (js name) entries
  | _ => none

def asBoolean : Option Json → Option Bool
  | some (.bool b) => some b
  | _ => none

def asText : Option Json → Option JsString
  | some (.string s) => some s
  | _ => none

def asNumber : Option Json → Option JsNumber
  | some (.number n) => some n
  | _ => none

def asItems : Option Json → Option (List Json)
  | some (.array items) => some items
  | _ => none

/-- A field declared with `?`: it may be missing, but not be of another type. -/
def optional {α : Type} (read : Option Json → Option α) (value : Option Json) : Option (Option α) :=
  match value with
  | none => some none
  | some value => (read (some value)).map some

structure VaultPage where
  objects : List Json
  commonPrefixes : List Json
  nextCursor : Option JsString
  truncated : Bool

def VaultPage.read (body : Json) : Option VaultPage := do
  return ⟨← asItems (field "objects" body), ← asItems (field "commonPrefixes" body),
    ← optional asText (field "nextCursor" body), ← asBoolean (field "truncated" body)⟩

structure DeleteResult where
  deleted : Bool
  warned : Option Bool

def DeleteResult.read (body : Json) : Option DeleteResult := do
  return ⟨← asBoolean (field "deleted" body), ← optional asBoolean (field "warned" body)⟩

structure CopyResult where
  etag : JsString
  sourceKey : JsString
  destinationKey : JsString
  bucket : JsString

def CopyResult.read (body : Json) : Option CopyResult := do
  return ⟨← asText (field "etag" body), ← asText (field "sourceKey" body), ← asText (field "destinationKey" body),
    ← asText (field "bucket" body)⟩

/-- `PublicUrlResult` of the hooks, and the drawer's copy of it. -/
structure PublicUrlResult where
  publicUrl : JsString
  cdnUrl : Option JsString

def PublicUrlResult.read (body : Json) : Option PublicUrlResult := do
  return ⟨← asText (field "publicUrl" body), ← optional asText (field "cdnUrl" body)⟩

/-- `ProgressSnapshot` of the hooks. -/
structure ProgressView where
  loaded : JsNumber
  total : JsNumber
  part : JsNumber
  strategy : JsString

def ProgressView.read (body : Json) : Option ProgressView := do
  return ⟨← asNumber (field "loaded" body), ← asNumber (field "total" body), ← asNumber (field "part" body),
    ← asText (field "strategy" body)⟩

/-! What each response has to bring back: the truncation flag and the cursor, the deleted key
and the warning, the two keys of a copy, the URLs, and the snapshots of a session. Where the
declared type is another one, any reading of it will do. -/

def ListReadsBack (response : ListResponse) : Prop :=
  ∃ page, VaultPage.read response.toJson = some page ∧
    page.truncated = response.isTruncated ∧ page.nextCursor = response.nextCursor

def DeleteReadsBack (response : DeleteOneResponse) : Prop :=
  ∃ result, DeleteResult.read response.toJson = some result ∧
    (∃ keyOf : Bool → JsString, keyOf result.deleted = response.deleted) ∧ result.warned = some response.warned

def CopyReadsBack (response : CopyResponse) : Prop :=
  ∃ result, CopyResult.read response.toJson = some result ∧
    result.sourceKey = response.source ∧ result.destinationKey = response.destination

def PublicUrlReadsBack (response : PublicUrlResponse) : Prop :=
  ∃ result, PublicUrlResult.read response.toJson = some result ∧
    result.publicUrl = response.url ∧ result.cdnUrl = response.cdnUrl

def SessionReadsBack (response : SessionResponse) : Prop :=
  ∃ view, ProgressView.read response.toJson = some view ∧
    ∃ snapshotsOf : ProgressView → List ProgressSnapshot, snapshotsOf view = response.snapshots

/-- The fields on which the two sides agree come back as they were sent. -/
theorem agreeing_fields_read_back (page : ListResponse) (deletion : DeleteOneResponse) (copy : CopyResponse)
    (urls : PublicUrlResponse) :
    optional asText (field "nextCursor" page.toJson) = some page.nextCursor ∧
    optional asBoolean (field "warned" deletion.toJson) = some (some deletion.warned) ∧
    asText (field "etag" copy.toJson) = some copy.etag ∧ asText (field "bucket" copy.toJson) = some copy.bucket ∧
    optional asText (field "cdnUrl" urls.toJson) = some urls.cdnUrl := by
  refine ⟨?_, rfl, rfl, rfl, ?_⟩
  · obtain ⟨objects, commonPrefixes, isTruncated, _ | cursor⟩ := page <;> rfl
  · obtain ⟨url, _ | cdnUrl, note⟩ := urls <;> rfl

theorem vaultPage_read (response : ListResponse) : VaultPage.read response.toJson = none := by
  obtain ⟨objects, commonPrefixes, isTruncated, _ | cursor⟩ := response <;> rfl

/-- The key stands where a flag is declared. -/
theorem deleteResult_read (response : DeleteOneResponse) : DeleteResult.read response.toJson = none := rfl

theorem copyResult_read (response : CopyResponse) : CopyResult.read response.toJson = none := rfl

theorem publicUrlResult_read (response : PublicUrlResponse) : PublicUrlResult.read response.toJson = none := by
  obtain ⟨url, _ | cdnUrl, note⟩ := response <;> rfl

/-- The snapshots stand one level below the fields of a snapshot. -/
theorem progressView_read (response : SessionResponse) : ProgressView.read response.toJson = none := rfl

theorem not_read_back {α : Type} {data : α → Prop} {read : Option α} (h : read = none) :
    ¬ ∃ a, read = some a ∧ data a := by
  rintro ⟨a, hread, -⟩
  rw [h] at hread
  cases hread

/-- No response of the five is read back. -/
theorem responses_not_read_back (page : ListResponse) (deletion : DeleteOneResponse) (copy : CopyResponse)
    (urls : PublicUrlResponse) (session : SessionResponse) :
    ¬ ListReadsBack page ∧ ¬ DeleteReadsBack deletion ∧ ¬ CopyReadsBack copy ∧ ¬ PublicUrlReadsBack urls ∧
      ¬ SessionReadsBack session := by
  refine ⟨?_, ?_, ?_, ?_, ?_⟩
  · exact not_read_back (vaultPage_read page)
  · exact not_read_back (deleteResult_read deletion)
  · exact not_read_back (copyResult_read copy)
  · exact not_read_back (publicUrlResult_read urls)
  · exact not_read_back (progressView_read session)

def sampleVault : Memory :=
  ⟨(∅ : Store).insert ⟨js "vault", js "media/a"⟩ (.plain [0x68] none (js "etag") 0), 1⟩

theorem no_cursor_accepted : ∀ c ∈ (none : Option JsString), listTextSchema.Accepts c :=
  fun _ h => absurd h (Option.not_mem_none _)

/-- The first page, with all that is under the prefix. -/
def sampleQuery : ListQuery where
  toListRequest := onePerPage
  cursor := none
  cursor_accepted := no_cursor_accepted
  delimiter := false

def sampleSession : JsString := js "123e4567-e89b-42d3-a456-426614174000"

def sampleSessions : UploadSessionStore :=
  ⟨InsertionMap.empty.set sampleSession ⟨[⟨5, some 10, none, some .single⟩]⟩⟩

/-- A truncated page, a deletion, a copy, a public URL and a session with one snapshot. -/
theorem sample_responses_not_read_back :
    (∃ response, (VaultService.list (fun _ => pure ⟨[], [], true, some (js "next")⟩) sampleQuery sampleVault).1 =
      .ok response ∧ ¬ ListReadsBack response) ∧
    (∃ response, (VaultService.deleteOne (Memory.provider (js "vault")).service (js "media/a") sampleVault).1 =
      .ok response ∧ ¬ DeleteReadsBack response) ∧
    (∃ response, (VaultService.copy (Memory.provider (js "vault")).service ⟨js "media/a", js "media/b", .same, none⟩
      (js "archive") (js "vault") sampleVault).1 = .ok response ∧ ¬ CopyReadsBack response) ∧
    (∃ response, getPublicUrls (js "media/a") (js "http://minio:9000/vault") [] [] = some response ∧
      ¬ PublicUrlReadsBack response) ∧
    ∃ response, (UploadsController.getSession sampleSessions sampleSession).1 = .ok response ∧
      ¬ SessionReadsBack response :=
  ⟨⟨_, rfl, not_read_back (vaultPage_read _)⟩, ⟨_, rfl, not_read_back (deleteResult_read _)⟩,
    ⟨_, rfl, not_read_back (copyResult_read _)⟩, ⟨_, rfl, not_read_back (publicUrlResult_read _)⟩,
    ⟨_, rfl, not_read_back (progressView_read _)⟩⟩

end NestStorageExample.Web
