import NestStorageExample.Api.Uploads
import NestStorageExample.Storage.Observed

/-! Tenant-scoped operations: uploads under `{tenant}/{category}/`, listings of the
tenant's prefix, and the page-by-page clear. -/
namespace NestStorageExample.Api
open Text Effects Storage Collections

structure TenantUploadBody where
  category : TenantCategory
  content : JsString
  extension : Option Extension
  content_accepted : tenantContentSchema.Accepts content

structure TenantListQuery where
  category : Option TenantCategory
  cursor : Option JsString
  maxKeys : Option Nat

structure TenantUploadView where
  tenant : JsString
  key : JsString
  fullKey : JsString
  result : UploadResult
  note : String

structure TenantObjectView where
  key : JsString
  fullKey : JsString
  size : Nat
  etag : JsString

structure TenantListView where
  tenant : JsString
  pathPrefix : JsString
  objects : List TenantObjectView
  nextCursor : Option JsString
  note : String

structure TenantClearView where
  tenant : JsString
  pathPrefix : JsString
  deleted : Nat
  failed : Nat
  failures : List FailedDeletion
  note : String

def appLevelNote : String :=
  "Tenant isolation here is application-level key composition, not a library-enforced boundary: the module " ++
  "applies ONE global keyPrefix per instance and every key is composed as " ++
  "\x7bkeyPrefix\x7d/\x7btenant\x7d/\x7bcategory\x7d/\x7buuid\x7d. Cross-tenant safety comes from this service " ++
  "scoping every read, list, and clear to the \x7btenant\x7d/ prefix."

def tenantContentType : JsString := js "text/plain"

namespace TenantsService
variable {W : Type} (service : StorageService W) (keyPrefix : JsString)

def upload (tenant : TenantSlug) (body : TenantUploadBody) (uuid : Uuid) : Async Rejection W TenantUploadView := do
  let key := tenantKey tenant body.category body.extension uuid
  let buffer := encodeUtf8 body.content
  let result ← service.upload (plainUploadOptions key (.buffer buffer) tenantContentType (some buffer.length))
  return ⟨tenant.text, key, composeFullKey keyPrefix key, result, appLevelNote⟩

def toObjectView (object : ListedObject) : TenantObjectView :=
  ⟨object.key, composeFullKey keyPrefix object.key, object.size, object.etag⟩

def list (tenant : TenantSlug) (query : TenantListQuery) : Async Rejection W TenantListView := do
  let pathPrefix := tenantPrefix tenant query.category
  let result ← service.list ⟨pathPrefix, query.maxKeys, query.cursor⟩
  return ⟨tenant.text, pathPrefix, result.objects.map (toObjectView keyPrefix), result.nextContinuationToken,
    appLevelNote⟩

/-- The body of the loop of `clear` once a page is there. -/
def clearPage (keys : List JsString) (deleted : Nat) (failures : List FailedDeletion) :
    Async Rejection W (Nat × List FailedDeletion) :=
  if 0 < keys.length then do
    let outcome ← service.deleteMany keys
    return (deleted + outcome.deleted.length, failures ++ outcome.failed)
  else return (deleted, failures)

/-- The `do … while` of `clear`, at most `fuel` rounds of it: `none` when they were not enough. -/
def clearLoop (pathPrefix : JsString) :
    Nat → Option JsString → Nat → List FailedDeletion → Async Rejection W (Option (Nat × List FailedDeletion))
  | 0, _, _, _ => pure none
  | fuel + 1, cursor, deleted, failures => do
    let page ← service.list ⟨pathPrefix, none, cursor⟩
    let counts ← clearPage service (page.objects.map ListedObject.key) deleted failures
    match page.nextContinuationToken with
    | some cursor => clearLoop pathPrefix fuel (some cursor) counts.1 counts.2
    | none => return some counts

def clear (fuel : Nat) (tenant : TenantSlug) : Async Rejection W (Option TenantClearView) := do
  let pathPrefix := tenantPrefix tenant none
  let result ← clearLoop service pathPrefix fuel none 0 []
  return result.map fun counts =>
    ⟨tenant.text, pathPrefix, counts.1, counts.2.length, counts.2, appLevelNote⟩

end TenantsService

/-- The service makes one call, an upload under the composed key. -/
theorem tenantUpload_call {W : Type} (provider : Provider W) (keyPrefix : JsString) (slug : TenantSlug)
    (body : TenantUploadBody) (uuid : Uuid) (w : W) : ∃ options,
      callsOf provider (fun storage => TenantsService.upload storage keyPrefix slug body uuid) w = [.upload options] ∧
      options.key = tenantKey slug body.category body.extension uuid := by
  rw [callsOf, TenantsService.upload, Async.bind_world _ (fun _ _ => rfl)]
  exact ⟨_, rfl, rfl⟩

/-- A tenant's prefix, narrowed or not, starts no other tenant's key. -/
theorem tenantPrefix_isolates {t u : TenantSlug} (h : t.text ≠ u.text) (narrowed : Option TenantCategory)
    (category : TenantCategory) (extension : Option Extension) (uuid : Uuid) :
    ¬ tenantPrefix t narrowed <+: tenantKey u category extension uuid := by
  have hslug : t.text ++ [slash] <+: tenantPrefix t narrowed := by
    cases narrowed with
    | none => exact List.prefix_rfl
    | some narrowed => exact ⟨narrowed.text ++ [slash], by simp [tenantPrefix]⟩
  intro hstarts
  exact h ((segment_prefix_iff t.plain.not_slash u.plain.not_slash _).mp (hslug.trans hstarts))

end NestStorageExample.Api
