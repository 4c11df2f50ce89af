import NestStorageExample.Api.ScannerLab
import NestStorageExample.Api.TenantClear

/-! Runs over all the modules that store objects. They share one bucket, and each keeps
to a first segment of its own; a tenant may be called what another module's folder is. -/
namespace NestStorageExample.Api
open Text Effects Storage
variable {W : Type}

structure IdempotentUploadBody where
  idempotencyKey : JsString
  content : JsString
  contentType : JsString

structure IdempotentUploadView where
  result : UploadResult
  note : String

def idempotentNote : String :=
  "The idempotency cache is in-memory and per-instance. In multi-replica deployments two pods may upload the same " ++
  "key independently within the TTL window because they do not share state."

/-- `sha256` is the digest of `node:crypto`, in hexadecimal. -/
def UploadsService.uploadIdempotent (storage : StorageService W) (sha256 : List Byte → HexDigest)
    (body : IdempotentUploadBody) : Async Rejection W IdempotentUploadView := do
  let keyHash := sha256 (encodeUtf8 body.idempotencyKey)
  let key := idempotentKey keyHash
  let contentBuffer := encodeUtf8 body.content
  let result ← storage.upload
    { plainUploadOptions key (.buffer contentBuffer) body.contentType (some contentBuffer.length) with
      idempotencyKey := some body.idempotencyKey }
  return ⟨result, idempotentNote⟩

/-- A request that stores an object, with the random values its handler draws. A signed
PUT is the client's, through the URL that `createUploadUrl` signed for the key. -/
inductive Operation where
  | fileUpload (request : FileUpload) (uuid : Uuid)
  | idempotentUpload (body : IdempotentUploadBody)
  | signedPut (category : UploadCategory) (uuid : Uuid) (object : StoredObject)
  | scannerUpload (body : ScannerUploadBody) (uuid : Uuid)
  | tenantUpload (tenant : TenantSlug) (body : TenantUploadBody) (uuid : Uuid)

namespace Operation
variable (provider : Provider W) (keyPrefix : JsString) (sha256 : List Byte → HexDigest)

def perform (w : W) : Operation → W
  | fileUpload request uuid => (provider.service.upload (request.options uuid) w).2
  | idempotentUpload body => (UploadsService.uploadIdempotent provider.service sha256 body w).2
  | signedPut category uuid object => provider.put (uploadUrlKey category uuid) object w
  | scannerUpload body uuid => (ScannerLabService.upload provider.service body uuid w).2
  | tenantUpload tenant body uuid => (TenantsService.upload provider.service keyPrefix tenant body uuid w).2

/-- The key the request's object is stored under, before the library resolves it. -/
def key : Operation → JsString
  | fileUpload request uuid => (request.options uuid).key
  | idempotentUpload body => idempotentKey (sha256 (encodeUtf8 body.idempotencyKey))
  | signedPut category uuid _ => uploadUrlKey category uuid
  | scannerUpload body uuid =>
    scannerLabKey (MarkerFileScanner.scan
      ⟨some (.buffer (encodeUtf8 body.content)), js "scanner-lab/diagnostic-probe"⟩).status body.keySeed uuid
  | tenantUpload tenant body uuid => tenantKey tenant body.category body.extension uuid

/-- The first segment of the key. -/
def folder : Operation → JsString
  | fileUpload request _ => request.category
  | idempotentUpload _ => js "idempotent"
  | signedPut category _ _ => category.text
  | scannerUpload _ _ => js "scanner-lab"
  | tenantUpload tenant _ _ => tenant.text

/-- What follows the first slash. -/
def rest : Operation → JsString
  | fileUpload request uuid => uuid.text ++ extractExtension request.filename
  | idempotentUpload body => (sha256 (encodeUtf8 body.idempotencyKey)).text ++ js ".txt"
  | signedPut _ uuid _ => uuid.text
  | scannerUpload body uuid =>
    markerLabel (MarkerFileScanner.scan
      ⟨some (.buffer (encodeUtf8 body.content)), js "scanner-lab/diagnostic-probe"⟩).status ++
      body.keySeed.elim uuid.text KeySeed.text
  | tenantUpload _ body uuid =>
    body.category.text ++ slash :: (uuid.text ++ dot :: body.extension.elim defaultExtension Extension.text)

end Operation

/-- The request is a tenant upload, or stores outside the tenant's folder. -/
def Operation.LeavesAlone (t : TenantSlug) (operation : Operation) : Prop :=
  (∃ u body uuid, operation = .tenantUpload u body uuid) ∨ operation.folder ≠ t.text

/-- What a run of requests leaves of the world. -/
def runOperations (provider : Provider W) (keyPrefix : JsString) (sha256 : List Byte → HexDigest) (w : W)
    (operations : List Operation) : W :=
  operations.foldl (Operation.perform provider keyPrefix sha256) w

section Requests
variable {provider : Provider W} {keyPrefix : JsString} {sha256 : List Byte → HexDigest} {operation : Operation}
  {key : JsString}

theorem Operation.folder_plain (operation : Operation) : PlainSegment operation.folder := by
  cases operation with
  | fileUpload request _ => exact request.category_plain
  | idempotentUpload _ => exact (by decide : PlainSegment (js "idempotent"))
  | signedPut category _ _ => exact category.plain
  | scannerUpload _ _ => exact (by decide : PlainSegment (js "scanner-lab"))
  | tenantUpload tenant _ _ => exact tenant.plain

theorem Operation.key_eq (sha256 : List Byte → HexDigest) (operation : Operation) :
    operation.key sha256 = operation.folder ++ slash :: operation.rest sha256 := by
  cases operation with
  | fileUpload request uuid => exact request.key_eq uuid
  | idempotentUpload body => rfl
  | signedPut category uuid object => rfl
  | scannerUpload body uuid => rfl
  | tenantUpload tenant body uuid => rfl

theorem Operation.rest_head (sha256 : List Byte → HexDigest) (operation : Operation) :
    (operation.rest sha256).head? ≠ some slash := by
  cases operation with
  | fileUpload request uuid => exact head_append_ne_slash uuid.ne_nil uuid.plain.not_slash _
  | idempotentUpload body =>
    refine head_append_ne_slash ?_ (HexDigest.plain _).not_slash _
    exact List.length_pos_iff.mp (by rw [(sha256 _).shape.1]; decide)
  | signedPut category uuid object =>
    have h := head_append_ne_slash uuid.ne_nil uuid.plain.not_slash []
    rwa [List.append_nil] at h
  | scannerUpload body uuid =>
    obtain ⟨hplain, hne⟩ := keySeed_elim_plain body.keySeed uuid
    have hslash : slash ∉ Operation.rest sha256 (.scannerUpload body uuid) := by
      rw [Operation.rest, List.mem_append, not_or]
      exact ⟨(markerLabel_plain _).not_slash, hplain.not_slash⟩
    have h := head_append_ne_slash (List.append_ne_nil_of_right_ne_nil _ hne) hslash []
    rwa [List.append_nil] at h
  | tenantUpload tenant body uuid => exact head_append_ne_slash body.category.ne_nil body.category.plain.not_slash _

theorem Operation.folder_ne_nil (operation : Operation) : operation.folder ≠ [] := by
  cases operation with
  | fileUpload request _ => exact request.category_ne_nil
  | idempotentUpload _ => exact (by decide : js "idempotent" ≠ [])
  | signedPut category _ _ => exact category.ne_nil
  | scannerUpload _ _ => exact (by decide : js "scanner-lab" ≠ [])
  | tenantUpload tenant _ _ => exact tenant.ne_nil

/-- The one dot a key may have starts its extension. -/
theorem Operation.rest_dots (sha256 : List Byte → HexDigest) (operation : Operation) :
    (operation.rest sha256).count dot ≤ 1 := by
  have hplain {s : JsString} (h : PlainSegment s) : s.count dot = 0 := List.count_eq_zero.mpr h.not_dot
  cases operation with
  | fileUpload request uuid =>
    rw [Operation.rest, List.count_append, hplain uuid.plain, Nat.zero_add]
    rcases extractExtension_cases request.filename with ⟨-, hext⟩ | ⟨stem, extension, -, hextension, hext⟩
    · rw [hext]
      exact Nat.zero_le _
    · rw [hext, List.count_cons_self, List.count_eq_zero.mpr hextension]
  | idempotentUpload body =>
    rw [Operation.rest, List.count_append, hplain (HexDigest.plain _)]
    decide
  | signedPut category uuid object =>
    rw [Operation.rest, hplain uuid.plain]
    exact Nat.zero_le _
  | scannerUpload body uuid =>
    rw [Operation.rest, List.count_append, hplain (markerLabel_plain _), hplain (keySeed_elim_plain body.keySeed uuid).1]
    exact Nat.zero_le _
  | tenantUpload tenant body uuid =>
    have hextension : PlainSegment (body.extension.elim defaultExtension Extension.text) := by
      cases body.extension with
      | none => exact (by decide : PlainSegment defaultExtension)
      | some extension => exact extension.plain
    rw [Operation.rest, List.count_append, List.count_cons_of_ne (by decide), List.count_append, List.count_cons_self,
      hplain body.category.plain, hplain uuid.plain, hplain hextension]

/-- The library's resolver leaves such a key in its folder. -/
theorem resolveKey_folder {folder rest : JsString} (hplain : PlainSegment folder) (hne : folder ≠ [])
    (hhead : rest.head? ≠ some slash) (hrest : rest.count dot ≤ 1) :
    resolveKey (folder ++ slash :: rest) = some (folder ++ slash :: collapseSlashes rest) := by
  have hdots : (folder ++ slash :: rest).count dot ≤ 1 := by
    rw [List.count_append, List.count_cons_of_ne (by decide), List.count_eq_zero.mpr hplain.not_dot, Nat.zero_add]
    exact hrest
  rw [resolveKey, if_neg (not_or.mpr ⟨head_append_ne_slash hne hplain.not_slash _, dots_not_mem_splitSlash hdots⟩),
    collapseSlashes_segment hplain.not_slash hhead]

theorem Operation.resolved_key (sha256 : List Byte → HexDigest) (operation : Operation) :
    resolveKey (operation.key sha256) =
      some (operation.folder ++ slash :: collapseSlashes (operation.rest sha256)) := by
  rw [operation.key_eq]
  exact resolveKey_folder operation.folder_plain operation.folder_ne_nil (operation.rest_head sha256)
    (operation.rest_dots sha256)

/-- So a tenant prefix that meets the stored key is the folder. -/
theorem Operation.folder_of_prefix {slot : Slot} (hslot : provider.slot none (operation.key sha256) = some slot)
    {t : TenantSlug} (hstarts : t.text ++ [slash] <+: slot.key) : t.text = operation.folder := by
  rw [Provider.slot, operation.resolved_key, Option.map_some, Option.some.injEq] at hslot
  subst hslot
  exact (segment_prefix_iff t.plain.not_slash operation.folder_plain.not_slash _).mp hstarts

/-- The library signs URLs for the keys `createUploadUrl` composes. -/
theorem uploadUrlKey_slot (provider : Provider W) (category : UploadCategory) (uuid : Uuid) :
    ∃ slot, provider.slot none (uploadUrlKey category uuid) = some slot := by
  have hhead := head_append_ne_slash uuid.ne_nil uuid.plain.not_slash []
  rw [List.append_nil] at hhead
  have hresolved := resolveKey_folder category.plain category.ne_nil hhead
    ((List.count_eq_zero.mpr uuid.plain.not_dot).trans_le (Nat.zero_le 1))
  exact ⟨_, congrArg (Option.map (Slot.mk (Option.getD none provider.bucket))) hresolved⟩

private theorem upload_frame (hupload : provider.UploadContract) (options : UploadOptions) (w : W) {slot : Slot}
    (hslot : provider.slot none options.key ≠ some slot) :
    (provider.store (provider.service.upload options w).2).lookup slot = (provider.store w).lookup slot := by
  have hsettles := hupload options w
  cases hrun : provider.service.upload options w with
  | mk result w' =>
    cases result with
    | ok result => exact hsettles.of_ok hrun slot hslot
    | error e => exact hsettles.of_error hrun slot hslot

/-- A request touches its own slot only. -/
theorem Operation.perform_frame (hupload : provider.UploadContract) (hput : provider.PutContract) (w : W)
    {slot : Slot} (hslot : provider.slot none (operation.key sha256) ≠ some slot) :
    (provider.store (operation.perform provider keyPrefix sha256 w)).lookup slot = (provider.store w).lookup slot := by
  cases operation with
  | fileUpload request uuid => exact upload_frame hupload _ w hslot
  | idempotentUpload body =>
    rw [Operation.perform, UploadsService.uploadIdempotent, Async.bind_world _ (fun _ _ => rfl)]
    exact upload_frame hupload _ w hslot
  | signedPut category uuid object =>
    obtain ⟨target, htarget⟩ := uploadUrlKey_slot provider category uuid
    have hne : slot ≠ target := fun h => hslot (h ▸ htarget)
    exact (congrArg (Finmap.lookup slot) (hput htarget)).trans (Finmap.lookup_insert_of_ne _ hne)
  | scannerUpload body uuid =>
    rw [Operation.perform, ScannerLabService.upload, Async.bind_world _ (fun _ _ => rfl)]
    exact upload_frame hupload _ w hslot
  | tenantUpload tenant body uuid =>
    rw [Operation.perform, TenantsService.upload, Async.bind_world _ (fun _ _ => rfl)]
    exact upload_frame hupload _ w hslot

/-- Whatever a bucket that was empty holds after a run, one of the requests put it there. -/
theorem stored_by_operation (hupload : provider.UploadContract) (hput : provider.PutContract) {w : W} {slot : Slot}
    (hempty : (provider.store w).lookup slot = none) (operations : List Operation)
    (h : ((provider.store (runOperations provider keyPrefix sha256 w operations)).lookup slot).isSome = true) :
    ∃ earlier operation later, operations = earlier ++ operation :: later ∧
      provider.slot none (operation.key sha256) = some slot ∧
      ((provider.store (runOperations provider keyPrefix sha256 w (earlier ++ [operation]))).lookup slot).isSome =
        true := by
  induction operations using List.reverseRecOn with
  | nil =>
    rw [runOperations, List.foldl_nil, hempty] at h
    cases h
  | append_singleton operations operation ih =>
    by_cases hslot : provider.slot none (operation.key sha256) = some slot
    · exact ⟨operations, operation, [], rfl, hslot, h⟩
    · have hrun : runOperations provider keyPrefix sha256 w (operations ++ [operation]) =
          operation.perform provider keyPrefix sha256 (runOperations provider keyPrefix sha256 w operations) := by
        simp [runOperations]
      rw [hrun, operation.perform_frame hupload hput _ hslot] at h
      obtain ⟨earlier, found, later, rfl, hfound, hstored⟩ := ih h
      exact ⟨earlier, found, later ++ [operation], by simp, hfound, hstored⟩

end Requests

/-- An upload of the tenant composed the key, and stored it. -/
def UploadedByTenant (provider : Provider W) (keyPrefix : JsString) (sha256 : List Byte → HexDigest) (w : W)
    (operations : List Operation) (t : TenantSlug) (key : JsString) : Prop :=
  ∃ earlier u body uuid later, operations = earlier ++ Operation.tenantUpload u body uuid :: later ∧
    u.text = t.text ∧ tenantKey u body.category body.extension uuid = key ∧
    ((provider.store (runOperations provider keyPrefix sha256 w (earlier ++ [.tenantUpload u body uuid]))).lookup
      ⟨provider.bucket, key⟩).isSome = true

/-- After a run, listings of the tenant show and `clear` deletes nothing but what the
tenant's own uploads stored. -/
structure ClearsOnlyOwn (provider : Provider W) (keyPrefix : JsString) (sha256 : List Byte → HexDigest) (w : W)
    (operations : List Operation) (t : TenantSlug) : Prop where
  shown : ∀ query, (TenantsService.list provider.service keyPrefix t query).Settles
    (runOperations provider keyPrefix sha256 w operations)
    (fun view _ => ∀ key ∈ view.objects.map TenantObjectView.key,
      UploadedByTenant provider keyPrefix sha256 w operations t key) (fun _ _ => False)
  deleted : ∃ rounds view s', (∀ fuel, rounds ≤ fuel → TenantsService.clear provider.observed fuel t
      ⟨runOperations provider keyPrefix sha256 w operations, [], []⟩ = (.ok (some view), s')) ∧
    ∀ key ∈ s'.deletes, UploadedByTenant provider keyPrefix sha256 w operations t key

section Clears
variable {provider : Provider W} {keyPrefix : JsString} {sha256 : List Byte → HexDigest} {w : W}
  {operations : List Operation} {t : TenantSlug}

/-- What lies under the tenant's prefix was uploaded by the tenant, where the other
modules have left the folder alone. -/
theorem uploadedByTenant_of_mem (hupload : provider.UploadContract) (hput : provider.PutContract)
    (hempty : ∀ key, (provider.store w).lookup ⟨provider.bucket, key⟩ = none)
    (halone : ∀ operation ∈ operations, operation.LeavesAlone t) {key : JsString}
    (hkey : key ∈ objectKeys (provider.store (runOperations provider keyPrefix sha256 w operations)) provider.bucket
      (tenantPrefix t none)) : UploadedByTenant provider keyPrefix sha256 w operations t key := by
  obtain ⟨hstarts, hstored⟩ := (mem_objectKeys _ _ _ _).mp hkey
  obtain ⟨earlier, operation, later, rfl, hslot, hthere⟩ :=
    stored_by_operation hupload hput (hempty key) operations hstored
  have hfolder := Operation.folder_of_prefix hslot hstarts
  rcases halone operation (by simp) with ⟨u, body, uuid, rfl⟩ | hother
  · have hcanonical := tenantKey_canonical u body.category body.extension uuid
    have hresolved : resolveKey (tenantKey u body.category body.extension uuid) =
        some (tenantKey u body.category body.extension uuid) := by
      rw [resolveKey, if_neg (not_or.mpr ⟨hcanonical.1, hcanonical.2.1⟩),
        collapseSlashes_eq_self hcanonical.2.2]
    have hsame : some (⟨provider.bucket, tenantKey u body.category body.extension uuid⟩ : Slot) =
        some ⟨provider.bucket, key⟩ := by
      rw [← hslot, Provider.slot, Operation.key, hresolved]
      rfl
    exact ⟨earlier, u, body, uuid, later, rfl, hfolder.symm, congrArg Slot.key (Option.some.inj hsame), hthere⟩
  · exact absurd hfolder.symm hother

/-- In a run whose requests leave the tenant's folder to the tenant, clearing the tenant
clears only that tenant. -/
theorem clear_only_own_uploads (listing : provider.ListContract) (hdelete : provider.DeleteManyContract)
    (hupload : provider.UploadContract) (hput : provider.PutContract) (keyPrefix : JsString)
    (sha256 : List Byte → HexDigest) (hempty : ∀ key, (provider.store w).lookup ⟨provider.bucket, key⟩ = none)
    (halone : ∀ operation ∈ operations, operation.LeavesAlone t) :
    ClearsOnlyOwn provider keyPrefix sha256 w operations t := by
  constructor
  · intro query
    refine (list_shows_own_keys listing keyPrefix t query _).mono ?_ (fun _ _ h => h)
    rintro view w' ⟨-, hkeys⟩ key hkey
    have hprefixed := (mem_objectKeys _ _ _ _).mp (hkeys key hkey)
    have hnarrow : tenantPrefix t none <+: tenantPrefix t query.category := by
      cases query.category with
      | none => exact List.prefix_rfl
      | some category => exact ⟨category.text ++ [slash], by simp [tenantPrefix]⟩
    exact uploadedByTenant_of_mem hupload hput hempty halone
      ((mem_objectKeys _ _ _ _).mpr ⟨hnarrow.trans hprefixed.1, hprefixed.2⟩)
  · obtain ⟨rounds, view, s', hclear, hexact⟩ :=
      clear_exact listing hdelete t (runOperations provider keyPrefix sha256 w operations)
    exact ⟨rounds, view, s', hclear, fun key hkey =>
      uploadedByTenant_of_mem hupload hput hempty halone ((hexact.asked key).mp hkey)⟩

/-- Whatever else lies under the tenant's prefix is deleted with the rest. -/
theorem not_clearsOnlyOwn (listing : provider.ListContract) (hdelete : provider.DeleteManyContract) {key : JsString}
    (hkey : key ∈ objectKeys (provider.store (runOperations provider keyPrefix sha256 w operations)) provider.bucket
      (tenantPrefix t none)) (hother : ¬ UploadedByTenant provider keyPrefix sha256 w operations t key) :
    ¬ ClearsOnlyOwn provider keyPrefix sha256 w operations t := by
  intro h
  obtain ⟨rounds, view, s', hclear, hown⟩ := h.deleted
  obtain ⟨rounds', view', s'', hclear', hexact⟩ :=
    clear_exact listing hdelete t (runOperations provider keyPrefix sha256 w operations)
  -- with fuel for both, the two runs are one
  have hsame := (hclear (max rounds rounds') (le_max_left _ _)).symm.trans
    (hclear' (max rounds rounds') (le_max_right _ _))
  rw [Prod.mk.injEq] at hsame
  rw [hsame.2] at hown
  exact hother (hown key ((hexact.asked key).mpr hkey))

end Clears

section Collisions
variable {sha256 : List Byte → HexDigest} {operation : Operation}

private theorem collapse_of_not_slash {s : JsString} (h : slash ∉ s) : collapseSlashes s = s := by
  have hself := collapseSlashes_append h []
  rw [List.append_nil] at hself
  exact hself.trans (List.append_nil s)

private theorem ne_segment_of_not_slash {s segment tail : JsString} (h : slash ∉ s) :
    s ≠ segment ++ slash :: tail := by
  rintro rfl
  exact h (by simp)

private theorem ne_segment_of_odd_unit {front rest segment tail : JsString} (hfront : slash ∉ front) {c : CodeUnit}
    (hc : c ∈ front) (hodd : isKeySeedUnit c = false) (hsegment : PlainSegment segment) :
    front ++ rest ≠ segment ++ slash :: tail := by
  have hnot : c ∉ segment := by
    intro hmem
    rw [hsegment c hmem] at hodd
    cases hodd
  intro h
  rcases List.append_eq_append_iff.mp h with ⟨middle, rfl, -⟩ | ⟨middle, rfl, hmiddle⟩
  · exact hnot (List.mem_append_left _ hc)
  · cases middle with
    | nil => exact hnot (by rwa [List.append_nil] at hc)
    | cons d middle =>
      rw [List.cons_append, List.cons.injEq] at hmiddle
      exact hfront (List.mem_append_right _ (by rw [← hmiddle.1]; exact List.mem_cons_self))

/-- Past the folder a tenant key goes on with a plain segment and a slash; no other key does. -/
theorem Operation.rest_ne_segment (hother : ∀ u body uuid, operation ≠ .tenantUpload u body uuid) {segment : JsString}
    (hsegment : PlainSegment segment) (tail : JsString) :
    collapseSlashes (operation.rest sha256) ≠ segment ++ slash :: tail := by
  cases operation with
  | fileUpload request uuid =>
    rcases extractExtension_cases request.filename with ⟨-, hext⟩ | ⟨stem, extension, -, -, hext⟩
    · rw [Operation.rest, hext, List.append_nil, collapse_of_not_slash uuid.plain.not_slash]
      exact ne_segment_of_not_slash uuid.plain.not_slash
    · have hfront : slash ∉ uuid.text ++ [dot] := by
        rw [List.mem_append, not_or]
        exact ⟨uuid.plain.not_slash, by decide⟩
      rw [Operation.rest, hext, List.append_cons, collapseSlashes_append hfront]
      exact ne_segment_of_odd_unit hfront (List.mem_append_right _ (List.mem_singleton_self dot)) (by decide) hsegment
  | idempotentUpload body =>
    have h : slash ∉ Operation.rest sha256 (.idempotentUpload body) := by
      rw [Operation.rest, List.mem_append, not_or]
      exact ⟨(HexDigest.plain _).not_slash, by decide⟩
    rw [collapse_of_not_slash h]
    exact ne_segment_of_not_slash h
  | signedPut category uuid object =>
    rw [Operation.rest, collapse_of_not_slash uuid.plain.not_slash]
    exact ne_segment_of_not_slash uuid.plain.not_slash
  | scannerUpload body uuid =>
    have h : slash ∉ Operation.rest sha256 (.scannerUpload body uuid) := by
      rw [Operation.rest, List.mem_append, not_or]
      exact ⟨(markerLabel_plain _).not_slash, (keySeed_elim_plain body.keySeed uuid).1.not_slash⟩
    rw [collapse_of_not_slash h]
    exact ne_segment_of_not_slash h
  | tenantUpload u body uuid => exact absurd rfl (hother u body uuid)

end Collisions

section InMemory
variable {bucket : JsString} (keyPrefix : JsString) {sha256 : List Byte → HexDigest} {slot : Slot}

/-- In memory a request stores its object, and none takes one away. -/
theorem Operation.perform_isSome (operation : Operation) {m : Memory}
    (h : (m.store.lookup slot).isSome = true ∨ Memory.slot bucket none (operation.key sha256) = some slot) :
    ((operation.perform (Memory.provider bucket) keyPrefix sha256 m).store.lookup slot).isSome = true := by
  cases operation with
  | fileUpload request uuid => exact Memory.upload_isSome bucket h
  | idempotentUpload body =>
    rw [Operation.perform, UploadsService.uploadIdempotent, Async.bind_world _ (fun _ _ => rfl)]
    exact Memory.upload_isSome bucket h
  | signedPut category uuid object => exact Memory.put_isSome bucket h
  | scannerUpload body uuid =>
    rw [Operation.perform, ScannerLabService.upload, Async.bind_world _ (fun _ _ => rfl)]
    exact Memory.upload_isSome bucket h
  | tenantUpload tenant body uuid =>
    rw [Operation.perform, TenantsService.upload, Async.bind_world _ (fun _ _ => rfl)]
    exact Memory.upload_isSome bucket h

theorem runOperations_isSome (operations : List Operation) (m : Memory)
    (h : (m.store.lookup slot).isSome = true ∨
      ∃ operation ∈ operations, Memory.slot bucket none (operation.key sha256) = some slot) :
    ((runOperations (Memory.provider bucket) keyPrefix sha256 m operations).store.lookup slot).isSome = true := by
  induction operations generalizing m with
  | nil =>
    rcases h with h | ⟨operation, hmem, -⟩
    · exact h
    · cases hmem
  | cons operation operations ih =>
    refine ih _ ?_
    rcases h with h | ⟨found, hmem, hslot⟩
    · exact Or.inl (operation.perform_isSome keyPrefix (Or.inl h))
    · rcases List.mem_cons.mp hmem with rfl | hmem
      · exact Or.inl (found.perform_isSome keyPrefix (Or.inr hslot))
      · exact Or.inr ⟨found, hmem, hslot⟩

end InMemory

/-- Every library that keeps its contracts clears only the tenant's own after the run. -/
def AlwaysClearsOnlyOwn (keyPrefix : JsString) (sha256 : List Byte → HexDigest) (operations : List Operation)
    (t : TenantSlug) : Prop :=
  ∀ (W : Type) (provider : Provider W), provider.ListContract → provider.DeleteManyContract →
    provider.UploadContract → provider.PutContract → ∀ w : W,
    (∀ key, (provider.store w).lookup ⟨provider.bucket, key⟩ = none) →
    ClearsOnlyOwn provider keyPrefix sha256 w operations t

/-- Clearing a tenant clears only that tenant exactly after the runs whose requests leave
the tenant's folder to the tenant. -/
theorem clear_only_own_uploads_iff (keyPrefix : JsString) (sha256 : List Byte → HexDigest)
    (operations : List Operation) (t : TenantSlug) :
    AlwaysClearsOnlyOwn keyPrefix sha256 operations t ↔
      ∀ operation ∈ operations, operation.LeavesAlone t := by
  constructor
  · intro h operation hmem
    by_contra hviolates
    simp only [Operation.LeavesAlone, not_or, not_exists, not_not] at hviolates
    obtain ⟨hother, hfolder⟩ := hviolates
    obtain ⟨key, hshape⟩ : ∃ key, key = operation.folder ++ slash :: collapseSlashes (operation.rest sha256) :=
      ⟨_, rfl⟩
    have hslot : Memory.slot (js "vault") none (operation.key sha256) = some ⟨js "vault", key⟩ := by
      rw [Memory.slot, operation.resolved_key, hshape]
      rfl
    have hstored := runOperations_isSome keyPrefix operations ⟨∅, 0⟩ (Or.inr ⟨operation, hmem, hslot⟩)
    refine not_clearsOnlyOwn (Memory.list_contract (js "vault")) (Memory.deleteMany_contract (js "vault"))
      ((mem_objectKeys _ _ _ key).mpr ⟨?_, hstored⟩) ?_
      (h Memory (Memory.provider (js "vault")) (Memory.list_contract _) (Memory.deleteMany_contract _)
        (Memory.upload_contract _) (Memory.put_contract _) ⟨∅, 0⟩ (fun key => Finmap.lookup_empty _))
    · rw [hshape, hfolder]
      exact (segment_prefix_iff t.plain.not_slash t.plain.not_slash _).mpr rfl
    · -- the key has another shape than every tenant key
      rintro ⟨-, u, body, uuid, -, -, hu, hsame, -⟩
      rw [hshape, tenantKey, hfolder, hu] at hsame
      exact operation.rest_ne_segment hother body.category.plain _
        (List.cons.inj (List.append_cancel_left hsame)).2.symm
  · intro halone W provider listing hdelete hupload hput w hempty
    exact clear_only_own_uploads listing hdelete hupload hput keyPrefix sha256 hempty halone

def sampleUuid : Uuid := ⟨js "123e4567-e89b-42d3-a456-426614174000", by decide⟩

def sampleDigest : HexDigest := ⟨List.replicate 64 0x30, by decide⟩

/-- An avatar of two bytes. -/
def avatarRequest : FileUpload :=
  .single ⟨js "me.png", js "image/png", 2, [104, 105], by decide⟩ ⟨.avatars, none, none, none⟩

def avatarUpload : Operation := .fileUpload avatarRequest sampleUuid

/-- A tenant may be called `avatars`. -/
theorem clear_avatars_deletes_avatar :
    ¬ ClearsOnlyOwn (Memory.provider (js "vault")) (js "storage-example") (fun _ => sampleDigest) ⟨∅, 0⟩
      [avatarUpload] ⟨js "avatars", by decide⟩ := by
  have hstored : ((Memory.provider (js "vault")).store (runOperations (Memory.provider (js "vault"))
      (js "storage-example") (fun _ => sampleDigest) ⟨∅, 0⟩ [avatarUpload])).lookup
        ⟨js "vault", avatarUpload.key (fun _ => sampleDigest)⟩ =
      some (StoredObject.plain [104, 105] (some (js "image/png")) [] 0) := by
    have hslot : Memory.slot (js "vault") none (avatarUpload.key (fun _ => sampleDigest)) =
        some ⟨js "vault", avatarUpload.key (fun _ => sampleDigest)⟩ := by decide
    have hrun := @Memory.upload_run (js "vault") ⟨∅, 0⟩ (avatarRequest.options sampleUuid) _ hslot
    have hstore := congrArg (fun outcome => Finmap.lookup
      (⟨js "vault", avatarUpload.key (fun _ => sampleDigest)⟩ : Slot) (Memory.store outcome.2)) hrun
    exact hstore.trans (Finmap.lookup_insert _)
  refine not_clearsOnlyOwn (Memory.list_contract _) (Memory.deleteMany_contract _)
    ((mem_objectKeys _ _ _ _).mpr ⟨by decide, Option.isSome_iff_exists.mpr ⟨_, hstored⟩⟩) ?_
  rintro ⟨earlier, u, body, uuid, later, hrun, -⟩
  cases earlier with
  | nil => cases hrun
  | cons first earlier => simp at hrun

end NestStorageExample.Api
