import NestStorageExample.Api.Confirm
import NestStorageExample.Api.ProviderKey
import NestStorageExample.Api.StorageConfig

/-! The library's instances as the error triggers drive them: the upload pipeline in its
documented order, and what each other call turns down before it asks the provider. -/
namespace NestStorageExample.Api
open Text Effects Storage
variable {W α : Type}

/-- The call rejects with a `StorageException` that carries the code. -/
def RejectsWith (code : ErrorCode) (m : Async Rejection W α) (w : W) : Prop :=
  ∃ exception w', m w = (.error (.storage exception), w') ∧ exception.code = code

def Resolves (m : Async Rejection W α) (w : W) : Prop := ∃ a w', m w = (.ok a, w')

theorem RejectsWith.unique {m : Async Rejection W α} {w : W} {code code' : ErrorCode}
    (h : RejectsWith code m w) (h' : RejectsWith code' m w) : code = code' := by
  obtain ⟨exception, w1, hm, rfl⟩ := h
  obtain ⟨exception', w2, hm', rfl⟩ := h'
  rw [hm] at hm'
  cases hm'
  rfl

theorem Resolves.not_rejectsWith {m : Async Rejection W α} {w : W} (h : Resolves m w) (code : ErrorCode) :
    ¬ RejectsWith code m w := by
  obtain ⟨a, w1, hm⟩ := h
  rintro ⟨exception, w2, hm', -⟩
  rw [hm] at hm'
  cases hm'

/-- The options of an `upload` as they may reach the library: the body can be missing. -/
structure UploadRequest where
  key : JsString
  body : Option UploadBody
  contentType : JsString
  size : Option Nat

structure DownloadUrlRequest where
  key : JsString
  ttlSeconds : Option Int

structure MultipartUrlsRequest where
  key : JsString
  contentType : JsString
  parts : Int

/-- An instance with credentials; the others turn every call down. -/
def Configured (options : ModuleOptions) : Prop :=
  ∃ credentials ∈ options.credentials, credentials.accessKeyId ≠ [] ∧ credentials.secretAccessKey ≠ []

instance (options : ModuleOptions) : Decidable (Configured options) := by
  unfold Configured
  infer_instance

/-- An instance with credentials and a default bucket. -/
structure Ready (options : ModuleOptions) : Prop where
  configured : Configured options
  bucket : ∃ bucket ∈ options.rest.bucket, bucket ≠ []

/-- What the documented order of the pipeline leaves open: the key a scanner is shown for the
key of a call, and the peek into a stream, where there is one. -/
structure UploadPipeline where
  scannedKey : ModuleOptions → JsString → JsString
  peekStream : List Chunk → Option (Nat → List Byte)

/-- The library, every call on an instance known by the options it was built with, and the
provider behind it: whether it takes an instance's connection, and which keys it holds. -/
structure StorageLibrary (W : Type) extends UploadPipeline where
  forRoot : ModuleOptions → Except StorageException Unit
  upload : ModuleOptions → UploadRequest → Async Rejection W UploadResult
  head : ModuleOptions → JsString → Option JsString → Async Rejection W ObjectMetadata
  getDownloadUrl : ModuleOptions → DownloadUrlRequest → Async Rejection W JsString
  getMultipartUploadUrls : ModuleOptions → MultipartUrlsRequest → Async Rejection W (List JsString)
  defaults : MimeDefaults
  Serves : W → ModuleOptions → Prop
  Holds : W → ModuleOptions → JsString → Prop

namespace UploadPipeline
variable (pipeline : UploadPipeline) (options : ModuleOptions) (request : UploadRequest)

def keyStage : Option ErrorCode := if resolveKey request.key = none then some .keyInvalid else none

def bodyStage : Option ErrorCode := if request.body.isNone then some .bodyMissing else none

def contentTypeStage : Option ErrorCode := if request.contentType = [] then some .contentTypeRequired else none

def mimeStage : Option ErrorCode :=
  match options.validation.bind ValidationOptions.mimeWhitelist with
  | none => none
  | some whitelist =>
    if whitelist = [] ∨ isMimeAllowed (some request.contentType) whitelist then none else some .mimeNotAllowed

/-- The declared size, or the length of a buffer; a stream without a size has none yet. -/
def requestSize : Option Nat :=
  match request.size, request.body with
  | some size, _ => some size
  | none, some (.buffer bytes) => some bytes.length
  | none, _ => none

def sizeStage : Option ErrorCode :=
  match options.validation.bind ValidationOptions.maxSizeBytes, requestSize request with
  | some maxSizeBytes, some size => if maxSizeBytes < size then some .sizeExceeded else none
  | _, _ => none

def readBytes : Option (Nat → List Byte) :=
  match request.body with
  | some (.buffer bytes) => some (fun count => bytes.take count)
  | some (.stream chunks) => pipeline.peekStream chunks
  | none => none

def validatorStage : Option ErrorCode :=
  let validators := (options.validation.bind ValidationOptions.customValidators).getD []
  if ∀ validator ∈ validators, validator.internals ⟨request.contentType, pipeline.readBytes request⟩ = .ok then none
  else some .validationFailed

/-- An infected verdict rejects, an unknown one where it is asked to. -/
def verdictCode (rejectOnUnknown : Option Bool) : FileScanStatus → Option ErrorCode
  | .clean => none
  | .infected => some .scanInfected
  | .unknown => if rejectOnUnknown = some true then some .scanInconclusive else none

/-- A scan, in the mode it is meant for. -/
def scanStage (mode : ScannerMode) (input : ScanInput) : Option ErrorCode :=
  match options.scanner with
  | none => none
  | some scanner =>
    if scanner.mode.getD .preUpload = mode then
      verdictCode scanner.rejectOnUnknown (scanner.impl.internals input).status
    else none

/-- The stages up to the provider; the first that turns the upload down names its code. -/
def beforeProvider : Option ErrorCode :=
  [keyStage request, bodyStage request, contentTypeStage request, mimeStage options request,
    sizeStage options request, pipeline.validatorStage options request,
    scanStage options .preUpload ⟨request.body, pipeline.scannedKey options request.key⟩].findSome? id

/-- The scan of a stored object, which is shown the key alone. -/
def afterProvider : Option ErrorCode :=
  scanStage options .postUpload ⟨none, pipeline.scannedKey options request.key⟩

variable {pipeline options request} {code : ErrorCode}

theorem verdictCode_eq_infected_iff (rejectOnUnknown : Option Bool) (status : FileScanStatus) :
    verdictCode rejectOnUnknown status = some .scanInfected ↔ status = .infected := by
  cases status with
  | clean => simp [verdictCode]
  | infected => simp [verdictCode]
  | unknown =>
    rw [verdictCode]
    split <;> simp

theorem verdictCode_codes {rejectOnUnknown : Option Bool} {status : FileScanStatus}
    (h : verdictCode rejectOnUnknown status = some code) : code = .scanInfected ∨ code = .scanInconclusive := by
  cases status with
  | clean => cases h
  | infected => exact Or.inl (Option.some.inj h).symm
  | unknown =>
    rw [verdictCode] at h
    split at h
    · exact Or.inr (Option.some.inj h).symm
    · cases h

theorem scanStage_codes {mode : ScannerMode} {input : ScanInput} (h : scanStage options mode input = some code) :
    code = .scanInfected ∨ code = .scanInconclusive := by
  unfold scanStage at h
  split at h
  · cases h
  · split at h
    · exact verdictCode_codes h
    · cases h

theorem beforeProvider_of_key (h : keyStage request = some code) :
    pipeline.beforeProvider options request = some code := by
  simp [beforeProvider, h]

theorem beforeProvider_of_body (hkey : keyStage request = none) (h : bodyStage request = some code) :
    pipeline.beforeProvider options request = some code := by
  simp [beforeProvider, hkey, h]

theorem beforeProvider_of_contentType (hkey : keyStage request = none) (hbody : bodyStage request = none)
    (h : contentTypeStage request = some code) : pipeline.beforeProvider options request = some code := by
  simp [beforeProvider, hkey, hbody, h]

theorem beforeProvider_of_mime (hkey : keyStage request = none) (hbody : bodyStage request = none)
    (hcontentType : contentTypeStage request = none) (h : mimeStage options request = some code) :
    pipeline.beforeProvider options request = some code := by
  simp [beforeProvider, hkey, hbody, hcontentType, h]

/-- An upload that passes the first four stages is up to its size, the validators and the scan. -/
theorem beforeProvider_eq (hkey : keyStage request = none) (hbody : bodyStage request = none)
    (hcontentType : contentTypeStage request = none) (hmime : mimeStage options request = none) :
    pipeline.beforeProvider options request =
      (sizeStage options request).or ((pipeline.validatorStage options request).or
        (scanStage options .preUpload ⟨request.body, pipeline.scannedKey options request.key⟩)) := by
  rw [beforeProvider]
  simp only [List.findSome?_cons, hkey, hbody, hcontentType, hmime, id_eq, List.findSome?_nil]
  cases sizeStage options request <;> cases pipeline.validatorStage options request <;>
    cases scanStage options .preUpload ⟨request.body, pipeline.scannedKey options request.key⟩ <;> rfl

end UploadPipeline

namespace StorageLibrary
variable (library : StorageLibrary W)

/-- What the library is documented to do, one call at a time. -/
structure Contract : Prop where
  forRoot_incomplete : ∀ {options : ModuleOptions}, options.rest.endpoint = none ∨ options.rest.region = none ∨
    options.rest.bucket = none ∨ options.credentials = none →
    ∃ exception, library.forRoot options = .error exception ∧ exception.code = .invalidConfig
  forRoot_complete : ∀ {options : ModuleOptions}, options.rest.endpoint.isSome → options.rest.region.isSome →
    options.rest.bucket.isSome → options.credentials.isSome → library.forRoot options = .ok ()
  upload_rejected : ∀ {options request code w}, Ready options →
    library.beforeProvider options request = some code → RejectsWith code (library.upload options request) w
  upload_unserved : ∀ {options request w}, Ready options → library.beforeProvider options request = none →
    ¬ library.Serves w options → RejectsWith .providerError (library.upload options request) w ∨
      RejectsWith .multipartAborted (library.upload options request) w
  /-- a stream of unknown size takes the multipart path -/
  stream_unserved : ∀ {options request chunks w}, Ready options →
    library.beforeProvider options request = none → ¬ library.Serves w options →
    request.body = some (.stream chunks) → request.size = none →
    RejectsWith .multipartAborted (library.upload options request) w
  upload_served : ∀ {options request w}, Ready options → library.beforeProvider options request = none →
    library.Serves w options → match library.afterProvider options request with
      | some code => RejectsWith code (library.upload options request) w
      | none => Resolves (library.upload options request) w
  head_unconfigured : ∀ {options key bucket w}, ¬ Configured options →
    RejectsWith .notConfigured (library.head options key bucket) w
  head_bucket : ∀ {options key w}, Ready options → resolveKey key ≠ none →
    RejectsWith .bucketUndefined (library.head options key (some [])) w
  head_unserved : ∀ {options key w}, Ready options → resolveKey key ≠ none → ¬ library.Serves w options →
    RejectsWith .providerError (library.head options key none) w
  head_absent : ∀ {options key w}, Ready options → resolveKey key ≠ none → library.Serves w options →
    ¬ library.Holds w options key → RejectsWith .objectNotFound (library.head options key none) w
  head_present : ∀ {options key w}, Ready options → resolveKey key ≠ none → library.Serves w options →
    library.Holds w options key → Resolves (library.head options key none) w
  ttl_invalid : ∀ {options request w}, Ready options → resolveKey request.key ≠ none →
    request.ttlSeconds = some 0 → RejectsWith .signedUrlTtlInvalid (library.getDownloadUrl options request) w
  parts_invalid : ∀ {options request w}, Ready options → resolveKey request.key ≠ none →
    request.contentType ≠ [] → request.parts ≤ 0 →
    RejectsWith .invalidPartCount (library.getMultipartUploadUrls options request) w
  /-- the shipped whitelists, as the validation page shows them -/
  png_allowed : js "image/png" ∈ library.defaults.imageMimeWhitelist
  pdf_allowed : js "application/pdf" ∈ library.defaults.docMimeWhitelist
  zip_not_allowed : ∀ entry ∈ library.defaults.imageMimeWhitelist ++ library.defaults.docMimeWhitelist,
    ¬ MimeMatches entry (js "application/zip")

variable {library} {options : ModuleOptions} {request : UploadRequest} {code : ErrorCode} {w : W}

/-- What an upload raises apart from the provider's own failures: the code of the first
stage that turns it down, or of the scan of what was stored. -/
theorem Contract.upload_rejectsWith_iff (contract : library.Contract) (hready : Ready options)
    (hprovider : code ≠ .providerError) (hmultipart : code ≠ .multipartAborted) :
    RejectsWith code (library.upload options request) w ↔
      library.beforeProvider options request = some code ∨
        (library.beforeProvider options request = none ∧ library.Serves w options ∧
          library.afterProvider options request = some code) := by
  cases hbefore : library.beforeProvider options request with
  | some first =>
    have hrejected := contract.upload_rejected (w := w) hready hbefore
    constructor
    · exact fun h => Or.inl (congrArg some (hrejected.unique h))
    · rintro (h | ⟨h, -⟩)
      · cases h
        exact hrejected
      · cases h
  | none =>
    simp only [reduceCtorEq, true_and, false_or]
    by_cases hserves : library.Serves w options
    · have hserved := contract.upload_served hready hbefore hserves
      cases hafter : library.afterProvider options request with
      | some scan =>
        rw [hafter] at hserved
        constructor
        · exact fun h => ⟨hserves, congrArg some (hserved.unique h)⟩
        · rintro ⟨-, h⟩
          cases h
          exact hserved
      | none =>
        rw [hafter] at hserved
        exact iff_of_false (hserved.not_rejectsWith code) (fun h => by cases h.2)
    · refine iff_of_false (fun h => ?_) (fun h => hserves h.1)
      rcases contract.upload_unserved hready hbefore hserves with h' | h'
      · exact hprovider (h.unique h')
      · exact hmultipart (h.unique h')

end StorageLibrary

/-! A library that keeps the contract, over the keys its provider holds. The provider knows
one pair of credentials. -/

abbrev HeldKeys := List (Option JsString × JsString)

def knownCredentials : StorageCredentials := ⟨devCredentialDefault, devCredentialDefault, none⟩

def reject (code : ErrorCode) : Async Rejection W α := fun w => (.error (.storage ⟨code, []⟩), w)

theorem rejectsWith_reject (code : ErrorCode) (w : W) : RejectsWith code (reject code : Async Rejection W α) w :=
  ⟨⟨code, []⟩, w, rfl, rfl⟩

def documentedPipeline : UploadPipeline where
  scannedKey options key := composeFullKey (trimSlashes (options.rest.keyPrefix.getD [])) key
  peekStream _ := none

def documentedUpload (options : ModuleOptions) (request : UploadRequest) : Async Rejection HeldKeys UploadResult :=
  if Configured options then
    match documentedPipeline.beforeProvider options request with
    | some code => reject code
    | none =>
      if options.credentials = some knownCredentials then
        match documentedPipeline.afterProvider options request with
        | some code => reject code
        | none => fun held => (.ok ⟨request.size.isNone⟩, (options.rest.bucket, request.key) :: held)
      else if request.size.isNone then reject .multipartAborted
      else reject .providerError
  else reject .notConfigured

def lookupHeld (slot : Option JsString × JsString) : Async Rejection HeldKeys ObjectMetadata := fun held =>
  if slot ∈ held then (.ok (StoredObject.plain [] none [] 0).metadata, held) else reject .objectNotFound held

def documentedHead (options : ModuleOptions) (key : JsString) (bucket : Option JsString) :
    Async Rejection HeldKeys ObjectMetadata :=
  if ¬ Configured options then reject .notConfigured
  else if resolveKey key = none then reject .keyInvalid
  else if bucket = some [] then reject .bucketUndefined
  else if options.credentials = some knownCredentials then lookupHeld (bucket.or options.rest.bucket, key)
  else reject .providerError

def documentedForRoot (options : ModuleOptions) : Except StorageException Unit :=
  if options.rest.endpoint = none ∨ options.rest.region = none ∨ options.rest.bucket = none ∨
    options.credentials = none then .error ⟨.invalidConfig, []⟩ else .ok ()

def documentedLibrary : StorageLibrary HeldKeys where
  toUploadPipeline := documentedPipeline
  forRoot := documentedForRoot
  upload := documentedUpload
  head := documentedHead
  getDownloadUrl options request :=
    if ¬ Configured options then reject .notConfigured
    else if resolveKey request.key = none then reject .keyInvalid
    else if ∃ ttlSeconds ∈ request.ttlSeconds, ttlSeconds ≤ 0 then reject .signedUrlTtlInvalid
    else pure request.key
  getMultipartUploadUrls options request :=
    if ¬ Configured options then reject .notConfigured
    else if resolveKey request.key = none then reject .keyInvalid
    else if request.contentType = [] then reject .contentTypeRequired
    else if request.parts ≤ 0 then reject .invalidPartCount
    else pure (List.replicate request.parts.toNat request.key)
  defaults := ⟨[js "image/png", js "image/jpeg"], [js "application/pdf"]⟩
  Serves _ options := options.credentials = some knownCredentials
  Holds held options key := (options.rest.bucket, key) ∈ held

section Documented
variable {options : ModuleOptions} {request : UploadRequest} {held : HeldKeys}

theorem documentedUpload_of_before (hready : Ready options) {code : ErrorCode}
    (h : documentedPipeline.beforeProvider options request = some code) :
    documentedUpload options request = reject code := by
  rw [documentedUpload, if_pos hready.configured, h]

theorem documentedUpload_unserved (hready : Ready options)
    (h : documentedPipeline.beforeProvider options request = none)
    (hserves : options.credentials ≠ some knownCredentials) :
    documentedUpload options request =
      if request.size.isNone then reject .multipartAborted else reject .providerError := by
  rw [documentedUpload, if_pos hready.configured, h]
  exact if_neg hserves

theorem documentedUpload_served (hready : Ready options)
    (h : documentedPipeline.beforeProvider options request = none)
    (hserves : options.credentials = some knownCredentials) :
    documentedUpload options request = match documentedPipeline.afterProvider options request with
      | some code => reject code
      | none => fun held => (.ok ⟨request.size.isNone⟩, (options.rest.bucket, request.key) :: held) := by
  rw [documentedUpload, if_pos hready.configured, h]
  exact if_pos hserves

theorem documentedHead_ready (hready : Ready options) {key : JsString} (hkey : resolveKey key ≠ none)
    (bucket : Option JsString) : documentedHead options key bucket =
      if bucket = some [] then reject .bucketUndefined
      else if options.credentials = some knownCredentials then lookupHeld (bucket.or options.rest.bucket, key)
      else reject .providerError := by
  rw [documentedHead, if_neg (not_not_intro hready.configured), if_neg hkey]

theorem documentedLibrary_contract : documentedLibrary.Contract where
  forRoot_incomplete h := ⟨_, if_pos h, rfl⟩
  forRoot_complete hendpoint hregion hbucket hcredentials := by
    refine if_neg ?_
    simp only [not_or]
    exact ⟨Option.isSome_iff_ne_none.mp hendpoint, Option.isSome_iff_ne_none.mp hregion,
      Option.isSome_iff_ne_none.mp hbucket, Option.isSome_iff_ne_none.mp hcredentials⟩
  upload_rejected hready h := by
    change RejectsWith _ (documentedUpload _ _) _
    rw [documentedUpload_of_before hready h]
    exact rejectsWith_reject _ _
  upload_unserved {options request w} hready h hserves := by
    change RejectsWith _ (documentedUpload _ _) _ ∨ RejectsWith _ (documentedUpload _ _) _
    rw [documentedUpload_unserved hready h hserves]
    split
    · exact Or.inr (rejectsWith_reject _ _)
    · exact Or.inl (rejectsWith_reject _ _)
  stream_unserved hready h hserves hbody hsize := by
    change RejectsWith _ (documentedUpload _ _) _
    rw [documentedUpload_unserved hready h hserves, hsize]
    exact rejectsWith_reject _ _
  upload_served {options request w} hready h hserves := by
    have hupload : documentedLibrary.upload options request = _ := documentedUpload_served hready h hserves
    rw [hupload]
    change match documentedPipeline.afterProvider options request with
      | some code => RejectsWith code _ _
      | none => Resolves _ _
    cases documentedPipeline.afterProvider options request with
    | some code => exact rejectsWith_reject _ _
    | none => exact ⟨_, _, rfl⟩
  head_unconfigured {options key bucket w} h := by
    have hhead : documentedLibrary.head options key bucket = _ := if_pos h
    rw [hhead]
    exact rejectsWith_reject _ _
  head_bucket {options key w} hready hkey := by
    have hhead : documentedLibrary.head options key (some []) = _ := documentedHead_ready hready hkey _
    rw [hhead, if_pos rfl]
    exact rejectsWith_reject _ _
  head_unserved {options key w} hready hkey hserves := by
    have hhead : documentedLibrary.head options key none = _ := documentedHead_ready hready hkey _
    have hunknown : ¬ options.credentials = some knownCredentials := hserves
    rw [hhead, if_neg (by simp), if_neg hunknown]
    exact rejectsWith_reject _ _
  head_absent {options key w} hready hkey hserves hholds := by
    have hhead : documentedLibrary.head options key none = _ := documentedHead_ready hready hkey _
    have hknown : options.credentials = some knownCredentials := hserves
    rw [hhead, if_neg (by simp), if_pos hknown]
    exact ⟨_, _, if_neg hholds, rfl⟩
  head_present {options key w} hready hkey hserves hholds := by
    have hhead : documentedLibrary.head options key none = _ := documentedHead_ready hready hkey _
    have hknown : options.credentials = some knownCredentials := hserves
    rw [hhead, if_neg (by simp), if_pos hknown]
    exact ⟨_, _, if_pos hholds⟩
  ttl_invalid {options request w} hready hkey httl := by
    have hurl : documentedLibrary.getDownloadUrl options request = reject .signedUrlTtlInvalid := by
      change (if _ then _ else if _ then _ else if _ then _ else _) = _
      rw [if_neg (not_not_intro hready.configured), if_neg hkey, if_pos ⟨0, httl, le_rfl⟩]
    rw [hurl]
    exact rejectsWith_reject _ _
  parts_invalid {options request w} hready hkey hcontentType hparts := by
    have hurls : documentedLibrary.getMultipartUploadUrls options request = reject .invalidPartCount := by
      change (if _ then _ else if _ then _ else if _ then _ else if _ then _ else _) = _
      rw [if_neg (not_not_intro hready.configured), if_neg hkey, if_neg hcontentType, if_pos hparts]
    rw [hurls]
    exact rejectsWith_reject _ _
  png_allowed := List.mem_cons_self
  pdf_allowed := List.mem_cons_self
  zip_not_allowed := by
    intro entry hentry hmatches
    have hzip : isMimeAllowed (some (js "application/zip"))
        [js "image/png", js "image/jpeg", js "application/pdf"] = true :=
      (isMimeAllowed_iff _ _).mpr ⟨_, rfl, by decide, entry, hentry, hmatches⟩
    revert hzip
    decide

end Documented

end NestStorageExample.Api
