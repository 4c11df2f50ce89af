import NestStorageExample.Api.KeyComposition
import NestStorageExample.Api.UploadPipeline
import NestStorageExample.Collections.InsertionMap
import NestStorageExample.Runs.Guarded

/-! The error explorer: one trigger for each storage error code, run in an application that
goes on with other work, and the configurations under which each raises its own code. -/
namespace NestStorageExample.Api
open Text Effects Storage Collections Runs
variable {W α : Type}

/-- The running application as far as the triggers see it: the library's world, and the
scoped instances that have been built, by label. -/
structure TriggerApp (W : Type) where
  world : W
  contexts : InsertionMap JsString ModuleOptions

structure TriggerOutcome where
  code : ErrorCode
  reproducible : Bool
  note : String
  deriving DecidableEq

abbrev Trigger (W : Type) := Async Rejection (TriggerApp W) (Option TriggerOutcome)

structure TriggerConnection where
  endpoint : Option JsString
  region : Option JsString
  bucket : Option JsString

/-- The collaborators: the library with the options of the running module, the connection
facts, and the next `randomUUID()`. -/
structure TriggerDeps (W : Type) where
  library : StorageLibrary W
  options : ModuleOptions
  connection : TriggerConnection
  uuid : Uuid

/-- `CODE_META[code].reproducible`, what `GET /errors` shows. -/
def catalogueReproducible : ErrorCode → Bool
  | .partTooSmall => false
  | .timeout => false
  | _ => true

def oversizeBytes : Nat := 1099511627776

/-- A scoped instance against the real endpoint under other credentials. -/
def scopedOptions (c : TriggerConnection) (accessKeyId secretAccessKey : JsString) : ModuleOptions where
  credentials := some ⟨accessKeyId, secretAccessKey, none⟩
  scanner := none
  validation := none
  rest := { endpoint := c.endpoint, region := c.region, bucket := c.bucket, forcePathStyle := some true }

def unconfiguredOptions (c : TriggerConnection) : ModuleOptions := scopedOptions c [] []

def wrongCredentialsOptions (c : TriggerConnection) : ModuleOptions :=
  let options := scopedOptions c (js "wrong-access-key") (js "wrong-secret-key")
  { options with rest := { options.rest with maxAttempts := some 1 } }

def rejectUnknownOptions (c : TriggerConnection) : ModuleOptions :=
  { scopedOptions c (js "scan-only") (js "scan-only") with
    scanner := some ⟨markerFileScanner, some .preUpload, some true⟩ }

/-- `{}` -/
def emptyOptions : ModuleOptions := ⟨none, none, none, {}⟩

def nonReproducible (code : ErrorCode) : TriggerOutcome where
  code := code
  reproducible := false
  note := "This code is defined in STORAGE_ERROR_CODES but the shipped library has no code path that throws it. " ++
    "See GET /errors for the reconciled explanation."

/-- A call into the library. -/
def onLibrary (m : Async Rejection W α) : Async Rejection (TriggerApp W) α :=
  fun app => ((m app.world).1, { app with world := (m app.world).2 })

/-- `scoped.storage(label, options)`: the instance that is cached under the label, or a new one. -/
def scopedStorage (library : StorageLibrary W) (label : JsString) (options : ModuleOptions) :
    Async Rejection (TriggerApp W) ModuleOptions := fun app =>
  match app.contexts.get label with
  | some existing => (.ok existing, app)
  | none =>
    match library.forRoot options with
    | .error exception => (.error (.storage exception), app)
    | .ok () => (.ok options, { app with contexts := app.contexts.set label options })

/-- `await` and drop the answer. -/
def awaited (m : Async Rejection (TriggerApp W) α) : Async Rejection (TriggerApp W) (Option TriggerOutcome) := do
  let _ ← m
  return none

/-- A body of a `Buffer` that the upload declares in its length. -/
def bufferRequest (key : String) (body : String) (contentType : String) : UploadRequest :=
  let bytes := encodeUtf8 (js body)
  ⟨js key, some (.buffer bytes), js contentType, some bytes.length⟩

namespace TriggerDeps
variable (deps : TriggerDeps W)

def upload (request : UploadRequest) : Trigger W := awaited (onLibrary (deps.library.upload deps.options request))

def head (key : JsString) (bucket : Option JsString) : Trigger W :=
  awaited (onLibrary (deps.library.head deps.options key bucket))

def guardTriggers : ErrorCode → Option (Trigger W)
  | .keyInvalid => some (deps.upload
      ⟨js "errors-demo/../escape", some (.buffer (encodeUtf8 (js "x"))), js "text/plain", some 1⟩)
  | .bodyMissing => some (deps.upload ⟨js "errors-demo/no-body", none, js "text/plain", none⟩)
  | .contentTypeRequired => some (deps.upload
      ⟨js "errors-demo/no-content-type", some (.buffer (encodeUtf8 (js "x"))), [], some 1⟩)
  | .objectNotFound => some (deps.head (js "errors-demo/missing-" ++ deps.uuid.text) none)
  | .bucketUndefined => some (deps.head (js "errors-demo/bucket") (some []))
  | _ => none

def pipelineTriggers : ErrorCode → Option (Trigger W)
  | .mimeNotAllowed => some (deps.upload
      ⟨js "errors-demo/disallowed", some (.buffer (encodeUtf8 (js "x"))), js "application/zip", some 1⟩)
  | .sizeExceeded => some (deps.upload
      ⟨js "errors-demo/too-large.png", some (.buffer (encodeUtf8 (js "x"))), js "image/png", some oversizeBytes⟩)
  | .validationFailed => some (deps.upload
      (bufferRequest "errors-demo/forged.pdf" "this is not a pdf" "application/pdf"))
  | .scanInfected => some (deps.upload
      (bufferRequest "errors-demo/infected.png" "X-DEMO-INFECTED sample payload" "image/png"))
  | _ => none

def signedTriggers : ErrorCode → Option (Trigger W)
  | .signedUrlTtlInvalid => some (awaited (onLibrary
      (deps.library.getDownloadUrl deps.options ⟨js "errors-demo/ttl", some 0⟩)))
  | .invalidPartCount => some (awaited (onLibrary
      (deps.library.getMultipartUploadUrls deps.options ⟨js "errors-demo/parts", js "text/plain", 0⟩)))
  | _ => none

/-- A call on the scoped instance of the label. -/
def onScoped (label : JsString) (options : ModuleOptions) (call : ModuleOptions → Async Rejection W α) :
    Async Rejection (TriggerApp W) (Option TriggerOutcome) := do
  let context ← scopedStorage deps.library label options
  awaited (onLibrary (call context))

def scopedTriggers : ErrorCode → Option (Trigger W)
  | .notConfigured => some (deps.onScoped (js "unconfigured") (unconfiguredOptions deps.connection)
      (fun context => deps.library.head context (js "errors-demo/probe") none))
  | .providerError => some (deps.onScoped (js "wrong-credentials") (wrongCredentialsOptions deps.connection)
      (fun context => deps.library.head context (js "errors-demo/probe") none))
  | .scanInconclusive => some (deps.onScoped (js "reject-unknown") (rejectUnknownOptions deps.connection)
      (fun context => deps.library.upload context
        (bufferRequest "errors-demo/unknown.txt" "X-DEMO-UNKNOWN sample payload" "text/plain")))
  | .multipartAborted => some (deps.onScoped (js "wrong-credentials") (wrongCredentialsOptions deps.connection)
      (fun context => deps.library.upload context
        ⟨js "errors-demo/multipart", some (.stream [.buffer (encodeUtf8 (js "chunk"))]), js "text/plain", none⟩))
  | _ => none

/-- `forRoot({})` inside a promise, which turns its throw into a rejection. -/
def forRootProbe : Trigger W := fun app =>
  match deps.library.forRoot emptyOptions with
  | .error exception => (.error (.storage exception), app)
  | .ok () => (.ok none, app)

/-- The two codes without a throw site answer with an explanation. -/
def staticTriggers : ErrorCode → Option (Trigger W)
  | .invalidConfig => some deps.forRootProbe
  | .partTooSmall => some (fun app => (.ok (some (nonReproducible .partTooSmall)), app))
  | .timeout => some (fun app => (.ok (some (nonReproducible .timeout)), app))
  | _ => none

/-- The registry as the five records spread into one. -/
def buildTriggerRegistry (code : ErrorCode) : Option (Trigger W) :=
  deps.guardTriggers code <|> deps.pipelineTriggers code <|> deps.signedTriggers code <|>
    deps.scopedTriggers code <|> deps.staticTriggers code

end TriggerDeps

/-- The connection facts of the running module. -/
def runningConnection (options : ModuleOptions) : TriggerConnection :=
  ⟨options.rest.endpoint, options.rest.region, options.rest.bucket⟩

/-- The collaborators `ErrorsDemoService` builds its registry from. -/
def runningDeps (library : StorageLibrary W) (options : ModuleOptions) (uuid : Uuid) : TriggerDeps W :=
  ⟨library, options, runningConnection options, uuid⟩

def ErrorsDemoService.trigger (library : StorageLibrary W) (options : ModuleOptions) (uuid : Uuid)
    (code : ErrorCode) : Trigger W :=
  match (runningDeps library options uuid).buildTriggerRegistry code with
  | some trigger => trigger
  | none => fun app => (.error (.other (js "this.registry[code] is not a function")), app)

/-- Every code has a trigger, in one of the five records. -/
theorem TriggerDeps.buildTriggerRegistry_cases (deps : TriggerDeps W) (code : ErrorCode) : ∃ trigger,
    deps.buildTriggerRegistry code = some trigger ∧
      (deps.guardTriggers code = some trigger ∨ deps.pipelineTriggers code = some trigger ∨
        deps.signedTriggers code = some trigger ∨ deps.scopedTriggers code = some trigger ∨
        deps.staticTriggers code = some trigger) := by
  cases h : deps.buildTriggerRegistry code with
  | none => cases code <;> cases h
  | some trigger =>
    refine ⟨trigger, rfl, ?_⟩
    simp only [buildTriggerRegistry, Option.orElse_eq_orElse, Option.orElse_eq_or, Option.or_eq_some_iff] at h
    rcases h with h | ⟨-, h | ⟨-, h | ⟨-, h | ⟨-, h⟩⟩⟩⟩ <;> simp [h]

section Calls
variable {library : StorageLibrary W} {connection : TriggerConnection} {code : ErrorCode} {app : TriggerApp W}

theorem rejectsWith_awaited_iff (code : ErrorCode) (m : Async Rejection W α) (app : TriggerApp W) :
    RejectsWith code (awaited (onLibrary m)) app ↔ RejectsWith code m app.world := by
  have hlibrary : onLibrary m app = ((m app.world).1, { app with world := (m app.world).2 }) := rfl
  unfold RejectsWith awaited
  rw [Async.bind_apply, hlibrary]
  cases h : m app.world with
  | mk result w =>
    cases result with
    | ok a => simp
    | error e => simp

/-- The instances the triggers build, by label. -/
def scopedInstances (connection : TriggerConnection) : List (JsString × ModuleOptions) :=
  [(js "unconfigured", unconfiguredOptions connection), (js "wrong-credentials", wrongCredentialsOptions connection),
    (js "reject-unknown", rejectUnknownOptions connection)]

/-- Under a label of the triggers there is nothing but the instance they build. -/
def ContextsFit (connection : TriggerConnection) (contexts : InsertionMap JsString ModuleOptions) : Prop :=
  ∀ entry ∈ scopedInstances connection, ∀ options, contexts.get entry.1 = some options → options = entry.2

/-- A scoped call is a call on the instance of the label, built now or before. -/
theorem TriggerDeps.rejectsWith_onScoped_iff (deps : TriggerDeps W) (hfit : ContextsFit deps.connection app.contexts)
    {label : JsString} {options : ModuleOptions} (hmem : (label, options) ∈ scopedInstances deps.connection)
    (hforRoot : deps.library.forRoot options = .ok ()) (call : ModuleOptions → Async Rejection W α) :
    RejectsWith code (deps.onScoped label options call) app ↔ RejectsWith code (call options) app.world := by
  have hscoped : ∃ app', scopedStorage deps.library label options app = (.ok options, app') ∧
      app'.world = app.world := by
    unfold scopedStorage
    cases hget : app.contexts.get label with
    | some existing =>
      rw [hfit (label, options) hmem existing hget]
      exact ⟨app, rfl, rfl⟩
    | none =>
      dsimp only
      rw [hforRoot]
      exact ⟨_, rfl, rfl⟩
  obtain ⟨app', hscoped, hworld⟩ := hscoped
  rw [← hworld, ← rejectsWith_awaited_iff]
  unfold RejectsWith TriggerDeps.onScoped
  rw [Async.bind_of_ok hscoped]

end Calls

section Running
variable {library : StorageLibrary W} {env : Env} {request : UploadRequest}
open UploadPipeline

theorem buildStorageOptions_ready (defaults : MimeDefaults) (env : Env) : Ready (buildStorageOptions defaults env) where
  configured := ⟨_, rfl, env.accessKeyId_ne, env.secretAccessKey_ne⟩
  bucket := ⟨_, rfl, env.bucket_ne⟩

/-- A type the library ships in a whitelist of its own passes. -/
theorem mimeStage_running (hne : request.contentType ≠ [])
    (hmem : request.contentType ∈ library.defaults.imageMimeWhitelist ++ library.defaults.docMimeWhitelist) :
    mimeStage (buildStorageOptions library.defaults env) request = none := by
  have hallowed : isMimeAllowed (some request.contentType)
      (library.defaults.imageMimeWhitelist ++ library.defaults.docMimeWhitelist ++ [js "video/*"]) = true := by
    apply (isMimeAllowed_iff _ _).mpr
    exact ⟨_, rfl, hne, _, List.mem_append_left _ hmem, Or.inr (Or.inr (Or.inr rfl))⟩
  exact if_pos (Or.inr hallowed)

theorem mimeStage_zip (contract : library.Contract) (hzip : request.contentType = js "application/zip") :
    mimeStage (buildStorageOptions library.defaults env) request = some .mimeNotAllowed := by
  refine if_neg (not_or_intro (by simp) fun hallowed => ?_)
  obtain ⟨type, htype, -, entry, hentry, hmatches⟩ := (isMimeAllowed_iff _ _).mp hallowed
  obtain rfl : type = js "application/zip" := (Option.some.inj htype).symm.trans hzip
  rcases List.mem_append.mp hentry with hentry | hentry
  · exact contract.zip_not_allowed entry hentry hmatches
  · -- the one entry the API adds is for videos
    have hvideo : isMimeAllowed (some (js "application/zip")) [js "video/*"] = true :=
      (isMimeAllowed_iff _ _).mpr ⟨_, rfl, by decide, entry, hentry, hmatches⟩
    revert hvideo
    decide

theorem sizeStage_running (defaults : MimeDefaults) {size : Nat} (hsize : requestSize request = some size) :
    sizeStage (buildStorageOptions defaults env) request =
      if env.uploadMaxSizeBytes < size then some .sizeExceeded else none := by
  unfold sizeStage
  rw [hsize]
  rfl

theorem validatorStage_running :
    library.toUploadPipeline.validatorStage (buildStorageOptions library.defaults env) request =
      if PdfMagicByteValidator.validate ⟨request.contentType, library.readBytes request⟩ = .ok then none
      else some .validationFailed := by
  have hvalidators : (((buildStorageOptions library.defaults env).validation.bind
      ValidationOptions.customValidators).getD []) = [pdfMagicByteValidator] := rfl
  unfold validatorStage
  simp only [hvalidators, List.forall_mem_singleton]
  rfl

theorem scanStage_infected_iff (defaults : MimeDefaults) (mode : ScannerMode) (input : ScanInput) :
    scanStage (buildStorageOptions defaults env) mode input = some .scanInfected ↔
      env.scannerMode = mode ∧ (MarkerFileScanner.scan input).status = .infected := by
  have hscan : scanStage (buildStorageOptions defaults env) mode input = if env.scannerMode = mode then
      verdictCode (some env.scannerRejectOnUnknown) (MarkerFileScanner.scan input).status else none := rfl
  rw [hscan]
  by_cases hmode : env.scannerMode = mode
  · rw [if_pos hmode, and_iff_right hmode, verdictCode_eq_infected_iff]
  · simp [hmode]

theorem scanStage_other_mode (defaults : MimeDefaults) {mode : ScannerMode} (hmode : env.scannerMode ≠ mode)
    (input : ScanInput) : scanStage (buildStorageOptions defaults env) mode input = none := if_neg hmode

/-- An upload of a shipped type with a size, in the running module. -/
theorem beforeProvider_running (env : Env) {size : Nat} (hkey : keyStage request = none)
    (hbody : bodyStage request = none)
    (hne : request.contentType ≠ [])
    (hmem : request.contentType ∈ library.defaults.imageMimeWhitelist ++ library.defaults.docMimeWhitelist)
    (hsize : requestSize request = some size) :
    library.beforeProvider (buildStorageOptions library.defaults env) request =
      (if env.uploadMaxSizeBytes < size then some .sizeExceeded else none).or
        ((if PdfMagicByteValidator.validate ⟨request.contentType, library.readBytes request⟩ = .ok then none
          else some .validationFailed).or (scanStage (buildStorageOptions library.defaults env) .preUpload
            ⟨request.body, library.scannedKey (buildStorageOptions library.defaults env) request.key⟩)) := by
  rw [beforeProvider_eq hkey hbody (if_neg hne) (mimeStage_running hne hmem), sizeStage_running _ hsize,
    validatorStage_running]

end Running

section Triggers
variable {library : StorageLibrary W}
open UploadPipeline MarkerFileScanner

def missingKey (uuid : Uuid) : JsString := js "errors-demo/missing-" ++ uuid.text

theorem missingKey_resolves (uuid : Uuid) : resolveKey (missingKey uuid) ≠ none := by
  have hslash : slash ∉ js "missing-" ++ uuid.text :=
    List.mem_append.not.mpr (not_or_intro (by decide) uuid.plain.not_slash)
  have hkey : missingKey uuid = js "errors-demo" ++ slash :: (js "missing-" ++ uuid.text) := rfl
  have hdots : js ".." ∉ splitSlash (missingKey uuid) := by
    rw [hkey, splitSlash_append_slash (by decide), splitSlash_of_not_mem hslash]
    simp [js, utf16]
  have hhead : (missingKey uuid).head? ≠ some slash := by
    rw [hkey]
    exact head_append_ne_slash (by decide) (by decide) _
  rw [resolveKey, if_neg (not_or_intro hhead hdots)]
  exact Option.some_ne_none _

/-- When the trigger of a code raises it: the cap on the size leaves room for the trigger's own
request, the scan sees the marker it sends, and the provider takes the running module's
credentials and not the wrong ones. -/
def TriggerReproduces (library : StorageLibrary W) (env : Env) (uuid : Uuid) (w : W) : ErrorCode → Prop
  | .sizeExceeded => env.uploadMaxSizeBytes < oversizeBytes
  | .validationFailed => 17 ≤ env.uploadMaxSizeBytes
  | .scanInfected => 30 ≤ env.uploadMaxSizeBytes ∧ (env.scannerMode = .preUpload ∨
      (library.Serves w (buildStorageOptions library.defaults env) ∧ infectedMarker <:+:
        library.scannedKey (buildStorageOptions library.defaults env) (js "errors-demo/infected.png")))
  | .objectNotFound => library.Serves w (buildStorageOptions library.defaults env) ∧
      ¬ library.Holds w (buildStorageOptions library.defaults env) (missingKey uuid)
  | .providerError | .multipartAborted => ¬ library.Serves w
      (wrongCredentialsOptions (runningConnection (buildStorageOptions library.defaults env)))
  | _ => True

variable {env : Env} {w : W} (contract : library.Contract)
include contract

/-- A request that a stage before the size turns down, whatever the environment is. -/
theorem upload_rejectsWith_of_before {request : UploadRequest} {code : ErrorCode}
    (h : library.beforeProvider (buildStorageOptions library.defaults env) request = some code) :
    RejectsWith code (library.upload (buildStorageOptions library.defaults env) request) w :=
  contract.upload_rejected (buildStorageOptions_ready _ env) h

theorem sizeExceeded_trigger_iff {request : UploadRequest} {size : Nat}
    (hkey : keyStage request = none) (hbody : bodyStage request = none)
    (hcontentType : request.contentType ≠ [])
    (hmem : request.contentType ∈ library.defaults.imageMimeWhitelist ++ library.defaults.docMimeWhitelist)
    (hsize : requestSize request = some size) :
    RejectsWith .sizeExceeded (library.upload (buildStorageOptions library.defaults env) request) w ↔
      env.uploadMaxSizeBytes < size := by
  have hbefore := beforeProvider_running env hkey hbody hcontentType hmem hsize
  by_cases hcap : env.uploadMaxSizeBytes < size
  · rw [if_pos hcap, Option.some_or] at hbefore
    exact iff_of_true (upload_rejectsWith_of_before contract hbefore) hcap
  · rw [if_neg hcap, Option.none_or] at hbefore
    refine iff_of_false (fun h => ?_) hcap
    rw [contract.upload_rejectsWith_iff (buildStorageOptions_ready _ env) (by decide) (by decide), hbefore] at h
    rcases h with h | ⟨-, -, h⟩
    · -- the validators and the scan raise codes of their own
      rcases Option.or_eq_some_iff.mp h with h | ⟨-, h⟩
      · split at h <;> cases h
      · exact absurd (scanStage_codes h) (by decide)
    · exact absurd (scanStage_codes h) (by decide)

theorem validationFailed_trigger_iff {request : UploadRequest} {size : Nat}
    (hkey : keyStage request = none) (hbody : bodyStage request = none)
    (hcontentType : request.contentType ≠ [])
    (hmem : request.contentType ∈ library.defaults.imageMimeWhitelist ++ library.defaults.docMimeWhitelist)
    (hsize : requestSize request = some size)
    (hforged : PdfMagicByteValidator.validate ⟨request.contentType, library.readBytes request⟩ ≠ .ok) :
    RejectsWith .validationFailed (library.upload (buildStorageOptions library.defaults env) request) w ↔
      size ≤ env.uploadMaxSizeBytes := by
  have hbefore := beforeProvider_running env hkey hbody hcontentType hmem hsize
  rw [if_neg hforged, Option.some_or] at hbefore
  by_cases hcap : env.uploadMaxSizeBytes < size
  · rw [if_pos hcap, Option.some_or] at hbefore
    refine iff_of_false (fun h => ?_) (Nat.not_le_of_lt hcap)
    exact absurd (h.unique (upload_rejectsWith_of_before contract hbefore)) (by decide)
  · rw [if_neg hcap, Option.none_or] at hbefore
    exact iff_of_true (upload_rejectsWith_of_before contract hbefore) (Nat.le_of_not_lt hcap)

theorem scanInfected_trigger_iff {request : UploadRequest} {body : List Byte}
    (hkey : keyStage request = none) (hbody : request.body = some (.buffer body))
    (hcontentType : request.contentType ≠ [])
    (hmem : request.contentType ∈ library.defaults.imageMimeWhitelist ++ library.defaults.docMimeWhitelist)
    (hsize : requestSize request = some body.length)
    (hvalid : PdfMagicByteValidator.validate ⟨request.contentType, library.readBytes request⟩ = .ok)
    (hinfected : Infected body) :
    RejectsWith .scanInfected (library.upload (buildStorageOptions library.defaults env) request) w ↔
      body.length ≤ env.uploadMaxSizeBytes ∧ (env.scannerMode = .preUpload ∨
        (library.Serves w (buildStorageOptions library.defaults env) ∧
          infectedMarker <:+: library.scannedKey (buildStorageOptions library.defaults env) request.key)) := by
  have hbefore := beforeProvider_running env hkey (if_neg (by simp [hbody])) hcontentType hmem hsize
  rw [if_pos hvalid, Option.none_or, hbody] at hbefore
  rw [contract.upload_rejectsWith_iff (buildStorageOptions_ready _ env) (by decide) (by decide), hbefore]
  by_cases hcap : env.uploadMaxSizeBytes < body.length
  · rw [if_pos hcap, Option.some_or]
    simp [Nat.not_le_of_lt hcap]
  · rw [if_neg hcap, Option.none_or, and_iff_right (Nat.le_of_not_lt hcap)]
    by_cases hmode : env.scannerMode = .preUpload
    · refine iff_of_true (Or.inl ?_) (Or.inl hmode)
      exact (scanStage_infected_iff _ _ _).mpr ⟨hmode, (scan_status (.buffer body) _).1.mpr hinfected⟩
    · -- the body is not scanned; the key is, once the object is stored
      have hpost : env.scannerMode = .postUpload := by
        cases h : env.scannerMode with
        | preUpload => exact absurd h hmode
        | postUpload => rfl
      rw [scanStage_other_mode _ hmode, or_iff_right (by simp), or_iff_right hmode, and_iff_right rfl, afterProvider,
        scanStage_infected_iff, and_iff_right hpost]
      exact and_congr_right fun _ => (verdict_status_iff _).1

end Triggers

section Runs
variable {library : StorageLibrary W} {options : ModuleOptions}
open UploadPipeline

/-- What happens in the application: a trigger, a scoped call under a label of someone else's,
or anything that changes the library's world. -/
inductive TriggerEvent (W : Type) where
  | trigger (code : ErrorCode) (uuid : Uuid)
  | scopedCall (label : JsString) (options : ModuleOptions)
  | elsewhere (w : W)

def triggerStep (library : StorageLibrary W) (options : ModuleOptions) (app : TriggerApp W) :
    TriggerEvent W → Option (TriggerApp W)
  | .trigger code uuid => some (ErrorsDemoService.trigger library options uuid code app).2
  | .scopedCall label other =>
    if label ∈ (scopedInstances (runningConnection options)).map Prod.fst then none
    else some (scopedStorage library label other app).2
  | .elsewhere w => some { app with world := w }

theorem scopedInstances_labels_nodup (connection : TriggerConnection) :
    ((scopedInstances connection).map Prod.fst).Nodup := by
  change [js "unconfigured", js "wrong-credentials", js "reject-unknown"].Nodup
  decide

/-- Building an instance keeps the labels, where it is the label's own. -/
theorem contextsFit_scopedStorage {connection : TriggerConnection} {app : TriggerApp W}
    (hfit : ContextsFit connection app.contexts) {label : JsString} {built : ModuleOptions}
    (hown : ∀ entry ∈ scopedInstances connection, entry.1 = label → built = entry.2) :
    ContextsFit connection (scopedStorage library label built app).2.contexts := by
  unfold scopedStorage
  cases hget : app.contexts.get label with
  | some existing => exact hfit
  | none =>
    dsimp only
    cases library.forRoot built with
    | error exception => exact hfit
    | ok _ =>
      intro entry hentry other hother
      dsimp only at hother
      rw [InsertionMap.get_set] at hother
      split at hother
      · rename_i hlabel
        rw [← Option.some.inj hother]
        exact hown entry hentry hlabel
      · exact hfit entry hentry other hother

theorem contexts_awaited (m : Async Rejection W α) (app : TriggerApp W) :
    (awaited (onLibrary m) app).2.contexts = app.contexts := by
  rw [awaited, Async.bind_world _ (fun a w => rfl)]
  rfl

theorem contexts_onScoped (deps : TriggerDeps W) (label : JsString) (built : ModuleOptions)
    (call : ModuleOptions → Async Rejection W α) (app : TriggerApp W) :
    (deps.onScoped label built call app).2.contexts =
      (scopedStorage deps.library label built app).2.contexts := by
  cases h : scopedStorage deps.library label built app with
  | mk result app' =>
    cases result with
    | ok context =>
      rw [TriggerDeps.onScoped, Async.bind_of_ok h]
      exact contexts_awaited _ app'
    | error e => rw [TriggerDeps.onScoped, Async.bind_of_error h]

/-- A trigger builds no instance but its label's own. -/
theorem contextsFit_onScoped (deps : TriggerDeps W) {app : TriggerApp W}
    (hfit : ContextsFit deps.connection app.contexts) {label : JsString} {built : ModuleOptions}
    (hmem : (label, built) ∈ scopedInstances deps.connection) (call : ModuleOptions → Async Rejection W α) :
    ContextsFit deps.connection (deps.onScoped label built call app).2.contexts := by
  rw [contexts_onScoped]
  apply contextsFit_scopedStorage hfit
  intro entry hentry hlabel
  have heq := List.inj_on_of_nodup_map (scopedInstances_labels_nodup deps.connection) hentry hmem hlabel
  rw [heq]

/-- Outside the scoped records a trigger is one call into the library. -/
theorem TriggerDeps.direct_trigger (deps : TriggerDeps W) {code : ErrorCode} {trigger : Trigger W}
    (h : deps.guardTriggers code = some trigger ∨ deps.pipelineTriggers code = some trigger ∨
      deps.signedTriggers code = some trigger) :
    ∃ (α : Type) (m : Async Rejection W α), trigger = awaited (onLibrary m) := by
  rcases h with h | h | h
  · unfold guardTriggers at h
    split at h <;> cases h <;> exact ⟨_, _, rfl⟩
  · unfold pipelineTriggers at h
    split at h <;> cases h <;> exact ⟨_, _, rfl⟩
  · unfold signedTriggers at h
    split at h <;> cases h <;> exact ⟨_, _, rfl⟩

theorem TriggerDeps.scoped_trigger (deps : TriggerDeps W) {code : ErrorCode} {trigger : Trigger W}
    (h : deps.scopedTriggers code = some trigger) :
    ∃ entry ∈ scopedInstances deps.connection, ∃ (α : Type) (call : ModuleOptions → Async Rejection W α),
      trigger = deps.onScoped entry.1 entry.2 call := by
  unfold scopedTriggers at h
  split at h
  · cases h
    exact ⟨_, List.mem_cons_self, _, _, rfl⟩
  · cases h
    exact ⟨_, List.mem_cons_of_mem _ List.mem_cons_self, _, _, rfl⟩
  · cases h
    exact ⟨_, List.mem_cons_of_mem _ (List.mem_cons_of_mem _ List.mem_cons_self), _, _, rfl⟩
  · cases h
    exact ⟨_, List.mem_cons_of_mem _ List.mem_cons_self, _, _, rfl⟩
  · cases h

theorem TriggerDeps.static_trigger (deps : TriggerDeps W) {code : ErrorCode} {trigger : Trigger W}
    (h : deps.staticTriggers code = some trigger) (app : TriggerApp W) : (trigger app).2 = app := by
  unfold staticTriggers at h
  split at h
  · cases h
    unfold forRootProbe
    split <;> rfl
  · cases h
    rfl
  · cases h
    rfl
  · cases h

theorem contextsFit_trigger {app : TriggerApp W} (hfit : ContextsFit (runningConnection options) app.contexts)
    (code : ErrorCode) (uuid : Uuid) :
    ContextsFit (runningConnection options) (ErrorsDemoService.trigger library options uuid code app).2.contexts := by
  let deps := runningDeps library options uuid
  obtain ⟨trigger, htrigger, hcases⟩ := deps.buildTriggerRegistry_cases code
  have hservice : ErrorsDemoService.trigger library options uuid code = trigger := by
    rw [ErrorsDemoService.trigger, htrigger]
  rw [hservice]
  have hdirect (h : deps.guardTriggers code = some trigger ∨ deps.pipelineTriggers code = some trigger ∨
      deps.signedTriggers code = some trigger) : ContextsFit (runningConnection options) (trigger app).2.contexts := by
    obtain ⟨_, m, rfl⟩ := deps.direct_trigger h
    rw [contexts_awaited]
    exact hfit
  rcases hcases with h | h | h | h | h
  · exact hdirect (Or.inl h)
  · exact hdirect (Or.inr (Or.inl h))
  · exact hdirect (Or.inr (Or.inr h))
  · obtain ⟨entry, hentry, _, call, rfl⟩ := deps.scoped_trigger h
    exact contextsFit_onScoped deps hfit hentry call
  · rw [deps.static_trigger h]
    exact hfit

/-- The labels of the triggers hold their own instances in every state the application reaches. -/
theorem contextsFit_run {app app' : TriggerApp W} {events : List (TriggerEvent W)}
    (hfit : ContextsFit (runningConnection options) app.contexts)
    (hrun : run (triggerStep library options) app events = some app') :
    ContextsFit (runningConnection options) app'.contexts := by
  let fits (app : TriggerApp W) : Prop := ContextsFit (runningConnection options) app.contexts
  refine @run_invariant _ _ (triggerStep library options) fits ?_ app app' events hfit hrun
  intro app event app' hfit hstep
  cases event with
  | trigger code uuid =>
    cases hstep
    exact contextsFit_trigger hfit code uuid
  | elsewhere w =>
    cases hstep
    exact hfit
  | scopedCall label other =>
    rw [triggerStep] at hstep
    split at hstep
    · cases hstep
    · rename_i hlabel
      cases hstep
      apply contextsFit_scopedStorage hfit
      rintro entry hentry rfl
      exact absurd (List.mem_map_of_mem hentry) hlabel

theorem head_absent_iff (contract : library.Contract) {key : JsString} {w : W} (hready : Ready options)
    (hkey : resolveKey key ≠ none) :
    RejectsWith .objectNotFound (library.head options key none) w ↔
      library.Serves w options ∧ ¬ library.Holds w options key := by
  by_cases hserves : library.Serves w options
  · rw [and_iff_right hserves]
    by_cases hholds : library.Holds w options key
    · have hpresent := contract.head_present hready hkey hserves hholds
      exact iff_of_false (hpresent.not_rejectsWith _) (not_not_intro hholds)
    · exact iff_of_true (contract.head_absent hready hkey hserves hholds) hholds
  · refine iff_of_false (fun h => ?_) (fun h => hserves h.1)
    exact absurd (h.unique (contract.head_unserved hready hkey hserves)) (by decide)

theorem head_unserved_iff (contract : library.Contract) {key : JsString} {w : W} (hready : Ready options)
    (hkey : resolveKey key ≠ none) :
    RejectsWith .providerError (library.head options key none) w ↔ ¬ library.Serves w options := by
  constructor
  · intro h hserves
    by_cases hholds : library.Holds w options key
    · exact (contract.head_present hready hkey hserves hholds).not_rejectsWith _ h
    · exact absurd (h.unique (contract.head_absent hready hkey hserves hholds)) (by decide)
  · exact contract.head_unserved hready hkey

/-- The stream of the multipart trigger passes every stage, so it is up to the provider. -/
theorem stream_aborted_iff (contract : library.Contract) {request : UploadRequest} {chunks : List Chunk} {w : W}
    (hready : Ready options) (hbefore : library.beforeProvider options request = none)
    (hafter : library.afterProvider options request = none) (hbody : request.body = some (.stream chunks))
    (hsize : request.size = none) :
    RejectsWith .multipartAborted (library.upload options request) w ↔ ¬ library.Serves w options := by
  constructor
  · intro h hserves
    have hserved := contract.upload_served hready hbefore hserves
    rw [hafter] at hserved
    exact hserved.not_rejectsWith _ h
  · exact fun hserves => contract.stream_unserved hready hbefore hserves hbody hsize

section Families
variable {env : Env} {uuid : Uuid} {code : ErrorCode} {trigger : Trigger W} {app : TriggerApp W}

theorem guardTriggers_reject_iff (contract : library.Contract)
    (h : (runningDeps library (buildStorageOptions library.defaults env) uuid).guardTriggers code = some trigger) :
    RejectsWith code trigger app ↔ TriggerReproduces library env uuid app.world code := by
  have hready := buildStorageOptions_ready library.defaults env
  unfold TriggerDeps.guardTriggers at h
  split at h
  · -- `STORAGE_KEY_INVALID`
    cases h
    refine iff_of_true ((rejectsWith_awaited_iff _ _ app).mpr ?_) trivial
    exact upload_rejectsWith_of_before contract (beforeProvider_of_key (by decide))
  · -- `STORAGE_BODY_MISSING`
    cases h
    refine iff_of_true ((rejectsWith_awaited_iff _ _ app).mpr ?_) trivial
    exact upload_rejectsWith_of_before contract (beforeProvider_of_body (by decide) (by decide))
  · -- `STORAGE_CONTENT_TYPE_REQUIRED`
    cases h
    refine iff_of_true ((rejectsWith_awaited_iff _ _ app).mpr ?_) trivial
    exact upload_rejectsWith_of_before contract (beforeProvider_of_contentType (by decide) (by decide) (by decide))
  · -- `STORAGE_OBJECT_NOT_FOUND`
    cases h
    exact (rejectsWith_awaited_iff _ _ app).trans (head_absent_iff contract hready (missingKey_resolves uuid))
  · -- `STORAGE_BUCKET_UNDEFINED`
    cases h
    refine iff_of_true ((rejectsWith_awaited_iff _ _ app).mpr ?_) trivial
    exact contract.head_bucket hready (by decide)
  · cases h

theorem pipelineTriggers_reject_iff (contract : library.Contract)
    (h : (runningDeps library (buildStorageOptions library.defaults env) uuid).pipelineTriggers code = some trigger) :
    RejectsWith code trigger app ↔ TriggerReproduces library env uuid app.world code := by
  have hpng : js "image/png" ∈ library.defaults.imageMimeWhitelist ++ library.defaults.docMimeWhitelist :=
    List.mem_append_left _ contract.png_allowed
  have hpdf : js "application/pdf" ∈ library.defaults.imageMimeWhitelist ++ library.defaults.docMimeWhitelist :=
    List.mem_append_right _ contract.pdf_allowed
  unfold TriggerDeps.pipelineTriggers at h
  split at h
  · -- `STORAGE_MIME_NOT_ALLOWED`
    cases h
    refine iff_of_true ((rejectsWith_awaited_iff _ _ app).mpr ?_) trivial
    exact upload_rejectsWith_of_before contract
      (beforeProvider_of_mime (by decide) (by decide) (by decide) (mimeStage_zip contract rfl))
  · -- `STORAGE_SIZE_EXCEEDED`
    cases h
    refine (rejectsWith_awaited_iff _ _ app).trans ?_
    exact sizeExceeded_trigger_iff contract (by decide) (by decide) (by decide) hpng rfl
  · -- `STORAGE_VALIDATION_FAILED`
    cases h
    have hforged : PdfMagicByteValidator.validate ⟨js "application/pdf",
        some (fun count => (encodeUtf8 (js "this is not a pdf")).take count)⟩ ≠ .ok := by decide
    refine (rejectsWith_awaited_iff _ _ app).trans ?_
    exact validationFailed_trigger_iff contract (by decide) (by decide) (by decide) hpdf rfl hforged
  · -- `STORAGE_SCAN_INFECTED`
    cases h
    have hkey : keyStage (bufferRequest "errors-demo/infected.png" "X-DEMO-INFECTED sample payload" "image/png") =
        none := by decide
    have hinfected : MarkerFileScanner.Infected (encodeUtf8 (js "X-DEMO-INFECTED sample payload")) := by decide
    refine (rejectsWith_awaited_iff _ _ app).trans ?_
    exact scanInfected_trigger_iff contract hkey rfl (List.cons_ne_nil _ _) hpng rfl rfl hinfected
  · cases h

theorem signedTriggers_reject_iff (contract : library.Contract)
    (h : (runningDeps library (buildStorageOptions library.defaults env) uuid).signedTriggers code = some trigger) :
    RejectsWith code trigger app ↔ TriggerReproduces library env uuid app.world code := by
  have hready := buildStorageOptions_ready library.defaults env
  unfold TriggerDeps.signedTriggers at h
  split at h
  · -- `STORAGE_SIGNED_URL_TTL_INVALID`
    cases h
    refine iff_of_true ((rejectsWith_awaited_iff _ _ app).mpr ?_) trivial
    exact contract.ttl_invalid hready (by decide) rfl
  · -- `STORAGE_INVALID_PART_COUNT`
    cases h
    refine iff_of_true ((rejectsWith_awaited_iff _ _ app).mpr ?_) trivial
    exact contract.parts_invalid hready (by decide) (by decide) (by decide)
  · cases h

theorem scopedTriggers_reject_iff (contract : library.Contract)
    (hfit : ContextsFit (runningConnection (buildStorageOptions library.defaults env)) app.contexts)
    (h : (runningDeps library (buildStorageOptions library.defaults env) uuid).scopedTriggers code = some trigger) :
    RejectsWith code trigger app ↔ TriggerReproduces library env uuid app.world code := by
  let deps := runningDeps library (buildStorageOptions library.defaults env) uuid
  have hbuild {options : ModuleOptions} (hrest : options.rest.endpoint.isSome ∧ options.rest.region.isSome ∧
      options.rest.bucket.isSome) (hcredentials : options.credentials.isSome) : library.forRoot options = .ok () :=
    contract.forRoot_complete hrest.1 hrest.2.1 hrest.2.2 hcredentials
  have hwrong : Ready (wrongCredentialsOptions deps.connection) :=
    ⟨⟨_, rfl, by decide, by decide⟩, _, rfl, env.bucket_ne⟩
  have hunknown : Ready (rejectUnknownOptions deps.connection) :=
    ⟨⟨_, rfl, by decide, by decide⟩, _, rfl, env.bucket_ne⟩
  unfold TriggerDeps.scopedTriggers at h
  split at h
  · -- `STORAGE_NOT_CONFIGURED`
    cases h
    refine iff_of_true ((deps.rejectsWith_onScoped_iff hfit List.mem_cons_self
      (hbuild ⟨rfl, rfl, rfl⟩ rfl) _).mpr ?_) trivial
    apply contract.head_unconfigured
    rintro ⟨credentials, hcredentials, haccess, -⟩
    cases hcredentials
    exact haccess rfl
  · -- `STORAGE_PROVIDER_ERROR`
    cases h
    refine (deps.rejectsWith_onScoped_iff hfit (List.mem_cons_of_mem _ List.mem_cons_self)
      (hbuild ⟨rfl, rfl, rfl⟩ rfl) _).trans ?_
    exact head_unserved_iff contract hwrong (by decide)
  · -- `STORAGE_SCAN_INCONCLUSIVE`
    cases h
    refine iff_of_true ((deps.rejectsWith_onScoped_iff hfit
      (List.mem_cons_of_mem _ (List.mem_cons_of_mem _ List.mem_cons_self))
      (hbuild ⟨rfl, rfl, rfl⟩ rfl) _).mpr ?_) trivial
    exact contract.upload_rejected hunknown rfl
  · -- `STORAGE_MULTIPART_ABORTED`
    cases h
    refine (deps.rejectsWith_onScoped_iff hfit (List.mem_cons_of_mem _ List.mem_cons_self)
      (hbuild ⟨rfl, rfl, rfl⟩ rfl) _).trans ?_
    exact stream_aborted_iff contract hwrong rfl rfl rfl rfl
  · cases h

theorem staticTriggers_reject_iff (contract : library.Contract) (hcode : catalogueReproducible code = true)
    (h : (runningDeps library (buildStorageOptions library.defaults env) uuid).staticTriggers code = some trigger) :
    RejectsWith code trigger app ↔ TriggerReproduces library env uuid app.world code := by
  unfold TriggerDeps.staticTriggers at h
  split at h
  · -- `STORAGE_INVALID_CONFIG`
    cases h
    obtain ⟨exception, hthrows, hexception⟩ :=
      contract.forRoot_incomplete (show emptyOptions.rest.endpoint = none ∨ _ from Or.inl rfl)
    refine iff_of_true ⟨exception, app, ?_, hexception⟩ trivial
    simp only [TriggerDeps.forRootProbe, runningDeps, hthrows]
  · cases hcode
  · cases hcode
  · cases h

end Families

/-- In every state the application reaches, the trigger of a code that the catalogue marks
reproducible raises that code exactly under its condition. -/
theorem trigger_rejects_iff (contract : library.Contract) (env : Env) {w : W} {events : List (TriggerEvent W)}
    {app : TriggerApp W}
    (hrun : run (triggerStep library (buildStorageOptions library.defaults env)) ⟨w, .empty⟩ events = some app)
    {code : ErrorCode} (hcode : catalogueReproducible code = true) (uuid : Uuid) :
    RejectsWith code (ErrorsDemoService.trigger library (buildStorageOptions library.defaults env) uuid code) app ↔
      TriggerReproduces library env uuid app.world code := by
  have hfit : ContextsFit (runningConnection (buildStorageOptions library.defaults env)) app.contexts :=
    contextsFit_run (fun _ _ _ h => by cases h) hrun
  obtain ⟨trigger, htrigger, hcases⟩ :=
    (runningDeps library (buildStorageOptions library.defaults env) uuid).buildTriggerRegistry_cases code
  have hservice : ErrorsDemoService.trigger library (buildStorageOptions library.defaults env) uuid code = trigger := by
    rw [ErrorsDemoService.trigger, htrigger]
  rw [hservice]
  rcases hcases with h | h | h | h | h
  · exact guardTriggers_reject_iff contract h
  · exact pipelineTriggers_reject_iff contract h
  · exact signedTriggers_reject_iff contract h
  · exact scopedTriggers_reject_iff contract hfit h
  · exact staticTriggers_reject_iff contract hcode h

/-- The defaults of `envSchema`, in a scan mode. -/
def localEnv (scannerMode : ScannerMode) : Env where
  nodeEnv := .development
  storageEndpoint := js "http://localhost:9000"
  storageRegion := js "us-east-1"
  storageBucket := js "vault"
  storageAccessKeyId := devCredentialDefault
  storageSecretAccessKey := devCredentialDefault
  storageForcePathStyle := true
  storagePublicBaseUrl := js "http://localhost:9000/vault"
  storageCdnBaseUrl := none
  storageKeyPrefix := js "storage-example"
  storageSse := none
  storageChecksumMode := .whenRequired
  storageMaxTtlSeconds := 3600
  storageMultipartThreshold := 5242880
  scannerMode := scannerMode
  scannerRejectOnUnknown := false
  uploadMaxSizeBytes := 26214400
  region_ne := by decide
  bucket_ne := by decide
  accessKeyId_ne := by decide
  secretAccessKey_ne := by decide
  maxTtl_pos := by decide
  threshold_pos := by decide
  maxSize_pos := by decide
  production_credentials := fun h => by cases h

/-- With the defaults the infected upload is turned down, after another trigger has run. -/
theorem trigger_rejects_local : ∃ uuid app,
    run (triggerStep documentedLibrary (buildStorageOptions documentedLibrary.defaults (localEnv .preUpload)))
      ⟨[], .empty⟩ [.trigger .providerError uuid] = some app ∧
    RejectsWith .scanInfected (ErrorsDemoService.trigger documentedLibrary
      (buildStorageOptions documentedLibrary.defaults (localEnv .preUpload)) uuid .scanInfected) app := by
  let uuid : Uuid := ⟨js "00000000-0000-4000-8000-000000000000", by decide⟩
  refine ⟨uuid, _, rfl, ?_⟩
  have hrun : run (triggerStep documentedLibrary (buildStorageOptions documentedLibrary.defaults
      (localEnv .preUpload))) ⟨[], .empty⟩ [.trigger .providerError uuid] = some _ := rfl
  exact (trigger_rejects_iff documentedLibrary_contract (localEnv .preUpload) hrun rfl uuid).mpr
    ⟨by decide, Or.inl rfl⟩

/-- In `post-upload` mode the scanner is shown a key without the marker, and the infected
body is stored. -/
theorem infected_upload_accepted : documentedLibrary.Contract ∧ catalogueReproducible .scanInfected = true ∧
    ∃ uuid, Resolves (ErrorsDemoService.trigger documentedLibrary
      (buildStorageOptions documentedLibrary.defaults (localEnv .postUpload)) uuid .scanInfected) ⟨[], .empty⟩ ∧
      ¬ RejectsWith .scanInfected (ErrorsDemoService.trigger documentedLibrary
        (buildStorageOptions documentedLibrary.defaults (localEnv .postUpload)) uuid .scanInfected) ⟨[], .empty⟩ := by
  let uuid : Uuid := ⟨js "00000000-0000-4000-8000-000000000000", by decide⟩
  have hresolves : Resolves (ErrorsDemoService.trigger documentedLibrary
      (buildStorageOptions documentedLibrary.defaults (localEnv .postUpload)) uuid .scanInfected) ⟨[], .empty⟩ :=
    ⟨none, _, rfl⟩
  exact ⟨documentedLibrary_contract, rfl, uuid, hresolves, hresolves.not_rejectsWith _⟩

end Runs

end NestStorageExample.Api
