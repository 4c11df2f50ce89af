import NestStorageExample.Api.PublicUrls
import NestStorageExample.Api.StorageConfig
import NestStorageExample.Numbers.NumberText
import NestStorageExample.Url.Parser

/-! The environment at boot: every variable against its rule, the guard on the credentials
across them, and the one report of all that fails. The values of `process.env` are texts. -/
namespace NestStorageExample.Api
open Text Storage Numbers Url
variable {α β : Type}

abbrev ProcessEnv := JsString → Option JsString

/-- The codes of the issues that `envSchema` reports. -/
inductive IssueCode where
  | invalidType
  | invalidValue
  | invalidFormat
  | invalidUnion
  | tooSmall
  | tooBig
  | custom (message : JsString)
  deriving DecidableEq

namespace IssueCode

/-- After such an issue a refinement of the whole is skipped. -/
def aborts : IssueCode → Bool
  | invalidType | invalidValue | invalidUnion => true
  | invalidFormat | tooSmall | tooBig | custom _ => false

def detail : IssueCode → JsString
  | invalidType => js "invalid_type"
  | invalidValue => js "invalid_value"
  | invalidFormat => js "invalid_format"
  | invalidUnion => js "invalid_union"
  | tooSmall => js "too_small"
  | tooBig => js "too_big"
  | custom message => js "custom (" ++ message ++ js ")"

end IssueCode

/-- What a variable is parsed to, or the issues it has. -/
abbrev Checked (α : Type) := Except (List IssueCode) α

def Checked.codes : Checked α → List IssueCode
  | .ok _ => []
  | .error codes => codes

/-- `.default(fallback)`; the fallback itself is not checked. -/
def orDefault (fallback : α) (check : JsString → Checked α) : Option JsString → Checked α
  | none => .ok fallback
  | some s => check s

/-- `z.enum` -/
def enumText (choices : List (JsString × α)) (s : JsString) : Checked α :=
  match choices.lookup s with
  | some a => .ok a
  | none => .error [.invalidValue]

/-- `z.string().min(1)` -/
def nonEmptyText (s : JsString) : Checked { s : JsString // s ≠ [] } :=
  if h : s = [] then .error [.tooSmall] else .ok ⟨s, h⟩

/-- `z.string().url()`, which passes the trimmed text on. -/
def urlText (hosts : Hosts α) (s : JsString) : Checked JsString :=
  if (parse hosts (trim s)).isSome then .ok (trim s) else .error [.invalidFormat]

/-- `z.union([z.literal(''), inner])`: where the one alternative that fails without aborting
is `inner`, its issues are those of the union. -/
def emptyOr (inner : JsString → Checked α) (s : JsString) : Checked (Option α) :=
  if s = [] then .ok none
  else
    match inner s with
    | .ok a => .ok (some a)
    | .error codes => .error (if codes.any IssueCode.aborts then [.invalidUnion] else codes)

/-- A positive integer below 2 ^ 53. -/
structure SafeCount where
  value : Nat
  range : 0 < value ∧ value ≤ 9007199254740991

/-- `z.coerce.number().int().positive()`; an integer that is not safe is checked on. -/
def positiveInteger (s : JsString) : Checked SafeCount :=
  match numberOf s with
  | .finite x =>
    if x.den = 1 then
      if h : 0 < x.num ∧ x.num ≤ 9007199254740991 then .ok ⟨x.num.toNat, by omega⟩
      else .error ((if 9007199254740991 < x.num then [.tooBig] else []) ++
        (if x.num < -9007199254740991 then [.tooSmall] else []) ++ if x.num ≤ 0 then [.tooSmall] else [])
    else .error [.invalidType]
  | _ => .error [.invalidType]

/-- `envBoolean`; no text fails it. -/
def envBoolean (s : JsString) : Checked Bool := .ok (s = js "true" || s = js "1")

/-- `z.string()` -/
def anyText (s : JsString) : Checked JsString := .ok s

def nodeEnvChoices : List (JsString × NodeEnv) :=
  [(js "development", .development), (js "test", .test), (js "production", .production)]

def sseChoices : List (JsString × SseAlgorithm) := [(js "AES256", .aes256), (js "aws:kms", .awsKms)]

def checksumChoices : List (JsString × ChecksumMode) :=
  [(js "WHEN_REQUIRED", .whenRequired), (js "WHEN_SUPPORTED", .whenSupported)]

def scannerModeChoices : List (JsString × ScannerMode) :=
  [(js "pre-upload", .preUpload), (js "post-upload", .postUpload)]

/-- `baseEnvSchema`, each variable on its own. -/
structure EnvChecks where
  nodeEnv : Checked NodeEnv
  port : Checked SafeCount
  webOrigin : Checked JsString
  storageEndpoint : Checked JsString
  storageRegion : Checked { s : JsString // s ≠ [] }
  storageBucket : Checked { s : JsString // s ≠ [] }
  storageArchiveBucket : Checked { s : JsString // s ≠ [] }
  storageVersionedBucket : Checked { s : JsString // s ≠ [] }
  storageAccessKeyId : Checked { s : JsString // s ≠ [] }
  storageSecretAccessKey : Checked { s : JsString // s ≠ [] }
  storageForcePathStyle : Checked Bool
  storagePublicBaseUrl : Checked JsString
  storageCdnBaseUrl : Checked (Option JsString)
  storageKeyPrefix : Checked JsString
  storageSse : Checked (Option SseAlgorithm)
  storageChecksumMode : Checked ChecksumMode
  storageMaxTtlSeconds : Checked SafeCount
  storageMultipartThreshold : Checked SafeCount
  scannerMode : Checked ScannerMode
  scannerRejectOnUnknown : Checked Bool
  uploadMaxSizeBytes : Checked SafeCount

theorem regionDefault_ne_nil : js "us-east-1" ≠ [] := by decide

theorem bucketDefault_ne_nil : js "vault" ≠ [] := by decide

theorem devCredentialDefault_ne_nil : devCredentialDefault ≠ [] := by decide

def checkEnv (hosts : Hosts α) (env : ProcessEnv) : EnvChecks where
  nodeEnv := orDefault .development (enumText nodeEnvChoices) (env (js "NODE_ENV"))
  port := orDefault ⟨3001, by decide⟩ positiveInteger (env (js "PORT"))
  webOrigin := orDefault (js "http://localhost:3000") (urlText hosts) (env (js "WEB_ORIGIN"))
  storageEndpoint := orDefault (js "http://localhost:9000") (urlText hosts) (env (js "STORAGE_ENDPOINT"))
  storageRegion := orDefault ⟨js "us-east-1", regionDefault_ne_nil⟩ nonEmptyText (env (js "STORAGE_REGION"))
  storageBucket := orDefault ⟨js "vault", bucketDefault_ne_nil⟩ nonEmptyText (env (js "STORAGE_BUCKET"))
  storageArchiveBucket := orDefault ⟨js "vault-archive", by decide⟩ nonEmptyText (env (js "STORAGE_ARCHIVE_BUCKET"))
  storageVersionedBucket :=
    orDefault ⟨js "vault-versioned", by decide⟩ nonEmptyText (env (js "STORAGE_VERSIONED_BUCKET"))
  storageAccessKeyId :=
    orDefault ⟨devCredentialDefault, devCredentialDefault_ne_nil⟩ nonEmptyText (env (js "STORAGE_ACCESS_KEY_ID"))
  storageSecretAccessKey :=
    orDefault ⟨devCredentialDefault, devCredentialDefault_ne_nil⟩ nonEmptyText (env (js "STORAGE_SECRET_ACCESS_KEY"))
  storageForcePathStyle := orDefault true envBoolean (env (js "STORAGE_FORCE_PATH_STYLE"))
  storagePublicBaseUrl :=
    orDefault (js "http://localhost:9000/vault") (urlText hosts) (env (js "STORAGE_PUBLIC_BASE_URL"))
  storageCdnBaseUrl := orDefault none (emptyOr (urlText hosts)) (env (js "STORAGE_CDN_BASE_URL"))
  storageKeyPrefix := orDefault (js "storage-example") anyText (env (js "STORAGE_KEY_PREFIX"))
  storageSse := orDefault none (emptyOr (enumText sseChoices)) (env (js "STORAGE_SSE"))
  storageChecksumMode := orDefault .whenRequired (enumText checksumChoices) (env (js "STORAGE_CHECKSUM_MODE"))
  storageMaxTtlSeconds :=
    orDefault ⟨3600, by decide⟩ positiveInteger (env (js "STORAGE_MAX_TTL_SECONDS"))
  storageMultipartThreshold :=
    orDefault ⟨5242880, by decide⟩ positiveInteger (env (js "STORAGE_MULTIPART_THRESHOLD"))
  scannerMode := orDefault .preUpload (enumText scannerModeChoices) (env (js "SCANNER_MODE"))
  scannerRejectOnUnknown := orDefault false envBoolean (env (js "SCANNER_REJECT_ON_UNKNOWN"))
  uploadMaxSizeBytes :=
    orDefault ⟨26214400, by decide⟩ positiveInteger (env (js "UPLOAD_MAX_SIZE_BYTES"))

/-- What the application reads besides the storage options. -/
structure AppEnv extends Env where
  port : Nat
  webOrigin : JsString
  storageArchiveBucket : JsString
  storageVersionedBucket : JsString
  port_pos : 0 < port
  archiveBucket_ne : storageArchiveBucket ≠ []
  versionedBucket_ne : storageVersionedBucket ≠ []

structure EnvIssue where
  name : JsString
  code : IssueCode
  deriving DecidableEq

def guardMessage (name : JsString) : JsString := name ++ js " must not use the dev default in production"

namespace EnvChecks
variable (checks : EnvChecks)

/-- The variables in the schema's order, with the issues of each. -/
def fields : List (JsString × List IssueCode) :=
  [(js "NODE_ENV", checks.nodeEnv.codes), (js "PORT", checks.port.codes), (js "WEB_ORIGIN", checks.webOrigin.codes),
    (js "STORAGE_ENDPOINT", checks.storageEndpoint.codes), (js "STORAGE_REGION", checks.storageRegion.codes),
    (js "STORAGE_BUCKET", checks.storageBucket.codes),
    (js "STORAGE_ARCHIVE_BUCKET", checks.storageArchiveBucket.codes),
    (js "STORAGE_VERSIONED_BUCKET", checks.storageVersionedBucket.codes),
    (js "STORAGE_ACCESS_KEY_ID", checks.storageAccessKeyId.codes),
    (js "STORAGE_SECRET_ACCESS_KEY", checks.storageSecretAccessKey.codes),
    (js "STORAGE_FORCE_PATH_STYLE", checks.storageForcePathStyle.codes),
    (js "STORAGE_PUBLIC_BASE_URL", checks.storagePublicBaseUrl.codes),
    (js "STORAGE_CDN_BASE_URL", checks.storageCdnBaseUrl.codes),
    (js "STORAGE_KEY_PREFIX", checks.storageKeyPrefix.codes), (js "STORAGE_SSE", checks.storageSse.codes),
    (js "STORAGE_CHECKSUM_MODE", checks.storageChecksumMode.codes),
    (js "STORAGE_MAX_TTL_SECONDS", checks.storageMaxTtlSeconds.codes),
    (js "STORAGE_MULTIPART_THRESHOLD", checks.storageMultipartThreshold.codes),
    (js "SCANNER_MODE", checks.scannerMode.codes),
    (js "SCANNER_REJECT_ON_UNKNOWN", checks.scannerRejectOnUnknown.codes),
    (js "UPLOAD_MAX_SIZE_BYTES", checks.uploadMaxSizeBytes.codes)]

def baseIssues : List EnvIssue := checks.fields.flatMap fun field => field.2.map (EnvIssue.mk field.1)

/-- A credential at the dev default. -/
def isDevDefault : Checked { s : JsString // s ≠ [] } → Bool
  | .ok credential => credential.1 = devCredentialDefault
  | .error _ => false

/-- The `superRefine` across the variables. -/
def guardIssues : List EnvIssue :=
  match checks.nodeEnv with
  | .ok .production =>
    ([(js "STORAGE_ACCESS_KEY_ID", checks.storageAccessKeyId),
      (js "STORAGE_SECRET_ACCESS_KEY", checks.storageSecretAccessKey)].filter fun credential =>
        isDevDefault credential.2).map fun credential => ⟨credential.1, .custom (guardMessage credential.1)⟩
  | _ => []

def issues : List EnvIssue :=
  checks.baseIssues ++ if checks.baseIssues.any (fun issue => issue.code.aborts) then [] else checks.guardIssues

/-- What a parse without issues answers. -/
def data : Option AppEnv := do
  let nodeEnv ← checks.nodeEnv.toOption
  let port ← checks.port.toOption
  let webOrigin ← checks.webOrigin.toOption
  let storageEndpoint ← checks.storageEndpoint.toOption
  let storageRegion ← checks.storageRegion.toOption
  let storageBucket ← checks.storageBucket.toOption
  let storageArchiveBucket ← checks.storageArchiveBucket.toOption
  let storageVersionedBucket ← checks.storageVersionedBucket.toOption
  let storageAccessKeyId ← checks.storageAccessKeyId.toOption
  let storageSecretAccessKey ← checks.storageSecretAccessKey.toOption
  let storageForcePathStyle ← checks.storageForcePathStyle.toOption
  let storagePublicBaseUrl ← checks.storagePublicBaseUrl.toOption
  let storageCdnBaseUrl ← checks.storageCdnBaseUrl.toOption
  let storageKeyPrefix ← checks.storageKeyPrefix.toOption
  let storageSse ← checks.storageSse.toOption
  let storageChecksumMode ← checks.storageChecksumMode.toOption
  let storageMaxTtlSeconds ← checks.storageMaxTtlSeconds.toOption
  let storageMultipartThreshold ← checks.storageMultipartThreshold.toOption
  let scannerMode ← checks.scannerMode.toOption
  let scannerRejectOnUnknown ← checks.scannerRejectOnUnknown.toOption
  let uploadMaxSizeBytes ← checks.uploadMaxSizeBytes.toOption
  if h : nodeEnv = .production →
      storageAccessKeyId.1 ≠ devCredentialDefault ∧ storageSecretAccessKey.1 ≠ devCredentialDefault then
    some {
      nodeEnv, storageEndpoint, storageForcePathStyle, storagePublicBaseUrl, storageCdnBaseUrl, storageKeyPrefix,
      storageSse, storageChecksumMode, scannerMode, scannerRejectOnUnknown, webOrigin
      storageRegion := storageRegion.1
      storageBucket := storageBucket.1
      storageAccessKeyId := storageAccessKeyId.1
      storageSecretAccessKey := storageSecretAccessKey.1
      storageMaxTtlSeconds := storageMaxTtlSeconds.value
      storageMultipartThreshold := storageMultipartThreshold.value
      uploadMaxSizeBytes := uploadMaxSizeBytes.value
      port := port.value
      storageArchiveBucket := storageArchiveBucket.1
      storageVersionedBucket := storageVersionedBucket.1
      region_ne := storageRegion.2
      bucket_ne := storageBucket.2
      accessKeyId_ne := storageAccessKeyId.2
      secretAccessKey_ne := storageSecretAccessKey.2
      maxTtl_pos := storageMaxTtlSeconds.range.1
      threshold_pos := storageMultipartThreshold.range.1
      maxSize_pos := uploadMaxSizeBytes.range.1
      production_credentials := h
      port_pos := port.range.1
      archiveBucket_ne := storageArchiveBucket.2
      versionedBucket_ne := storageVersionedBucket.2 }
  else none

end EnvChecks

def reportLine (issue : EnvIssue) : JsString := js "  - " ++ issue.name ++ js ": " ++ issue.code.detail

def report (issues : List EnvIssue) : JsString :=
  js "Invalid environment configuration:\n" ++ (js "\n").intercalate (issues.map reportLine)

def validateEnv (hosts : Hosts α) (env : ProcessEnv) : Except JsString AppEnv :=
  match (checkEnv hosts env).data with
  | some data => .ok data
  | none => .error (report (checkEnv hosts env).issues)

/-! What each variable may hold, as the operator is told. -/

inductive EnvRule where
  | oneOf (values : List JsString)
  | emptyOrOneOf (values : List JsString)
  | positiveInteger
  | url
  | emptyOrUrl
  | nonEmpty
  | anything

/-- How a text breaks a rule. -/
def EnvRule.Breaks (hosts : Hosts α) : EnvRule → JsString → IssueCode → Prop
  | oneOf values, s, code => code = .invalidValue ∧ s ∉ values
  | emptyOrOneOf values, s, code => code = .invalidUnion ∧ s ≠ [] ∧ s ∉ values
  | positiveInteger, s, code =>
    (code = .invalidType ∧ ∀ n : ℤ, numberOf s ≠ .finite n) ∨
    (code = .tooSmall ∧ ∃ n : ℤ, numberOf s = .finite n ∧ n ≤ 0) ∨
    (code = .tooBig ∧ ∃ n : ℤ, numberOf s = .finite n ∧ 9007199254740991 < n)
  | url, s, code => code = .invalidFormat ∧ parse hosts (trim s) = none
  | emptyOrUrl, s, code => code = .invalidFormat ∧ s ≠ [] ∧ parse hosts (trim s) = none
  | nonEmpty, s, code => code = .tooSmall ∧ s = []
  | anything, _, _ => False

def envRules : List (JsString × EnvRule) :=
  [(js "NODE_ENV", .oneOf [js "development", js "test", js "production"]), (js "PORT", .positiveInteger),
    (js "WEB_ORIGIN", .url), (js "STORAGE_ENDPOINT", .url), (js "STORAGE_REGION", .nonEmpty),
    (js "STORAGE_BUCKET", .nonEmpty), (js "STORAGE_ARCHIVE_BUCKET", .nonEmpty),
    (js "STORAGE_VERSIONED_BUCKET", .nonEmpty), (js "STORAGE_ACCESS_KEY_ID", .nonEmpty),
    (js "STORAGE_SECRET_ACCESS_KEY", .nonEmpty), (js "STORAGE_FORCE_PATH_STYLE", .anything),
    (js "STORAGE_PUBLIC_BASE_URL", .url), (js "STORAGE_CDN_BASE_URL", .emptyOrUrl),
    (js "STORAGE_KEY_PREFIX", .anything), (js "STORAGE_SSE", .emptyOrOneOf [js "AES256", js "aws:kms"]),
    (js "STORAGE_CHECKSUM_MODE", .oneOf [js "WHEN_REQUIRED", js "WHEN_SUPPORTED"]),
    (js "STORAGE_MAX_TTL_SECONDS", .positiveInteger), (js "STORAGE_MULTIPART_THRESHOLD", .positiveInteger),
    (js "SCANNER_MODE", .oneOf [js "pre-upload", js "post-upload"]),
    (js "SCANNER_REJECT_ON_UNKNOWN", .anything), (js "UPLOAD_MAX_SIZE_BYTES", .positiveInteger)]

/-- A check reports of a text how it breaks the rule, and passes one that does not. -/
structure Enforces (hosts : Hosts α) (rule : EnvRule) (check : JsString → Checked β) : Prop where
  reports : ∀ s code, code ∈ (check s).codes ↔ rule.Breaks hosts s code
  passes : ∀ s, (check s).codes = [] → ∃ b, check s = .ok b

section Checks
variable (hosts : Hosts α)

private theorem lookup_none_iff {choices : List (JsString × β)} {s : JsString} :
    choices.lookup s = none ↔ s ∉ choices.map Prod.fst := by
  rw [List.lookup_eq_none_iff, List.mem_map]
  simp only [bne_iff_ne, ne_eq]
  constructor
  · rintro h ⟨choice, hchoice, rfl⟩
    exact h choice hchoice rfl
  · exact fun h choice hchoice he => h ⟨choice, hchoice, he.symm⟩

variable {hosts} in
/-- A check that names an issue wherever it fails. -/
theorem Enforces.of_error {rule : EnvRule} {check : JsString → Checked β}
    (hreports : ∀ s code, code ∈ (check s).codes ↔ rule.Breaks hosts s code) (herror : ∀ s, check s ≠ .error []) :
    Enforces hosts rule check := by
  refine ⟨hreports, fun s hnil => ?_⟩
  cases hs : check s with
  | ok b => exact ⟨b, rfl⟩
  | error codes =>
    rw [hs, Checked.codes] at hnil
    exact absurd (hnil ▸ hs) (herror s)

theorem enforces_enumText (choices : List (JsString × β)) :
    Enforces hosts (.oneOf (choices.map Prod.fst)) (enumText choices) := by
  apply Enforces.of_error
  · intro s code
    rw [EnvRule.Breaks, ← lookup_none_iff, enumText]
    cases choices.lookup s <;> simp [Checked.codes]
  · intro s
    rw [enumText]
    cases choices.lookup s <;> simp

theorem enforces_nonEmptyText : Enforces hosts .nonEmpty nonEmptyText := by
  apply Enforces.of_error
  · intro s code
    rw [EnvRule.Breaks, nonEmptyText]
    split <;> simp [Checked.codes, *]
  · intro s
    rw [nonEmptyText]
    split <;> simp

theorem enforces_urlText : Enforces hosts .url (urlText hosts) := by
  apply Enforces.of_error
  · intro s code
    rw [EnvRule.Breaks, urlText]
    cases parse hosts (trim s) <;> simp [Checked.codes]
  · intro s
    rw [urlText]
    split <;> simp

theorem enforces_emptyOr_urlText : Enforces hosts .emptyOrUrl (emptyOr (urlText hosts)) := by
  apply Enforces.of_error
  · intro s code
    rw [EnvRule.Breaks, emptyOr]
    split
    · simp [Checked.codes, *]
    · rw [urlText]
      cases parse hosts (trim s) <;> simp [Checked.codes, IssueCode.aborts, *]
  · intro s
    rw [emptyOr, urlText]
    cases parse hosts (trim s) <;> split <;> simp [IssueCode.aborts]

theorem enforces_emptyOr_enumText (choices : List (JsString × β)) :
    Enforces hosts (.emptyOrOneOf (choices.map Prod.fst)) (emptyOr (enumText choices)) := by
  apply Enforces.of_error
  · intro s code
    rw [EnvRule.Breaks, ← lookup_none_iff, emptyOr]
    split
    · simp [Checked.codes, *]
    · rw [enumText]
      cases choices.lookup s <;> simp [Checked.codes, IssueCode.aborts, *]
  · intro s
    rw [emptyOr, enumText]
    cases choices.lookup s <;> split <;> simp [IssueCode.aborts]

theorem finite_eq_intCast_iff {x : ℚ} {n : ℤ} : JsNumber.finite x = .finite n ↔ x.den = 1 ∧ x.num = n := by
  rw [JsNumber.finite.injEq]
  constructor
  · rintro rfl
    exact ⟨Rat.den_intCast n, Rat.num_intCast n⟩
  · rintro ⟨hden, rfl⟩
    exact (Rat.coe_int_num_of_den_eq_one hden).symm

private theorem positiveInteger_ne_error (s : JsString) : positiveInteger s ≠ .error [] := by
  rw [positiveInteger]
  cases numberOf s with
  | nan => simp
  | infinite negative => simp
  | finite x =>
    dsimp only
    split
    · split
      · simp
      · rename_i hsafe
        simp only [ne_eq, Except.error.injEq, List.append_eq_nil_iff, ite_eq_right_iff, reduceCtorEq, imp_false]
        omega
    · simp

/-- An integer that is not safe is reported as one that is too large or too small. -/
theorem enforces_positiveInteger : Enforces hosts .positiveInteger positiveInteger := by
  refine Enforces.of_error (fun s code => ?_) positiveInteger_ne_error
  rw [EnvRule.Breaks, positiveInteger]
  cases hnumber : numberOf s with
  | nan => simp [Checked.codes]
  | infinite negative => simp [Checked.codes]
  | finite x =>
    simp only [ne_eq, finite_eq_intCast_iff, not_and]
    by_cases hden : x.den = 1
    · rw [if_pos hden]
      by_cases hsafe : 0 < x.num ∧ x.num ≤ 9007199254740991
      · rw [dif_pos hsafe]
        simp only [hden, Checked.codes, List.not_mem_nil, true_and, forall_const, exists_eq_left', false_iff]
        rintro (⟨-, h⟩ | ⟨-, h⟩ | ⟨-, h⟩)
        · exact h x.num rfl
        · omega
        · omega
      · rw [dif_neg hsafe]
        simp only [hden, Checked.codes, List.mem_append, List.mem_ite_nil_right, List.mem_singleton, true_and,
          forall_const, exists_eq_left']
        constructor
        · rintro ((⟨h, rfl⟩ | ⟨h, rfl⟩) | ⟨h, rfl⟩)
          · exact Or.inr (Or.inr ⟨rfl, h⟩)
          · exact Or.inr (Or.inl ⟨rfl, by omega⟩)
          · exact Or.inr (Or.inl ⟨rfl, h⟩)
        · rintro (⟨-, h⟩ | ⟨rfl, h⟩ | ⟨rfl, h⟩)
          · exact absurd rfl (h x.num)
          · exact Or.inr ⟨h, rfl⟩
          · exact Or.inl (Or.inl ⟨h, rfl⟩)
    · rw [if_neg hden]
      simp [hden, Checked.codes]

theorem enforces_envBoolean : Enforces hosts .anything envBoolean :=
  ⟨fun s code => by simp [envBoolean, Checked.codes, EnvRule.Breaks], fun s _ => ⟨_, rfl⟩⟩

theorem enforces_anyText : Enforces hosts .anything anyText :=
  ⟨fun s code => by simp [anyText, Checked.codes, EnvRule.Breaks], fun s _ => ⟨_, rfl⟩⟩

variable {hosts} in
theorem Enforces.mem_orDefault {rule : EnvRule} {check : JsString → Checked β} (h : Enforces hosts rule check)
    (fallback : β) (value : Option JsString) (code : IssueCode) :
    code ∈ (orDefault fallback check value).codes ↔ ∃ s, value = some s ∧ rule.Breaks hosts s code := by
  cases value with
  | none => simp [orDefault, Checked.codes]
  | some s => simp [orDefault, h.reports s code]

variable {hosts} in
theorem Enforces.orDefault_ok {rule : EnvRule} {check : JsString → Checked β} (h : Enforces hosts rule check)
    {fallback : β} {value : Option JsString} (hnil : (orDefault fallback check value).codes = []) :
    ∃ b, orDefault fallback check value = .ok b := by
  cases value with
  | none => exact ⟨fallback, rfl⟩
  | some s => exact h.passes s hnil

end Checks

section Reports
variable {hosts : Hosts α} {env : ProcessEnv}

/-- The issues found in one variable are those of its rule. -/
def Obeys (hosts : Hosts α) (env : ProcessEnv) (field : JsString × List IssueCode) (entry : JsString × EnvRule) :
    Prop :=
  field.1 = entry.1 ∧ ∀ code, code ∈ field.2 ↔ ∃ s, env entry.1 = some s ∧ entry.2.Breaks hosts s code

theorem Enforces.obeys {rule : EnvRule} {check : JsString → Checked β} (h : Enforces hosts rule check) (fallback : β)
    (name : JsString) : Obeys hosts env (name, (orDefault fallback check (env name)).codes) (name, rule) :=
  ⟨rfl, h.mem_orDefault fallback (env name)⟩

/-- Every variable is checked against its rule. -/
theorem fields_enforce (hosts : Hosts α) (env : ProcessEnv) :
    List.Forall₂ (Obeys hosts env) (checkEnv hosts env).fields envRules := by
  simp only [EnvChecks.fields, envRules, checkEnv, List.forall₂_cons]
  refine ⟨?nodeEnv, ?port, ?webOrigin, ?endpoint, ?region, ?bucket, ?archiveBucket, ?versionedBucket, ?accessKeyId,
    ?secretAccessKey, ?forcePathStyle, ?publicBaseUrl, ?cdnBaseUrl, ?keyPrefix, ?sse, ?checksumMode, ?maxTtlSeconds,
    ?multipartThreshold, ?scannerMode, ?rejectOnUnknown, ?maxSizeBytes, .nil⟩
  case nodeEnv | checksumMode | scannerMode => exact (enforces_enumText hosts _).obeys _ _
  case port | maxTtlSeconds | multipartThreshold | maxSizeBytes => exact (enforces_positiveInteger hosts).obeys _ _
  case webOrigin | endpoint | publicBaseUrl => exact (enforces_urlText hosts).obeys _ _
  case region | bucket | archiveBucket | versionedBucket | accessKeyId | secretAccessKey =>
    exact (enforces_nonEmptyText hosts).obeys _ _
  case forcePathStyle | rejectOnUnknown => exact (enforces_envBoolean hosts).obeys _ _
  case cdnBaseUrl => exact (enforces_emptyOr_urlText hosts).obeys _ _
  case keyPrefix => exact (enforces_anyText hosts).obeys _ _
  case sse => exact (enforces_emptyOr_enumText hosts sseChoices).obeys _ _

private theorem mem_flatMap_of_forall₂ {fields : List (JsString × List IssueCode)} {rules : List (JsString × EnvRule)}
    (h : List.Forall₂ (Obeys hosts env) fields rules) (issue : EnvIssue) :
    issue ∈ fields.flatMap (fun field => field.2.map (EnvIssue.mk field.1)) ↔
      ∃ rule s, (issue.name, rule) ∈ rules ∧ env issue.name = some s ∧ rule.Breaks hosts s issue.code := by
  induction h with
  | nil => simp
  | @cons field entry fields rules hfirst _ ih =>
    obtain ⟨name, code⟩ := issue
    obtain ⟨name', rule⟩ := entry
    obtain ⟨rfl, hcodes⟩ := hfirst
    rw [List.flatMap_cons, List.mem_append, ih]
    simp only [List.mem_map, EnvIssue.mk.injEq, List.mem_cons, Prod.mk.injEq]
    constructor
    · rintro (⟨_, hcode, rfl, rfl⟩ | ⟨rule', s, hmem, hrest⟩)
      · obtain ⟨s, hs, hbreaks⟩ := (hcodes _).mp hcode
        exact ⟨rule, s, Or.inl ⟨rfl, rfl⟩, hs, hbreaks⟩
      · exact ⟨rule', s, Or.inr hmem, hrest⟩
    · rintro ⟨rule', s, ⟨rfl, rfl⟩ | hmem, hs, hbreaks⟩
      · exact Or.inl ⟨code, (hcodes code).mpr ⟨s, hs, hbreaks⟩, rfl, rfl⟩
      · exact Or.inr ⟨rule', s, hmem, hs, hbreaks⟩

/-- A variable that is set breaks its rule in this way. -/
def Broken (hosts : Hosts α) (env : ProcessEnv) (name : JsString) (code : IssueCode) : Prop :=
  ∃ rule s, (name, rule) ∈ envRules ∧ env name = some s ∧ rule.Breaks hosts s code

theorem mem_baseIssues (issue : EnvIssue) :
    issue ∈ (checkEnv hosts env).baseIssues ↔ Broken hosts env issue.name issue.code :=
  mem_flatMap_of_forall₂ (fields_enforce hosts env) issue

/-- A production environment that leaves a credential at the dev default. -/
def Unguarded (env : ProcessEnv) (name : JsString) : Prop :=
  env (js "NODE_ENV") = some (js "production") ∧
    name ∈ [js "STORAGE_ACCESS_KEY_ID", js "STORAGE_SECRET_ACCESS_KEY"] ∧
    (env name).getD devCredentialDefault = devCredentialDefault

theorem mem_of_enumText {choices : List (JsString × β)} {s : JsString} {b : β} (h : enumText choices s = .ok b) :
    (s, b) ∈ choices := by
  rw [enumText] at h
  split at h
  · rename_i choice hlookup
    cases h
    obtain ⟨before, after, rfl, -⟩ := List.lookup_eq_some_iff.mp hlookup
    simp
  · cases h

theorem nodeEnv_production_iff : (checkEnv hosts env).nodeEnv = .ok .production ↔
    env (js "NODE_ENV") = some (js "production") := by
  rw [checkEnv]
  cases env (js "NODE_ENV") with
  | none => simp [orDefault]
  | some s =>
    rw [orDefault, Option.some.injEq]
    constructor
    · intro h
      simpa [nodeEnvChoices] using mem_of_enumText h
    · rintro rfl
      rfl

theorem isDevDefault_iff (value : Option JsString) :
    EnvChecks.isDevDefault (orDefault ⟨devCredentialDefault, devCredentialDefault_ne_nil⟩ nonEmptyText value) = true ↔
      value.getD devCredentialDefault = devCredentialDefault := by
  cases value with
  | none => simp [orDefault, EnvChecks.isDevDefault]
  | some s =>
    rw [orDefault, nonEmptyText]
    split
    · rename_i hs
      subst hs
      exact iff_of_false Bool.false_ne_true (by decide)
    · simp [EnvChecks.isDevDefault]

theorem mem_guardIssues (issue : EnvIssue) : issue ∈ (checkEnv hosts env).guardIssues ↔
    Unguarded env issue.name ∧ issue.code = .custom (guardMessage issue.name) := by
  obtain ⟨name, code⟩ := issue
  have hnode := @nodeEnv_production_iff _ hosts env
  rw [EnvChecks.guardIssues, Unguarded, ← hnode]
  split
  · rename_i hproduction
    simp only [hproduction, true_and, List.mem_map, List.mem_filter, List.mem_cons, List.not_mem_nil, or_false,
      EnvIssue.mk.injEq]
    constructor
    · rintro ⟨credential, ⟨rfl | rfl, hdefault⟩, rfl, rfl⟩
      · exact ⟨⟨Or.inl rfl, (isDevDefault_iff _).mp hdefault⟩, rfl⟩
      · exact ⟨⟨Or.inr rfl, (isDevDefault_iff _).mp hdefault⟩, rfl⟩
    · rintro ⟨⟨rfl | rfl, hdefault⟩, rfl⟩
      · exact ⟨_, ⟨Or.inl rfl, (isDevDefault_iff _).mpr hdefault⟩, rfl, rfl⟩
      · exact ⟨_, ⟨Or.inr rfl, (isDevDefault_iff _).mpr hdefault⟩, rfl, rfl⟩
  · rename_i hother
    refine iff_of_false (by simp) ?_
    rintro ⟨⟨hproduction, -⟩, -⟩
    exact hother hproduction

/-- What the one report names: each broken rule, and the guard's findings where no issue keeps
the guard from being asked. -/
def Reported (hosts : Hosts α) (env : ProcessEnv) (issue : EnvIssue) : Prop :=
  Broken hosts env issue.name issue.code ∨
    ((∀ name code, Broken hosts env name code → code.aborts = false) ∧ Unguarded env issue.name ∧
      issue.code = .custom (guardMessage issue.name))

theorem mem_issues (issue : EnvIssue) : issue ∈ (checkEnv hosts env).issues ↔ Reported hosts env issue := by
  have haborts : (checkEnv hosts env).baseIssues.any (fun issue => issue.code.aborts) = false ↔
      ∀ name code, Broken hosts env name code → code.aborts = false := by
    simp only [List.any_eq_false, mem_baseIssues, Bool.not_eq_true]
    exact ⟨fun h name code hbroken => h ⟨name, code⟩ hbroken, fun h issue hbroken => h _ _ hbroken⟩
  rw [EnvChecks.issues, List.mem_append, mem_baseIssues, Reported, ← haborts]
  split
  · rename_i hany
    simp [hany]
  · rename_i hany
    rw [Bool.not_eq_true] at hany
    rw [mem_guardIssues, and_iff_right hany]

end Reports

/-! What the variables are read as. -/

def ReadsChoice (choices : List (JsString × β)) (fallback : β) (value : Option JsString) (b : β) : Prop :=
  (value = none ∧ b = fallback) ∨ ∃ s, value = some s ∧ (s, b) ∈ choices

def ReadsCount (fallback : Nat) (value : Option JsString) (n : Nat) : Prop :=
  (value = none ∧ n = fallback) ∨ ∃ s, value = some s ∧ numberOf s = .finite n

def ReadsFlag (fallback : Bool) (value : Option JsString) (flag : Bool) : Prop :=
  flag = (value.map fun s => decide (s = js "true") || decide (s = js "1")).getD fallback

structure Reads (env : ProcessEnv) (app : AppEnv) : Prop where
  nodeEnv : ReadsChoice nodeEnvChoices .development (env (js "NODE_ENV")) app.nodeEnv
  port : ReadsCount 3001 (env (js "PORT")) app.port
  webOrigin : app.webOrigin = ((env (js "WEB_ORIGIN")).map trim).getD (js "http://localhost:3000")
  endpoint : app.storageEndpoint = ((env (js "STORAGE_ENDPOINT")).map trim).getD (js "http://localhost:9000")
  region : app.storageRegion = (env (js "STORAGE_REGION")).getD (js "us-east-1")
  bucket : app.storageBucket = (env (js "STORAGE_BUCKET")).getD (js "vault")
  archiveBucket : app.storageArchiveBucket = (env (js "STORAGE_ARCHIVE_BUCKET")).getD (js "vault-archive")
  versionedBucket : app.storageVersionedBucket = (env (js "STORAGE_VERSIONED_BUCKET")).getD (js "vault-versioned")
  accessKeyId : app.storageAccessKeyId = (env (js "STORAGE_ACCESS_KEY_ID")).getD devCredentialDefault
  secretAccessKey : app.storageSecretAccessKey = (env (js "STORAGE_SECRET_ACCESS_KEY")).getD devCredentialDefault
  forcePathStyle : ReadsFlag true (env (js "STORAGE_FORCE_PATH_STYLE")) app.storageForcePathStyle
  publicBaseUrl :
    app.storagePublicBaseUrl = ((env (js "STORAGE_PUBLIC_BASE_URL")).map trim).getD (js "http://localhost:9000/vault")
  cdnBaseUrl : app.storageCdnBaseUrl = ((env (js "STORAGE_CDN_BASE_URL")).filter (· ≠ [])).map trim
  keyPrefix : app.storageKeyPrefix = (env (js "STORAGE_KEY_PREFIX")).getD (js "storage-example")
  sse : ∀ algorithm,
    app.storageSse = some algorithm ↔ ∃ s, env (js "STORAGE_SSE") = some s ∧ (s, algorithm) ∈ sseChoices
  checksumMode : ReadsChoice checksumChoices .whenRequired (env (js "STORAGE_CHECKSUM_MODE")) app.storageChecksumMode
  maxTtlSeconds : ReadsCount 3600 (env (js "STORAGE_MAX_TTL_SECONDS")) app.storageMaxTtlSeconds
  multipartThreshold : ReadsCount 5242880 (env (js "STORAGE_MULTIPART_THRESHOLD")) app.storageMultipartThreshold
  scannerMode : ReadsChoice scannerModeChoices .preUpload (env (js "SCANNER_MODE")) app.scannerMode
  rejectOnUnknown : ReadsFlag false (env (js "SCANNER_REJECT_ON_UNKNOWN")) app.scannerRejectOnUnknown
  maxSizeBytes : ReadsCount 26214400 (env (js "UPLOAD_MAX_SIZE_BYTES")) app.uploadMaxSizeBytes

section Reading
variable {hosts : Hosts α} {env : ProcessEnv} {value : Option JsString}

theorem readsChoice_of_ok {choices : List (JsString × β)} {fallback b : β}
    (h : orDefault fallback (enumText choices) value = .ok b) : ReadsChoice choices fallback value b := by
  cases value with
  | none =>
    cases h
    exact Or.inl ⟨rfl, rfl⟩
  | some s => exact Or.inr ⟨s, rfl, mem_of_enumText h⟩

theorem readsCount_of_ok {fallback n : SafeCount} (h : orDefault fallback positiveInteger value = .ok n) :
    ReadsCount fallback.value value n.value := by
  cases value with
  | none =>
    cases h
    exact Or.inl ⟨rfl, rfl⟩
  | some s =>
    refine Or.inr ⟨s, rfl, ?_⟩
    rw [orDefault, positiveInteger] at h
    cases hnumber : numberOf s with
    | nan => simp [hnumber] at h
    | infinite negative => simp [hnumber] at h
    | finite x =>
      simp only [hnumber] at h
      split at h
      · rename_i hden
        split at h
        · rename_i hsafe
          cases h
          have hx : ((x.num.toNat : ℤ) : ℚ) = x := by
            rw [Int.toNat_of_nonneg hsafe.1.le]
            exact Rat.coe_int_num_of_den_eq_one hden
          exact congrArg JsNumber.finite hx.symm
        · cases h
      · cases h

theorem readsText_of_ok {fallback s : { s : JsString // s ≠ [] }} (h : orDefault fallback nonEmptyText value = .ok s) :
    s.1 = value.getD fallback.1 := by
  cases value with
  | none =>
    cases h
    rfl
  | some s' =>
    rw [orDefault, nonEmptyText] at h
    split at h
    · cases h
    · cases h
      rfl

theorem readsUrl_of_ok {fallback s : JsString} (h : orDefault fallback (urlText hosts) value = .ok s) :
    s = (value.map trim).getD fallback := by
  cases value with
  | none =>
    cases h
    rfl
  | some s' =>
    rw [orDefault, urlText] at h
    split at h
    · cases h
      rfl
    · cases h

theorem readsCdn_of_ok {s : Option JsString} (h : orDefault none (emptyOr (urlText hosts)) value = .ok s) :
    s = (value.filter (· ≠ [])).map trim := by
  cases value with
  | none =>
    cases h
    rfl
  | some s' =>
    rw [orDefault, emptyOr] at h
    split at h
    · rename_i hs
      cases h
      simp [hs]
    · rename_i hs
      have hkept : (some s').filter (· ≠ []) = some s' := by simp [hs]
      rw [hkept]
      rw [urlText] at h
      cases hparse : parse hosts (trim s') with
      | none => simp [hparse] at h
      | some record => simpa [hparse] using h.symm

theorem readsSse_of_ok {algorithm : Option SseAlgorithm}
    (h : orDefault none (emptyOr (enumText sseChoices)) value = .ok algorithm) (b : SseAlgorithm) :
    algorithm = some b ↔ ∃ s, value = some s ∧ (s, b) ∈ sseChoices := by
  cases value with
  | none =>
    cases h
    simp
  | some s =>
    rw [orDefault, emptyOr] at h
    split at h
    · rename_i hs
      cases h
      subst hs
      refine iff_of_false (by simp) ?_
      rintro ⟨s, hs, hmem⟩
      cases hs
      have hne : ∀ choice ∈ sseChoices, choice.1 ≠ [] := by decide
      exact hne _ hmem rfl
    · cases hchoice : enumText sseChoices s with
      | error codes => simp [hchoice] at h
      | ok algorithm' =>
        rw [hchoice] at h
        cases h
        have hmem := mem_of_enumText hchoice
        simp only [Option.some.injEq, exists_eq_left']
        constructor
        · rintro rfl
          exact hmem
        · intro hb
          have hunique : ∀ choice ∈ sseChoices, ∀ choice' ∈ sseChoices, choice.1 = choice'.1 →
              choice.2 = choice'.2 := by decide
          exact hunique _ hmem _ hb rfl

theorem readsFlag_of_ok {fallback flag : Bool} (h : orDefault fallback envBoolean value = .ok flag) :
    ReadsFlag fallback value flag := by
  cases value with
  | none =>
    cases h
    rfl
  | some s =>
    cases h
    rfl

theorem readsAny_of_ok {fallback s : JsString} (h : orDefault fallback anyText value = .ok s) :
    s = value.getD fallback := by
  cases value with
  | none =>
    cases h
    rfl
  | some s =>
    cases h
    rfl

theorem toOption_eq_some_iff {checked : Checked β} {b : β} : checked.toOption = some b ↔ checked = .ok b := by
  cases checked <;> simp [Except.toOption]

/-- The data of a parse: no variable has an issue, and each is as it is read. -/
theorem reads_of_data {app : AppEnv} (h : (checkEnv hosts env).data = some app) :
    (checkEnv hosts env).baseIssues = [] ∧ Reads env app := by
  rw [EnvChecks.data] at h
  obtain ⟨nodeEnv, hnodeEnv, h⟩ := Option.bind_eq_some_iff.mp h
  obtain ⟨port, hport, h⟩ := Option.bind_eq_some_iff.mp h
  obtain ⟨webOrigin, hwebOrigin, h⟩ := Option.bind_eq_some_iff.mp h
  obtain ⟨endpoint, hendpoint, h⟩ := Option.bind_eq_some_iff.mp h
  obtain ⟨region, hregion, h⟩ := Option.bind_eq_some_iff.mp h
  obtain ⟨bucket, hbucket, h⟩ := Option.bind_eq_some_iff.mp h
  obtain ⟨archive, harchive, h⟩ := Option.bind_eq_some_iff.mp h
  obtain ⟨versioned, hversioned, h⟩ := Option.bind_eq_some_iff.mp h
  obtain ⟨accessKeyId, haccessKeyId, h⟩ := Option.bind_eq_some_iff.mp h
  obtain ⟨secret, hsecret, h⟩ := Option.bind_eq_some_iff.mp h
  obtain ⟨pathStyle, hpathStyle, h⟩ := Option.bind_eq_some_iff.mp h
  obtain ⟨publicBase, hpublicBase, h⟩ := Option.bind_eq_some_iff.mp h
  obtain ⟨cdnBase, hcdnBase, h⟩ := Option.bind_eq_some_iff.mp h
  obtain ⟨keyPrefix, hkeyPrefix, h⟩ := Option.bind_eq_some_iff.mp h
  obtain ⟨sse, hsse, h⟩ := Option.bind_eq_some_iff.mp h
  obtain ⟨checksum, hchecksum, h⟩ := Option.bind_eq_some_iff.mp h
  obtain ⟨ttl, httl, h⟩ := Option.bind_eq_some_iff.mp h
  obtain ⟨threshold, hthreshold, h⟩ := Option.bind_eq_some_iff.mp h
  obtain ⟨scannerMode, hscannerMode, h⟩ := Option.bind_eq_some_iff.mp h
  obtain ⟨reject, hreject, h⟩ := Option.bind_eq_some_iff.mp h
  obtain ⟨maxSize, hmaxSize, h⟩ := Option.bind_eq_some_iff.mp h
  rw [toOption_eq_some_iff] at hnodeEnv hport hwebOrigin hendpoint hregion hbucket harchive hversioned
  rw [toOption_eq_some_iff] at haccessKeyId hsecret hpathStyle hpublicBase hcdnBase hkeyPrefix hsse
  rw [toOption_eq_some_iff] at hchecksum httl hthreshold hscannerMode hreject hmaxSize
  have hbase : (checkEnv hosts env).baseIssues = [] := by
    rw [EnvChecks.baseIssues, EnvChecks.fields, hnodeEnv, hport, hwebOrigin, hendpoint, hregion, hbucket, harchive,
      hversioned, haccessKeyId, hsecret, hpathStyle, hpublicBase, hcdnBase, hkeyPrefix, hsse, hchecksum, httl,
      hthreshold, hscannerMode, hreject, hmaxSize]
    rfl
  split at h
  · cases h
    refine ⟨hbase, ?_⟩
    exact {
      nodeEnv := readsChoice_of_ok hnodeEnv
      port := readsCount_of_ok hport
      webOrigin := readsUrl_of_ok hwebOrigin
      endpoint := readsUrl_of_ok hendpoint
      region := readsText_of_ok hregion
      bucket := readsText_of_ok hbucket
      archiveBucket := readsText_of_ok harchive
      versionedBucket := readsText_of_ok hversioned
      accessKeyId := readsText_of_ok haccessKeyId
      secretAccessKey := readsText_of_ok hsecret
      forcePathStyle := readsFlag_of_ok hpathStyle
      publicBaseUrl := readsUrl_of_ok hpublicBase
      cdnBaseUrl := readsCdn_of_ok hcdnBase
      keyPrefix := readsAny_of_ok hkeyPrefix
      sse := readsSse_of_ok hsse
      checksumMode := readsChoice_of_ok hchecksum
      maxTtlSeconds := readsCount_of_ok httl
      multipartThreshold := readsCount_of_ok hthreshold
      scannerMode := readsChoice_of_ok hscannerMode
      rejectOnUnknown := readsFlag_of_ok hreject
      maxSizeBytes := readsCount_of_ok hmaxSize }
  · cases h

/-- Where no rule is broken, every variable is parsed. -/
theorem exists_data (hbase : (checkEnv hosts env).baseIssues = [])
    (hguard : env (js "NODE_ENV") = some (js "production") →
      (env (js "STORAGE_ACCESS_KEY_ID")).getD devCredentialDefault ≠ devCredentialDefault ∧
        (env (js "STORAGE_SECRET_ACCESS_KEY")).getD devCredentialDefault ≠ devCredentialDefault) :
    ∃ app, (checkEnv hosts env).data = some app := by
  have hfields : ∀ field ∈ (checkEnv hosts env).fields, field.2 = [] := by
    intro field hfield
    exact List.map_eq_nil_iff.mp (List.flatMap_eq_nil_iff.mp hbase field hfield)
  simp only [EnvChecks.fields, List.forall_mem_cons] at hfields
  obtain ⟨hnodeEnv, hport, hwebOrigin, hendpoint, hregion, hbucket, harchive, hversioned, haccessKeyId, hsecret,
    hpathStyle, hpublicBase, hcdnBase, hkeyPrefix, hsse, hchecksum, httl, hthreshold, hscannerMode, hreject,
    hmaxSize, -⟩ := hfields
  obtain ⟨nodeEnv, hnodeEnv⟩ := (enforces_enumText hosts _).orDefault_ok hnodeEnv
  obtain ⟨port, hport⟩ := (enforces_positiveInteger hosts).orDefault_ok hport
  obtain ⟨webOrigin, hwebOrigin⟩ := (enforces_urlText hosts).orDefault_ok hwebOrigin
  obtain ⟨endpoint, hendpoint⟩ := (enforces_urlText hosts).orDefault_ok hendpoint
  obtain ⟨region, hregion⟩ := (enforces_nonEmptyText hosts).orDefault_ok hregion
  obtain ⟨bucket, hbucket⟩ := (enforces_nonEmptyText hosts).orDefault_ok hbucket
  obtain ⟨archive, harchive⟩ := (enforces_nonEmptyText hosts).orDefault_ok harchive
  obtain ⟨versioned, hversioned⟩ := (enforces_nonEmptyText hosts).orDefault_ok hversioned
  obtain ⟨accessKeyId, haccessKeyId⟩ := (enforces_nonEmptyText hosts).orDefault_ok haccessKeyId
  obtain ⟨secret, hsecret⟩ := (enforces_nonEmptyText hosts).orDefault_ok hsecret
  obtain ⟨pathStyle, hpathStyle⟩ := (enforces_envBoolean hosts).orDefault_ok hpathStyle
  obtain ⟨publicBase, hpublicBase⟩ := (enforces_urlText hosts).orDefault_ok hpublicBase
  obtain ⟨cdnBase, hcdnBase⟩ := (enforces_emptyOr_urlText hosts).orDefault_ok hcdnBase
  obtain ⟨keyPrefix, hkeyPrefix⟩ := (enforces_anyText hosts).orDefault_ok hkeyPrefix
  obtain ⟨sse, hsse⟩ := (enforces_emptyOr_enumText hosts _).orDefault_ok hsse
  obtain ⟨checksum, hchecksum⟩ := (enforces_enumText hosts _).orDefault_ok hchecksum
  obtain ⟨ttl, httl⟩ := (enforces_positiveInteger hosts).orDefault_ok httl
  obtain ⟨threshold, hthreshold⟩ := (enforces_positiveInteger hosts).orDefault_ok hthreshold
  obtain ⟨scannerMode, hscannerMode⟩ := (enforces_enumText hosts _).orDefault_ok hscannerMode
  obtain ⟨reject, hreject⟩ := (enforces_envBoolean hosts).orDefault_ok hreject
  obtain ⟨maxSize, hmaxSize⟩ := (enforces_positiveInteger hosts).orDefault_ok hmaxSize
  have hcredentials : nodeEnv = .production →
      accessKeyId.1 ≠ devCredentialDefault ∧ secret.1 ≠ devCredentialDefault := by
    rintro rfl
    have hproduction : (checkEnv hosts env).nodeEnv = .ok .production := hnodeEnv
    have hguarded := hguard (nodeEnv_production_iff.mp hproduction)
    rwa [← readsText_of_ok haccessKeyId, ← readsText_of_ok hsecret] at hguarded
  rw [EnvChecks.data, checkEnv]
  simp only [hnodeEnv, hport, hwebOrigin, hendpoint, hregion, hbucket, harchive, hversioned, haccessKeyId, hsecret,
    hpathStyle, hpublicBase, hcdnBase, hkeyPrefix, hsse, hchecksum, httl, hthreshold, hscannerMode, hreject,
    hmaxSize, Except.toOption, Option.bind_eq_bind, Option.bind_some]
  exact ⟨_, dif_pos hcredentials⟩

theorem data_isSome_iff : (∃ app, (checkEnv hosts env).data = some app) ↔ ∀ issue, ¬ Reported hosts env issue := by
  constructor
  · rintro ⟨app, hdata⟩ issue hreported
    obtain ⟨hbase, hreads⟩ := reads_of_data hdata
    rcases hreported with hbroken | ⟨-, ⟨hproduction, hname, hdefault⟩, -⟩
    · rw [← mem_baseIssues, hbase] at hbroken
      cases hbroken
    · have hnode : app.nodeEnv = .production := by
        have hchoice := hreads.nodeEnv
        rw [hproduction] at hchoice
        have hunique : ∀ choice ∈ nodeEnvChoices, choice.1 = js "production" → choice.2 = .production := by decide
        rcases hchoice with ⟨hnone, -⟩ | ⟨s, hs, hmem⟩
        · cases hnone
        · cases hs
          exact hunique _ hmem rfl
      have hcredentials := app.production_credentials hnode
      rw [hreads.accessKeyId, hreads.secretAccessKey] at hcredentials
      rcases List.mem_pair.mp hname with heq | heq
      · rw [heq] at hdefault
        exact hcredentials.1 hdefault
      · rw [heq] at hdefault
        exact hcredentials.2 hdefault
  · intro hnone
    have hbase : (checkEnv hosts env).baseIssues = [] :=
      List.eq_nil_iff_forall_not_mem.mpr fun issue hissue => hnone issue (Or.inl (mem_baseIssues issue |>.mp hissue))
    have hclear (name : JsString) (code : IssueCode) (hbroken : Broken hosts env name code) : code.aborts = false :=
      absurd (Or.inl hbroken) (hnone ⟨name, code⟩)
    refine exists_data hbase (fun hproduction => ⟨fun hdefault => ?_, fun hdefault => ?_⟩)
    · exact hnone ⟨js "STORAGE_ACCESS_KEY_ID", .custom (guardMessage (js "STORAGE_ACCESS_KEY_ID"))⟩
        (Or.inr ⟨hclear, ⟨hproduction, by simp, hdefault⟩, rfl⟩)
    · exact hnone ⟨js "STORAGE_SECRET_ACCESS_KEY", .custom (guardMessage (js "STORAGE_SECRET_ACCESS_KEY"))⟩
        (Or.inr ⟨hclear, ⟨hproduction, by simp, hdefault⟩, rfl⟩)

end Reading

/-- Boot goes on exactly when no variable breaks its rule and the guard finds nothing, and then
with every variable as it is read; else the one report names each issue there is. -/
structure BootDecides (hosts : Hosts α) (env : ProcessEnv) : Prop where
  accepts : (∃ app, validateEnv hosts env = .ok app) ↔
    (∀ name code, ¬ Broken hosts env name code) ∧ ∀ name, ¬ Unguarded env name
  reads : ∀ app, validateEnv hosts env = .ok app → Reads env app
  reports : ∀ text, validateEnv hosts env = .error text → ∃ issues ≠ [], text = report issues ∧
    ∀ issue, issue ∈ issues ↔ Reported hosts env issue

theorem forall_not_reported_iff {hosts : Hosts α} {env : ProcessEnv} : (∀ issue, ¬ Reported hosts env issue) ↔
    (∀ name code, ¬ Broken hosts env name code) ∧ ∀ name, ¬ Unguarded env name := by
  constructor
  · intro h
    have hbroken (name : JsString) (code : IssueCode) : ¬ Broken hosts env name code :=
      fun hb => h ⟨name, code⟩ (Or.inl hb)
    refine ⟨hbroken, fun name hunguarded => ?_⟩
    exact h ⟨name, .custom (guardMessage name)⟩
      (Or.inr ⟨fun name code hb => absurd hb (hbroken name code), hunguarded, rfl⟩)
  · rintro ⟨hbroken, hunguarded⟩ issue (hb | ⟨-, hu, -⟩)
    · exact hbroken _ _ hb
    · exact hunguarded _ hu

theorem validateEnv_decides (hosts : Hosts α) (env : ProcessEnv) : BootDecides hosts env where
  accepts := by
    rw [← forall_not_reported_iff, ← data_isSome_iff, validateEnv]
    cases (checkEnv hosts env).data <;> simp
  reads app h := by
    rw [validateEnv] at h
    split at h
    · rename_i data hdata
      cases h
      exact (reads_of_data hdata).2
    · cases h
  reports text h := by
    rw [validateEnv] at h
    split at h
    · cases h
    · rename_i hdata
      cases h
      refine ⟨(checkEnv hosts env).issues, fun hnil => ?_, rfl, mem_issues⟩
      have hnone : ∀ issue, ¬ Reported hosts env issue := by
        intro issue hissue
        rw [← mem_issues, hnil] at hissue
        cases hissue
      obtain ⟨app, happ⟩ := data_isSome_iff.mpr hnone
      cases hdata.symm.trans happ

/-- The environment with another value of one variable. -/
def ProcessEnv.set (env : ProcessEnv) (name value : JsString) : ProcessEnv :=
  fun other => if other = name then some value else env other

section Secrets
variable {hosts : Hosts α} {env : ProcessEnv} {secret secret' : JsString}

theorem validateEnv_eq_error_iff {text : JsString} : validateEnv hosts env = .error text ↔
    (checkEnv hosts env).issues ≠ [] ∧ text = report (checkEnv hosts env).issues := by
  have hdata : (∃ app, (checkEnv hosts env).data = some app) ↔ (checkEnv hosts env).issues = [] := by
    rw [data_isSome_iff, List.eq_nil_iff_forall_not_mem]
    simp only [mem_issues]
  rw [validateEnv, ne_eq, ← hdata]
  cases (checkEnv hosts env).data <;> simp [eq_comm]

theorem nonEmptyText_of_ne (h : secret ≠ []) : nonEmptyText secret = .ok ⟨secret, h⟩ := dif_neg h

theorem checkEnv_set_accessKeyId (h : secret ≠ []) : checkEnv hosts (env.set (js "STORAGE_ACCESS_KEY_ID") secret) =
    { checkEnv hosts env with storageAccessKeyId := .ok ⟨secret, h⟩ } := by
  simp +decide [checkEnv, ProcessEnv.set, orDefault, nonEmptyText_of_ne h]

theorem checkEnv_set_secretAccessKey (h : secret ≠ []) :
    checkEnv hosts (env.set (js "STORAGE_SECRET_ACCESS_KEY") secret) =
      { checkEnv hosts env with storageSecretAccessKey := .ok ⟨secret, h⟩ } := by
  simp +decide [checkEnv, ProcessEnv.set, orDefault, nonEmptyText_of_ne h]

theorem isDevDefault_of_ne (h : secret ≠ []) (hdefault : secret ≠ devCredentialDefault) :
    EnvChecks.isDevDefault (.ok ⟨secret, h⟩) = false := decide_eq_false hdefault

private theorem issues_congr {checks checks' : EnvChecks} (hfields : checks.fields = checks'.fields)
    (hguard : checks.guardIssues = checks'.guardIssues) : checks.issues = checks'.issues := by
  rw [EnvChecks.issues, EnvChecks.issues, EnvChecks.baseIssues, EnvChecks.baseIssues, hfields, hguard]

/-- A credential of one's own has no issue, so the issues are the same with every such one. -/
theorem issues_set_credential {name : JsString}
    (hname : name ∈ [js "STORAGE_ACCESS_KEY_ID", js "STORAGE_SECRET_ACCESS_KEY"])
    (h : secret ≠ [] ∧ secret ≠ devCredentialDefault) (h' : secret' ≠ [] ∧ secret' ≠ devCredentialDefault) :
    (checkEnv hosts (env.set name secret)).issues = (checkEnv hosts (env.set name secret')).issues := by
  rcases List.mem_pair.mp hname with rfl | rfl
  · rw [checkEnv_set_accessKeyId h.1, checkEnv_set_accessKeyId h'.1]
    apply issues_congr
    · rfl
    · simp only [EnvChecks.guardIssues, List.filter_cons, isDevDefault_of_ne h.1 h.2, isDevDefault_of_ne h'.1 h'.2,
        Bool.false_eq_true, if_false]
  · rw [checkEnv_set_secretAccessKey h.1, checkEnv_set_secretAccessKey h'.1]
    apply issues_congr
    · rfl
    · simp only [EnvChecks.guardIssues, List.filter_cons, isDevDefault_of_ne h.1 h.2, isDevDefault_of_ne h'.1 h'.2,
        Bool.false_eq_true, if_false]

/-- Whatever else is wrong with an environment, its report is the same text whichever
credential of one's own stands in it. -/
theorem report_hides_credentials (hosts : Hosts α) (env : ProcessEnv) {name : JsString}
    (hname : name ∈ [js "STORAGE_ACCESS_KEY_ID", js "STORAGE_SECRET_ACCESS_KEY"])
    (h : secret ≠ [] ∧ secret ≠ devCredentialDefault) (h' : secret' ≠ [] ∧ secret' ≠ devCredentialDefault)
    (text : JsString) : validateEnv hosts (env.set name secret) = .error text ↔
      validateEnv hosts (env.set name secret') = .error text := by
  rw [validateEnv_eq_error_iff, validateEnv_eq_error_iff, issues_set_credential hname h h']

def badPort : ProcessEnv := fun name => if name = js "PORT" then some (js "x") else none

/-- A port that is no number, beside one secret and another. -/
theorem bad_port_hides_secret :
    validateEnv plainHosts (badPort.set (js "STORAGE_SECRET_ACCESS_KEY") (js "open sesame")) =
      .error (report [⟨js "PORT", .invalidType⟩]) := by
  have hother : validateEnv plainHosts (badPort.set (js "STORAGE_SECRET_ACCESS_KEY") (js "hunter2")) =
      .error (report [⟨js "PORT", .invalidType⟩]) := by
    refine validateEnv_eq_error_iff.mpr ⟨by decide +kernel, congrArg report ?_⟩
    decide +kernel
  exact (report_hides_credentials plainHosts badPort (by decide) (by decide) (by decide) _).mpr hother

end Secrets

end NestStorageExample.Api
