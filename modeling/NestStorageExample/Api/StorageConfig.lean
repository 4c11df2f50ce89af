import NestStorageExample.Api.MarkerFileScanner
import NestStorageExample.Api.StorageOptions

/-! The storage options the running API boots with, as a function of its environment. -/
namespace NestStorageExample.Api
open Text Storage

inductive NodeEnv where
  | development
  | test
  | production
  deriving DecidableEq, Repr

inductive SseAlgorithm where
  | aes256
  | awsKms
  deriving DecidableEq, Repr

inductive ChecksumMode where
  | whenRequired
  | whenSupported
  deriving DecidableEq, Repr

def devCredentialDefault : JsString := js "minioadmin"

/-- What `buildStorageOptions` reads of an environment that `envSchema` has accepted, with
the bounds the schema puts on it. The empty CDN address and algorithm are `none`. -/
structure Env where
  nodeEnv : NodeEnv
  storageEndpoint : JsString
  storageRegion : JsString
  storageBucket : JsString
  storageAccessKeyId : JsString
  storageSecretAccessKey : JsString
  storageForcePathStyle : Bool
  storagePublicBaseUrl : JsString
  storageCdnBaseUrl : Option JsString
  storageKeyPrefix : JsString
  storageSse : Option SseAlgorithm
  storageChecksumMode : ChecksumMode
  storageMaxTtlSeconds : Nat
  storageMultipartThreshold : Nat
  scannerMode : ScannerMode
  scannerRejectOnUnknown : Bool
  uploadMaxSizeBytes : Nat
  region_ne : storageRegion ≠ []
  bucket_ne : storageBucket ≠ []
  accessKeyId_ne : storageAccessKeyId ≠ []
  secretAccessKey_ne : storageSecretAccessKey ≠ []
  maxTtl_pos : 0 < storageMaxTtlSeconds
  threshold_pos : 0 < storageMultipartThreshold
  maxSize_pos : 0 < uploadMaxSizeBytes
  production_credentials : nodeEnv = .production →
    storageAccessKeyId ≠ devCredentialDefault ∧ storageSecretAccessKey ≠ devCredentialDefault

/-- The context of an `IUploadValidator`; the peek is not there for every stream. -/
structure ValidatorContext where
  contentType : JsString
  readBytes : Option (Nat → List Byte)

inductive ValidatorResult where
  | ok
  | failed (reason : String)
  deriving DecidableEq, Repr

/-- `buffer.toString('ascii')` drops the high bit of each byte. -/
def asciiText (bytes : List Byte) : JsString := bytes.map (fun byte => (byte &&& 0x7F).toUInt16)

namespace PdfMagicByteValidator

def pdfMagic : JsString := js "%PDF"
def magicByteCount : Nat := 4
def name : JsString := js "pdf-magic-byte"

def validate (context : ValidatorContext) : ValidatorResult :=
  if context.contentType ≠ js "application/pdf" then .ok
  else
    match context.readBytes with
    | none => .ok
    | some readBytes =>
      if asciiText (readBytes magicByteCount) = pdfMagic then .ok
      else .failed "Declared as PDF but missing the %PDF magic bytes"

/-- The validator fails only a declared PDF that it can peek into. -/
theorem validate_eq_ok_iff (context : ValidatorContext) : validate context = .ok ↔
    (context.contentType = js "application/pdf" →
      ∀ readBytes ∈ context.readBytes, asciiText (readBytes magicByteCount) = pdfMagic) := by
  unfold validate
  split
  · rename_i htype
    exact iff_of_true rfl (fun h => absurd h htype)
  · rename_i htype
    rw [forall_prop_of_true (not_not.mp htype)]
    cases context.readBytes with
    | none => simp
    | some readBytes => simp

end PdfMagicByteValidator

structure SignedUrlsOptions where
  defaultGetTtlSeconds : Nat
  defaultPutTtlSeconds : Nat
  maxTtlSeconds : Nat
  deriving DecidableEq

structure MultipartOptions where
  thresholdBytes : Nat
  partSizeBytes : Nat
  queueSize : Nat
  deriving DecidableEq

/-- The options besides the credentials, the scanner and the validation. -/
structure ConnectionOptions where
  endpoint : Option JsString := none
  region : Option JsString := none
  bucket : Option JsString := none
  forcePathStyle : Option Bool := none
  publicBaseUrl : Option JsString := none
  cdnBaseUrl : Option JsString := none
  keyPrefix : Option JsString := none
  defaultCacheControl : Option JsString := none
  defaultContentDisposition : Option JsString := none
  signedUrls : Option SignedUrlsOptions := none
  multipart : Option MultipartOptions := none
  serverSideEncryption : Option SseAlgorithm := none
  requestChecksumCalculation : Option ChecksumMode := none
  responseChecksumValidation : Option ChecksumMode := none
  maxAttempts : Option Nat := none
  requestTimeoutMs : Option Nat := none
  deriving DecidableEq

/-- `BymaxStorageModuleOptions` with the scanners and validators as what they compute. -/
abbrev ModuleOptions :=
  StorageOptions ConnectionOptions (ScanInput → FileScanResult) (ValidatorContext → ValidatorResult)

def markerFileScanner : ScannerImpl (ScanInput → FileScanResult) :=
  ⟨js "MarkerFileScanner", MarkerFileScanner.scan⟩

def pdfMagicByteValidator : UploadValidator (ValidatorContext → ValidatorResult) :=
  ⟨PdfMagicByteValidator.name, PdfMagicByteValidator.validate⟩

/-- The whitelists that the library ships. -/
structure MimeDefaults where
  imageMimeWhitelist : List JsString
  docMimeWhitelist : List JsString

def buildStorageOptions (defaults : MimeDefaults) (env : Env) : ModuleOptions where
  credentials := some ⟨env.storageAccessKeyId, env.storageSecretAccessKey, none⟩
  scanner := some ⟨markerFileScanner, some env.scannerMode, some env.scannerRejectOnUnknown⟩
  validation := some {
    mimeWhitelist := some (defaults.imageMimeWhitelist ++ defaults.docMimeWhitelist ++ [js "video/*"])
    maxSizeBytes := some env.uploadMaxSizeBytes
    customValidators := some [pdfMagicByteValidator] }
  rest := {
    endpoint := some env.storageEndpoint
    region := some env.storageRegion
    bucket := some env.storageBucket
    forcePathStyle := some env.storageForcePathStyle
    publicBaseUrl := some env.storagePublicBaseUrl
    cdnBaseUrl := env.storageCdnBaseUrl
    keyPrefix := some env.storageKeyPrefix
    defaultCacheControl := some (js "public, max-age=31536000, immutable")
    defaultContentDisposition := some (js "inline")
    signedUrls := some ⟨300, 300, env.storageMaxTtlSeconds⟩
    multipart := some ⟨env.storageMultipartThreshold, 5242880, 4⟩
    serverSideEncryption := env.storageSse
    requestChecksumCalculation := some env.storageChecksumMode
    responseChecksumValidation := some env.storageChecksumMode
    maxAttempts := some 3
    requestTimeoutMs := some 30000 }

end NestStorageExample.Api
