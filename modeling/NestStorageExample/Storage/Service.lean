import NestStorageExample.Effects.Async
import NestStorageExample.Text.Segments
import Mathlib.Data.Finmap

/-! The storage library as the services see it: its calls, what they are given and
what they answer. The library itself is a parameter of everything above. -/
namespace NestStorageExample.Storage
open Text Effects

/-- `STORAGE_ERROR_CODES`. -/
inductive ErrorCode where
  | notConfigured
  | keyInvalid
  | bodyMissing
  | contentTypeRequired
  | mimeNotAllowed
  | sizeExceeded
  | validationFailed
  | scanInfected
  | scanInconclusive
  | objectNotFound
  | providerError
  | signedUrlTtlInvalid
  | partTooSmall
  | invalidPartCount
  | bucketUndefined
  | multipartAborted
  | invalidConfig
  | timeout
  deriving DecidableEq, Repr

structure StorageException where
  code : ErrorCode
  details : List (String × JsString)
  deriving DecidableEq

/-- What a call rejects with: the library's exception, or any other error. -/
inductive Rejection where
  | storage (exception : StorageException)
  | other (message : JsString)
  deriving DecidableEq

/-- What is kept of an object beside its bytes. -/
structure ObjectHeaders where
  contentType : Option JsString
  etag : JsString
  /-- a `Date`, as its time value -/
  lastModified : Int
  cacheControl : Option JsString
  contentDisposition : Option JsString
  storageClass : Option JsString
  versionId : Option JsString
  /-- the caller's own pairs, `metadata` in the library -/
  customMetadata : List (JsString × JsString)
  deriving DecidableEq

structure ObjectMetadata extends ObjectHeaders where
  size : Nat
  deriving DecidableEq

/-- One piece of a readable stream. -/
inductive Chunk where
  | buffer (bytes : List Byte)
  | text (s : JsString)
  deriving DecidableEq

structure DownloadOptions where
  key : JsString
  bucket : Option JsString
  range : Option JsString
  deriving DecidableEq

structure DownloadResult where
  stream : List Chunk
  metadata : ObjectMetadata

inductive UploadBody where
  | buffer (bytes : List Byte)
  | stream (chunks : List Chunk)
  deriving DecidableEq

structure UploadOptions where
  key : JsString
  body : UploadBody
  contentType : JsString
  size : Option Nat
  cacheControl : Option JsString
  contentDisposition : Option JsString
  metadata : Option (List (JsString × JsString))
  serverSideEncryption : Option JsString
  idempotencyKey : Option JsString
  deriving DecidableEq

structure UploadResult where
  multipart : Bool

structure ListOptions where
  pathPrefix : JsString
  maxKeys : Option Nat
  continuationToken : Option JsString
  deriving DecidableEq

structure ListedObject where
  key : JsString
  size : Nat
  etag : JsString

structure ListResult where
  objects : List ListedObject
  nextContinuationToken : Option JsString

structure FailedDeletion where
  key : JsString
  error : JsString

structure DeleteManyResult where
  deleted : List JsString
  failed : List FailedDeletion

structure CopyOptions where
  sourceKey : JsString
  destinationKey : JsString
  destinationBucket : Option JsString
  deriving DecidableEq

structure CopyResult where
  etag : JsString

/-- The methods of `StorageService` that the services call. -/
structure StorageService (W : Type) where
  upload : UploadOptions → Async Rejection W UploadResult
  head : JsString → Option JsString → Async Rejection W ObjectMetadata
  download : DownloadOptions → Async Rejection W DownloadResult
  list : ListOptions → Async Rejection W ListResult
  delete : JsString → Option JsString → Async Rejection W Unit
  deleteMany : List JsString → Async Rejection W DeleteManyResult
  copy : CopyOptions → Async Rejection W CopyResult

/-- The library's key resolver, the global prefix left out: a key it turns away, or
the one it stores under. -/
def resolveKey (rawKey : JsString) : Option JsString :=
  if rawKey.head? = some slash ∨ js ".." ∈ splitSlash rawKey then none else some (collapseSlashes rawKey)

end NestStorageExample.Storage
