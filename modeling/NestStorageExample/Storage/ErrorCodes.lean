import NestStorageExample.Storage.Service

/-! The codes as they stand in an error envelope. -/
namespace NestStorageExample.Storage
open Text

namespace ErrorCode

def text : ErrorCode → JsString
  | notConfigured => js "STORAGE_NOT_CONFIGURED"
  | keyInvalid => js "STORAGE_KEY_INVALID"
  | bodyMissing => js "STORAGE_BODY_MISSING"
  | contentTypeRequired => js "STORAGE_CONTENT_TYPE_REQUIRED"
  | mimeNotAllowed => js "STORAGE_MIME_NOT_ALLOWED"
  | sizeExceeded => js "STORAGE_SIZE_EXCEEDED"
  | validationFailed => js "STORAGE_VALIDATION_FAILED"
  | scanInfected => js "STORAGE_SCAN_INFECTED"
  | scanInconclusive => js "STORAGE_SCAN_INCONCLUSIVE"
  | objectNotFound => js "STORAGE_OBJECT_NOT_FOUND"
  | providerError => js "STORAGE_PROVIDER_ERROR"
  | signedUrlTtlInvalid => js "STORAGE_SIGNED_URL_TTL_INVALID"
  | partTooSmall => js "STORAGE_PART_TOO_SMALL"
  | invalidPartCount => js "STORAGE_INVALID_PART_COUNT"
  | bucketUndefined => js "STORAGE_BUCKET_UNDEFINED"
  | multipartAborted => js "STORAGE_MULTIPART_ABORTED"
  | invalidConfig => js "STORAGE_INVALID_CONFIG"
  | timeout => js "STORAGE_TIMEOUT"

/-- `Object.values(STORAGE_ERROR_CODES)` -/
def all : List ErrorCode :=
  [notConfigured, keyInvalid, bodyMissing, contentTypeRequired, mimeNotAllowed, sizeExceeded, validationFailed,
    scanInfected, scanInconclusive, objectNotFound, providerError, signedUrlTtlInvalid, partTooSmall,
    invalidPartCount, bucketUndefined, multipartAborted, invalidConfig, timeout]

def ofText (raw : JsString) : Option ErrorCode := all.find? (fun code => code.text = raw)

theorem ofText_text (code : ErrorCode) : ofText code.text = some code := by
  cases code <;> decide

/-- A text is one code's, or no code's. -/
theorem ofText_eq_some_iff (raw : JsString) (code : ErrorCode) : ofText raw = some code ↔ raw = code.text := by
  constructor
  · intro h
    have hfound := List.find?_some h
    exact (of_decide_eq_true hfound).symm
  · rintro rfl
    exact ofText_text code

end ErrorCode

end NestStorageExample.Storage
