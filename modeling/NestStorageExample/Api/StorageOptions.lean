import NestStorageExample.Text.CodeUnits

/-! The resolved options of the storage module: the three blocks the API looks into,
and beside them whatever else the library takes. -/
namespace NestStorageExample.Api
open Text

structure StorageCredentials where
  accessKeyId : JsString
  secretAccessKey : JsString
  sessionToken : Option JsString
  deriving DecidableEq

inductive ScannerMode where
  | preUpload
  | postUpload
  deriving DecidableEq, Repr

/-- A live scanner: its class name, and what it does and holds. -/
structure ScannerImpl (Scan : Type) where
  constructorName : JsString
  internals : Scan

structure ScannerOptions (Scan : Type) where
  impl : ScannerImpl Scan
  mode : Option ScannerMode
  rejectOnUnknown : Option Bool

/-- A live custom validator under its `name`. -/
structure UploadValidator (Validate : Type) where
  name : JsString
  internals : Validate

structure ValidationOptions (Validate : Type) where
  mimeWhitelist : Option (List JsString)
  maxSizeBytes : Option Nat
  customValidators : Option (List (UploadValidator Validate))

/-- `BymaxStorageModuleOptions`, the credentials optional as in `RedactableStorageOptions`. -/
structure StorageOptions (Rest Scan Validate : Type) where
  credentials : Option StorageCredentials
  scanner : Option (ScannerOptions Scan)
  validation : Option (ValidationOptions Validate)
  rest : Rest

end NestStorageExample.Api
