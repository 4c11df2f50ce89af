import NestStorageExample.Api.ProviderKey

/-! The upload endpoints that take a file: the options each hands to the library,
and when the key among them can be sent back to the other routes. -/
namespace NestStorageExample.Api
open Text Storage

/-- A file as multer hands it on, its name cut to the base name. -/
structure MulterFile where
  originalname : JsString
  mimetype : JsString
  size : Nat
  buffer : List Byte
  basename : slash ∉ originalname

structure SingleUploadBody where
  category : UploadCategory
  cacheControl : Option JsString
  contentDisposition : Option JsString
  metadata : Option (List (JsString × JsString))

/-- `SSE_VALUES`. -/
inductive SseValue where
  | aes256
  | awsKms
  | none
  deriving DecidableEq, Repr

def SseValue.text : SseValue → JsString
  | aes256 => js "AES256"
  | awsKms => js "aws:kms"
  | none => js "NONE"

structure SseOverrideBody extends SingleUploadBody where
  serverSideEncryption : SseValue

structure MultipartUploadBody where
  category : UploadCategory

structure StreamUploadQuery where
  category : UploadCategory
  knownSize : Bool
  filename : Option JsString
  filename_accepted : ∀ name ∈ filename, filenameSchema.Accepts name

/-- The fallback name has no extension. -/
def defaultFilename : JsString := js "stream"

def buildBaseUploadOptions (file : MulterFile) (body : SingleUploadBody) (key : JsString) : UploadOptions where
  key := key
  body := .buffer file.buffer
  contentType := file.mimetype
  size := some file.size
  cacheControl := body.cacheControl
  contentDisposition := body.contentDisposition
  metadata := body.metadata
  serverSideEncryption := none
  idempotencyKey := none

/-- The options of a call that sets nothing but the required fields and a size. -/
def plainUploadOptions (key : JsString) (body : UploadBody) (contentType : JsString) (size : Option Nat) :
    UploadOptions where
  key := key
  body := body
  contentType := contentType
  size := size
  cacheControl := none
  contentDisposition := none
  metadata := none
  serverSideEncryption := none
  idempotencyKey := none

/-- A request one of the file endpoints has accepted. -/
inductive FileUpload where
  | single (file : MulterFile) (body : SingleUploadBody)
  | sseOverride (file : MulterFile) (body : SseOverrideBody)
  | multipart (file : MulterFile) (body : MultipartUploadBody)
  | stream (chunks : List Chunk) (contentType : JsString) (query : StreamUploadQuery) (contentLength : Option Nat)
  | validationLab (file : MulterFile)

/-- The call to `StorageService.upload` that `uploadSingle`, `uploadWithSseOverride`,
`uploadMultipart`, `uploadStream` and `ValidationLabService.upload` make. -/
def FileUpload.options (request : FileUpload) (uuid : Uuid) : UploadOptions :=
  match request with
  | single file body => buildBaseUploadOptions file body (uploadKey body.category uuid file.originalname)
  | sseOverride file body =>
    { buildBaseUploadOptions file body.toSingleUploadBody (uploadKey body.category uuid file.originalname) with
      serverSideEncryption := some body.serverSideEncryption.text }
  | multipart file body =>
    plainUploadOptions (uploadKey body.category uuid file.originalname) (.buffer file.buffer) file.mimetype
      (some file.size)
  | stream chunks contentType query contentLength =>
    plainUploadOptions (uploadKey query.category uuid (query.filename.getD defaultFilename)) (.stream chunks)
      contentType (if query.knownSize then contentLength else none)
  | validationLab file =>
    plainUploadOptions (validationLabKey uuid file.originalname) (.buffer file.buffer) file.mimetype (some file.size)

/-- The first segment of the composed key. -/
def FileUpload.category : FileUpload → JsString
  | single _ body => body.category.text
  | sseOverride _ body => body.category.text
  | multipart _ body => body.category.text
  | stream _ _ query _ => query.category.text
  | validationLab _ => js "validation-lab"

/-- The caller's name for the file. -/
def FileUpload.filename : FileUpload → JsString
  | single file _ => file.originalname
  | sseOverride file _ => file.originalname
  | multipart file _ => file.originalname
  | stream _ _ query _ => query.filename.getD defaultFilename
  | validationLab file => file.originalname

theorem FileUpload.key_eq (request : FileUpload) (uuid : Uuid) : (request.options uuid).key =
    request.category ++ slash :: (uuid.text ++ extractExtension request.filename) := by
  cases request <;> rfl

theorem FileUpload.category_plain (request : FileUpload) : PlainSegment request.category := by
  cases request with
  | single _ body => exact body.category.plain
  | sseOverride _ body => exact body.category.plain
  | multipart _ body => exact body.category.plain
  | stream _ _ query _ => exact query.category.plain
  | validationLab _ => exact (by decide : PlainSegment (js "validation-lab"))

theorem FileUpload.category_ne_nil (request : FileUpload) : request.category ≠ [] := by
  cases request with
  | single _ body => exact body.category.ne_nil
  | sseOverride _ body => exact body.category.ne_nil
  | multipart _ body => exact body.category.ne_nil
  | stream _ _ query _ => exact query.category.ne_nil
  | validationLab _ => exact (by decide : js "validation-lab" ≠ [])

/-- The key is the category and one file segment, every key schema accepts it, and so
does the resolver behind the abort route under any global prefix. -/
structure FileUpload.Addressable (request : FileUpload) (uuid : Uuid) : Prop where
  segments : splitSlash (request.options uuid).key =
    [request.category, uuid.text ++ extractExtension request.filename]
  accepted : objectKeySchema.Accepts (request.options uuid).key
  resolved : ∀ keyPrefix, ∃ providerKey, composeKey keyPrefix (request.options uuid).key = .ok providerKey

theorem splitSlash_eq_singleton_iff (s : JsString) : splitSlash s = [s] ↔ slash ∉ s :=
  ⟨fun h => not_mem_of_mem_splitSlash (s := s) (by rw [h]; exact List.mem_singleton_self s), splitSlash_of_not_mem⟩

theorem FileUpload.segments_iff (request : FileUpload) (uuid : Uuid) :
    splitSlash (request.options uuid).key = [request.category, uuid.text ++ extractExtension request.filename] ↔
      slash ∉ extractExtension request.filename := by
  rw [request.key_eq, splitSlash_append_slash request.category_plain.not_slash, List.cons_eq_cons,
    splitSlash_eq_singleton_iff, List.mem_append]
  simp [uuid.plain.not_slash]

theorem FileUpload.byteLength_key (request : FileUpload) (uuid : Uuid) : byteLength (request.options uuid).key =
    request.category.length + 37 + byteLength (extractExtension request.filename) := by
  rw [request.key_eq, byteLength_append_ascii slash_lt, byteLength_ascii request.category_plain.isAscii,
    byteLength_ascii_append uuid.plain.isAscii, uuid.length]
  omega

theorem FileUpload.accepted_iff (request : FileUpload) (uuid : Uuid) :
    objectKeySchema.Accepts (request.options uuid).key ↔
      request.category.length + 37 + byteLength (extractExtension request.filename) ≤ maxKeyBytes ∧
        ∀ c ∈ extractExtension request.filename, isControlCode c = false := by
  rw [objectKeySchema_accepts_iff, request.byteLength_key, request.key_eq]
  constructor
  · rintro ⟨-, hlen, hunits⟩
    exact ⟨hlen, fun c hc => hunits c (by simp [hc])⟩
  · rintro ⟨hlen, hunits⟩
    refine ⟨by simp, hlen, ?_⟩
    intro c hc
    simp only [List.mem_append, List.mem_cons] at hc
    rcases hc with hc | rfl | hc | hc
    · exact request.category_plain.no_control c hc
    · decide
    · exact uuid.plain.no_control c hc
    · exact hunits c hc

private theorem FileUpload.addressable_of_extension {request : FileUpload} {uuid : Uuid}
    (hslash : slash ∉ extractExtension request.filename)
    (haccepted : objectKeySchema.Accepts (request.options uuid).key) : request.Addressable uuid := by
  have hsegments := (request.segments_iff uuid).mpr hslash
  refine ⟨hsegments, haccepted, fun keyPrefix => ⟨_, composeKey_ok ?_ ?_⟩⟩
  · rw [request.key_eq]
    exact head_append_ne_slash request.category_ne_nil request.category_plain.not_slash _
  · rw [hsegments, List.mem_pair, not_or]
    refine ⟨fun h => request.category_plain.ne_dots h.symm, fun h => ?_⟩
    have hlen := congrArg List.length h
    have hdots : (js "..").length = 2 := by decide
    rw [List.length_append, uuid.length] at hlen
    omega

/-- What is stored can be addressed again exactly when the text behind the last dot of
the caller's file name, if there is one, keeps the rules of a key. -/
theorem file_upload_addressable_iff (request : FileUpload) (uuid : Uuid) :
    request.Addressable uuid ↔ ∀ stem tail, request.filename = stem ++ dot :: tail → dot ∉ tail →
      slash ∉ tail ∧ (∀ c ∈ tail, isControlCode c = false) ∧
        request.category.length + 38 + byteLength tail ≤ maxKeyBytes := by
  have hdot (tail : JsString) : byteLength (dot :: tail) = 1 + byteLength tail :=
    byteLength_ascii_append (s := [dot]) (by decide) tail
  constructor
  · intro h stem tail hname htail
    have hext : extractExtension request.filename = dot :: tail := by rw [hname, extractExtension_append stem htail]
    obtain ⟨hlen, hunits⟩ := (request.accepted_iff uuid).mp h.accepted
    have hslash := (request.segments_iff uuid).mp h.segments
    rw [hext] at hlen hunits hslash
    rw [hdot] at hlen
    exact ⟨fun hs => hslash (List.mem_cons_of_mem _ hs), fun c hc => hunits c (List.mem_cons_of_mem _ hc), by omega⟩
  · intro h
    rcases extractExtension_cases request.filename with ⟨-, hext⟩ | ⟨stem, tail, hname, htail, hext⟩
    · have hshort : request.category.length ≤ 14 := by
        cases request with
        | single _ body => exact body.category.length_le
        | sseOverride _ body => exact body.category.length_le
        | multipart _ body => exact body.category.length_le
        | stream _ _ query _ => exact query.category.length_le
        | validationLab _ => exact (by decide : (js "validation-lab").length ≤ 14)
      have hnil : byteLength [] = 0 := rfl
      refine FileUpload.addressable_of_extension (by rw [hext]; exact List.not_mem_nil) ?_
      rw [request.accepted_iff, hext, hnil, maxKeyBytes]
      exact ⟨by omega, fun c hc => by cases hc⟩
    · obtain ⟨hslash, hunits, hlen⟩ := h stem tail hname htail
      refine FileUpload.addressable_of_extension ?_ ?_
      · rw [hext, List.mem_cons, not_or]
        exact ⟨by decide, hslash⟩
      · rw [request.accepted_iff, hext, hdot]
        refine ⟨by omega, fun c hc => ?_⟩
        rcases List.mem_cons.mp hc with rfl | hc
        · decide
        · exact hunits c hc

/-- A stream may name its file with a separator behind the last dot. -/
theorem stream_filename_not_addressable :
    ¬ (FileUpload.stream [] (js "text/plain") ⟨.media, true, some (js "report.v1/final"), by decide⟩ none).Addressable
      ⟨js "123e4567-e89b-42d3-a456-426614174000", by decide⟩ := by
  intro h
  exact absurd ((FileUpload.segments_iff _ _).mp h.segments) (by decide)

end NestStorageExample.Api
