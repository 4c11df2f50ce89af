import NestStorageExample.Api.RequestAcceptance
import NestStorageExample.Web.DirectUpload

/-! The bodies that six of the dashboard's hooks build, each against the schema of its route. -/
namespace NestStorageExample.Web
open Text Validation Api

structure SingleUploadParams where
  file : File
  category : JsString
  contentType : Option JsString

inductive SseValue where
  | aes256
  | awsKms
  | none
  deriving DecidableEq

def SseValue.text : SseValue → JsString
  | aes256 => js "AES256"
  | awsKms => js "aws:kms"
  | none => js "NONE"

structure SseUploadParams where
  file : File
  category : JsString
  serverSideEncryption : SseValue

structure UploadUrlParams where
  category : JsString
  contentType : JsString
  ttlSeconds : Option JsNumber
  maxSizeBytes : Option JsNumber

structure MultipartUrlsParams where
  key : JsString
  contentType : JsString
  partCount : JsNumber
  ttlSeconds : Option JsNumber

structure CopyParams where
  sourceKey : JsString
  destinationKey : JsString
  destination : Option JsString
  deleteSource : Option Bool

/-! The three forms. -/

inductive FormEntry where
  | text (value : JsString)
  | file (file : File)

abbrev FormData := List (JsString × FormEntry)

def SingleUploadParams.form (params : SingleUploadParams) : FormData :=
  [(js "file", .file params.file), (js "category", .text params.category)] ++
    (params.contentType.filter (· ≠ [])).toList.map (fun contentType => (js "contentType", .text contentType))

def multipartUploadForm (file : File) : FormData := [(js "file", .file file)]

def SseUploadParams.form (params : SseUploadParams) : FormData :=
  [(js "file", .file params.file), (js "category", .text params.category),
    (js "serverSideEncryption", .text params.serverSideEncryption.text)]

/-- The `body` of a form: its text fields. The file goes elsewhere; `receive` is what the
form parser makes of a text. -/
def formBody (receive : JsString → JsString) (form : FormData) : Json :=
  .object (form.filterMap fun entry => match entry.2 with
    | .text value => some (entry.1, .string (receive value))
    | .file _ => none)

/-! The three JSON bodies. -/

/-- `JSON.stringify` writes `null` for a number that is not finite. -/
def jsonNumber : JsNumber → Json
  | .finite x => .number (.finite x)
  | _ => .null

def UploadUrlParams.toJson (params : UploadUrlParams) : Json :=
  .object ([(js "category", .string params.category), (js "contentType", .string params.contentType)] ++
    Json.optionalField "ttlSeconds" (params.ttlSeconds.map jsonNumber) ++
    Json.optionalField "maxSizeBytes" (params.maxSizeBytes.map jsonNumber))

def MultipartUrlsParams.toJson (params : MultipartUrlsParams) : Json :=
  .object ([(js "key", .string params.key), (js "contentType", .string params.contentType),
    (js "partCount", jsonNumber params.partCount)] ++
    Json.optionalField "ttlSeconds" (params.ttlSeconds.map jsonNumber))

def CopyParams.toJson (params : CopyParams) : Json :=
  .object ([(js "sourceKey", .string params.sourceKey), (js "destinationKey", .string params.destinationKey)] ++
    Json.optionalField "destination" (params.destination.map Json.string) ++
    Json.optionalField "deleteSource" (params.deleteSource.map Json.bool))

/-- A call of one of the six mutations. -/
inductive Mutation where
  | singleUpload (params : SingleUploadParams)
  | multipartUpload (file : File)
  | sseOverrideUpload (params : SseUploadParams)
  | signedUploadUrl (params : UploadUrlParams)
  | signedMultipartUrls (params : MultipartUrlsParams)
  | copyObject (params : CopyParams)

namespace Mutation

def body (receive : JsString → JsString) : Mutation → Json
  | singleUpload params => formBody receive params.form
  | multipartUpload file => formBody receive (multipartUploadForm file)
  | sseOverrideUpload params => formBody receive params.form
  | signedUploadUrl params => params.toJson
  | signedMultipartUrls params => params.toJson
  | copyObject params => params.toJson

def schema : Mutation → Schema
  | singleUpload _ => singleUploadBodySchema
  | multipartUpload _ => multipartUploadBodySchema
  | sseOverrideUpload _ => sseOverrideBodySchema
  | signedUploadUrl _ => uploadUrlBodySchema
  | signedMultipartUrls _ => multipartUrlsBodySchema
  | copyObject _ => copyBodySchema

end Mutation

/-- `type/subtype` in at most 255 printable characters. -/
def IsContentType (s : JsString) : Prop :=
  ∃ type subtype, s = type ++ slash :: subtype ∧ type ≠ [] ∧ subtype ≠ [] ∧ slash ∉ type ∧ slash ∉ subtype ∧
    s.length ≤ 255 ∧ ∀ c ∈ s, isPrintableAscii c = true

/-- An integer that a double tells from its neighbours. -/
def IsSafeInteger (n : JsNumber) : Prop :=
  ∃ k : Int, n = .finite k ∧ k ≤ 9007199254740991 ∧ -9007199254740991 ≤ k

/-- The arguments lie within the bounds that the route states for them. -/
def Mutation.WithinBounds : Mutation → Prop
  | singleUpload params => params.category ∈ uploadCategories
  | multipartUpload _ => True
  | sseOverrideUpload params => params.category ∈ uploadCategories
  | signedUploadUrl params => params.category ∈ uploadCategories ∧ IsContentType params.contentType ∧
      (∀ ttl ∈ params.ttlSeconds, IsSafeInteger ttl) ∧
      ∀ size ∈ params.maxSizeBytes, ∃ k : Nat, size = .finite k ∧ 0 < k ∧ k ≤ 9007199254740991
  | signedMultipartUrls params => objectKeySchema.Accepts params.key ∧ IsContentType params.contentType ∧
      (∃ k : Nat, params.partCount = .finite k ∧ 1 ≤ k ∧ k ≤ 1000) ∧ ∀ ttl ∈ params.ttlSeconds, IsSafeInteger ttl
  | copyObject params => objectKeySchema.Accepts params.sourceKey ∧ objectKeySchema.Accepts params.destinationKey

def Accepted (receive : JsString → JsString) (mutation : Mutation) : Prop :=
  ∃ parsed, ZodValidationPipe.transform mutation.schema (some (mutation.body receive)) = .ok parsed

/-- The hooks that send every field their route requires; a copy, where it is told one of the
two destinations. -/
def Mutation.Complete : Mutation → Prop
  | multipartUpload _ => False
  | signedMultipartUrls _ => False
  | copyObject params => params.destination = some (js "same") ∨ params.destination = some (js "archive")
  | _ => True

theorem accepted_iff (receive : JsString → JsString) (mutation : Mutation) :
    Accepted receive mutation ↔ mutation.schema.Accepts (some (mutation.body receive)) := by
  constructor
  · rintro ⟨parsed, h⟩
    exact ((transform_ok_iff _ _ _).mp h).1
  · intro h
    exact ⟨_, (transform_ok_iff _ _ _).mpr ⟨h, rfl⟩⟩

theorem printable_of_mem_uploadCategories {category : JsString} (h : category ∈ uploadCategories) :
    category.all isPrintableAscii = true := by
  have hall : ∀ category ∈ uploadCategories, category.all isPrintableAscii = true := by decide
  exact hall category h

theorem SseValue.text_printable (value : SseValue) : value.text.all isPrintableAscii = true := by
  cases value <;> decide

theorem category_accepts {category : JsString} (h : category ∈ uploadCategories) :
    (Schema.leaf (enumLeaf uploadCategories)).Accepts (some (.string category)) :=
  (accepts_leaf_iff _ _).mpr ((memberLeaf_issues_eq_nil_iff _ _ _).mpr ⟨category, h, rfl⟩)

theorem category_refuses_none : ¬ (Schema.leaf (enumLeaf uploadCategories)).Accepts none := by
  rw [accepts_leaf_iff, enumLeaf, memberLeaf_issues_eq_nil_iff]
  rintro ⟨s, -, h⟩
  cases h

/-- The category is all that the shape of an upload requires. -/
theorem singleUploadShape_accepts {entries : List (JsString × Json)} {category : JsString}
    (hcategory : Json.lookup (js "category") entries = some (.string category)) (hmem : category ∈ uploadCategories)
    (hcacheControl : Json.lookup (js "cacheControl") entries = none)
    (hcontentDisposition : Json.lookup (js "contentDisposition") entries = none)
    (hmetadata : Json.lookup (js "metadata") entries = none) : singleUploadShape.Accepts entries := by
  rw [singleUploadShape, Shape.accepts_field_iff, Shape.accepts_field_iff, Shape.accepts_field_iff,
    Shape.accepts_field_iff, hcategory, hcacheControl, hcontentDisposition, hmetadata]
  exact ⟨category_accepts hmem, rfl, rfl, rfl, Shape.accepts_nil _⟩

theorem contentType_accepts {contentType : JsString} (h : IsContentType contentType) :
    (Schema.leaf (stringLeaf contentTypeSchema)).Accepts (some (.string contentType)) := by
  obtain ⟨type, subtype, rfl, htype, hsubtype, hslash, hslash', hlength, hprintable⟩ := h
  apply (accepts_leaf_iff _ _).mpr
  apply (stringLeaf_issues_eq_nil_iff _ _).mpr
  refine ⟨_, rfl, ?_⟩
  have hne : type ++ slash :: subtype ≠ [] := List.append_ne_nil_of_left_ne_nil htype _
  have hsplit : splitSlash (type ++ slash :: subtype) = [type, subtype] := by
    rw [splitSlash_append_slash hslash, splitSlash_of_not_mem hslash']
  have htwo : isTypeSubtype (fun _ => true) (type ++ slash :: subtype) = true := by
    simp [isTypeSubtype, hsplit, htype, hsubtype]
  have hascii : (type ++ slash :: subtype).all isPrintableAscii = true := List.all_eq_true.mpr hprintable
  have hpos : 1 ≤ (type ++ slash :: subtype).length := List.length_pos_of_ne_nil hne
  intro check hcheck
  simp only [contentTypeSchema, List.mem_cons, List.not_mem_nil, or_false] at hcheck
  rcases hcheck with rfl | rfl | rfl | rfl
  · exact decide_eq_true hpos
  · exact decide_eq_true hlength
  · simp only [printableAscii, pattern, hascii, Bool.and_true, Bool.not_eq_true', List.isEmpty_eq_false_iff]
    exact hne
  · exact htwo

theorem ttlSeconds_accepts {ttlSeconds : Option JsNumber} (h : ∀ ttl ∈ ttlSeconds, IsSafeInteger ttl) :
    (Schema.optional (.leaf ttlSecondsLeaf)).Accepts (ttlSeconds.map jsonNumber) := by
  apply (accepts_optional_iff _ _).mpr
  cases ttlSeconds with
  | none => exact Or.inl rfl
  | some ttl =>
    right
    obtain ⟨k, rfl, hle, hge⟩ := h ttl rfl
    apply (accepts_leaf_iff _ _).mpr
    apply (numberLeaf_issues_eq_nil_iff _ _).mpr
    exact ⟨k, rfl, (integer_issues_eq_nil_iff _).mpr ⟨k, rfl, hle, hge⟩⟩

theorem maxSizeBytes_accepts {maxSizeBytes : Option JsNumber}
    (h : ∀ size ∈ maxSizeBytes, ∃ k : Nat, size = .finite k ∧ 0 < k ∧ k ≤ 9007199254740991) :
    (Schema.optional (.leaf (numberLeaf (integer ++ [positiveNumber])))).Accepts (maxSizeBytes.map jsonNumber) := by
  apply (accepts_optional_iff _ _).mpr
  cases maxSizeBytes with
  | none => exact Or.inl rfl
  | some size =>
    right
    obtain ⟨k, rfl, hpos, hle⟩ := h size rfl
    apply (accepts_leaf_iff _ _).mpr
    apply (numberLeaf_issues_eq_nil_iff _ _).mpr
    refine ⟨k, rfl, ?_⟩
    rw [numberIssues_eq_nil_iff, List.forall_mem_append, ← numberIssues_eq_nil_iff, integer_issues_eq_nil_iff]
    refine ⟨⟨k, by norm_cast, by omega, by omega⟩, ?_⟩
    intro check hcheck
    rw [List.mem_singleton.mp hcheck]
    exact decide_eq_true (by exact_mod_cast hpos)

theorem key_accepts {key : JsString} (h : objectKeySchema.Accepts key) :
    (Schema.leaf (stringLeaf objectKeySchema)).Accepts (some (.string key)) :=
  (accepts_leaf_iff _ _).mpr ((stringLeaf_issues_eq_nil_iff _ _).mpr ⟨key, rfl, h⟩)

section Forms
variable {receive : JsString → JsString}
  (hreceive : ∀ s : JsString, s.all isPrintableAscii = true → receive s = s)
include hreceive

theorem singleUpload_accepted {params : SingleUploadParams} (h : params.category ∈ uploadCategories) :
    singleUploadBodySchema.Accepts (some (formBody receive params.form)) := by
  apply (accepts_object_iff _ _).mpr
  refine ⟨_, rfl, singleUploadShape_accepts ?_ h ?_ ?_ ?_⟩
  · conv_rhs => rw [← hreceive params.category (printable_of_mem_uploadCategories h)]
    rfl
  all_goals
    rw [SingleUploadParams.form]
    cases params.contentType.filter (· ≠ []) <;> rfl

theorem sseOverrideUpload_accepted {params : SseUploadParams} (h : params.category ∈ uploadCategories) :
    sseOverrideBodySchema.Accepts (some (formBody receive params.form)) := by
  apply (accepts_object_iff _ _).mpr
  refine ⟨_, rfl, ?_⟩
  apply (Shape.accepts_extend_iff _ _ _).mpr
  constructor
  · refine singleUploadShape_accepts ?_ h rfl rfl rfl
    conv_rhs => rw [← hreceive params.category (printable_of_mem_uploadCategories h)]
    rfl
  · apply (Shape.accepts_field_iff _ _ _ _).mpr
    refine ⟨(accepts_leaf_iff _ _).mpr ((memberLeaf_issues_eq_nil_iff _ _ _).mpr ?_), Shape.accepts_nil _⟩
    refine ⟨params.serverSideEncryption.text, by cases params.serverSideEncryption <;> decide, ?_⟩
    conv_rhs => rw [← hreceive _ params.serverSideEncryption.text_printable]
    rfl

end Forms

/-- A form with the file alone lacks the category. -/
theorem multipartUpload_refused (receive : JsString → JsString) (file : File) :
    ¬ multipartUploadBodySchema.Accepts (some (formBody receive (multipartUploadForm file))) := by
  intro h
  obtain ⟨entries, ⟨rfl⟩, hshape⟩ := (accepts_object_iff _ _).mp h
  exact category_refuses_none ((Shape.accepts_field_iff _ _ _ _).mp hshape).1

theorem UploadUrlParams.lookups (params : UploadUrlParams) : ∃ entries, params.toJson = .object entries ∧
    Json.lookup (js "category") entries = some (.string params.category) ∧
    Json.lookup (js "contentType") entries = some (.string params.contentType) ∧
    Json.lookup (js "maxSizeBytes") entries = params.maxSizeBytes.map jsonNumber ∧
    Json.lookup (js "ttlSeconds") entries = params.ttlSeconds.map jsonNumber := by
  obtain ⟨category, contentType, _ | ttlSeconds, _ | maxSizeBytes⟩ := params <;> exact ⟨_, rfl, rfl, rfl, rfl, rfl⟩

theorem signedUploadUrl_accepted {params : UploadUrlParams} (h : (Mutation.signedUploadUrl params).WithinBounds) :
    uploadUrlBodySchema.Accepts (some params.toJson) := by
  obtain ⟨hcategory, hcontentType, httl, hsize⟩ := h
  obtain ⟨entries, hjson, hc, ht, hm, hs⟩ := params.lookups
  apply (accepts_object_iff _ _).mpr
  refine ⟨entries, by rw [hjson], ?_⟩
  rw [Shape.accepts_field_iff, Shape.accepts_field_iff, Shape.accepts_field_iff, Shape.accepts_field_iff, hc, ht, hm, hs]
  exact ⟨category_accepts hcategory, contentType_accepts hcontentType, maxSizeBytes_accepts hsize,
    ttlSeconds_accepts httl, Shape.accepts_nil _⟩

/-- The route asks for a category, and the hook sends a key. -/
theorem signedMultipartUrls_refused (params : MultipartUrlsParams) :
    ¬ multipartUrlsBodySchema.Accepts (some params.toJson) := by
  intro h
  obtain ⟨entries, hentries, hshape⟩ := (accepts_object_iff _ _).mp h
  have hnone : Json.lookup (js "category") entries = none := by
    obtain ⟨key, contentType, partCount, _ | ttlSeconds⟩ := params <;> cases hentries <;> rfl
  have hcategory := ((Shape.accepts_field_iff _ _ _ _).mp hshape).1
  rw [hnone] at hcategory
  exact category_refuses_none hcategory

theorem CopyParams.lookups (params : CopyParams) : ∃ entries, params.toJson = .object entries ∧
    Json.lookup (js "sourceKey") entries = some (.string params.sourceKey) ∧
    Json.lookup (js "destinationKey") entries = some (.string params.destinationKey) ∧
    Json.lookup (js "destination") entries = params.destination.map Json.string ∧
    Json.lookup (js "deleteSource") entries = params.deleteSource.map Json.bool := by
  obtain ⟨sourceKey, destinationKey, _ | destination, _ | deleteSource⟩ := params <;>
    exact ⟨_, rfl, rfl, rfl, rfl, rfl⟩

theorem copyObject_accepted_iff {params : CopyParams} (h : (Mutation.copyObject params).WithinBounds) :
    copyBodySchema.Accepts (some params.toJson) ↔ (Mutation.copyObject params).Complete := by
  obtain ⟨entries, hjson, hsource, hkey, hdestination, hdelete⟩ := params.lookups
  have hflag : (Schema.optional (.leaf booleanLeaf)).Accepts (params.deleteSource.map Json.bool) := by
    apply (accepts_optional_iff _ _).mpr
    cases params.deleteSource with
    | none => exact Or.inl rfl
    | some b => exact Or.inr ((accepts_leaf_iff _ _).mpr ((booleanLeaf_issues_eq_nil_iff _).mpr ⟨b, rfl⟩))
  have hshape : copyBodySchema.Accepts (some params.toJson) ↔
      (Schema.leaf (enumLeaf [js "same", js "archive"])).Accepts (params.destination.map Json.string) := by
    rw [copyBodySchema, accepts_object_iff, hjson]
    constructor
    · rintro ⟨_, ⟨rfl⟩, hall⟩
      rw [Shape.accepts_field_iff, Shape.accepts_field_iff, Shape.accepts_field_iff, hdestination] at hall
      exact hall.2.2.1
    · intro hmember
      refine ⟨entries, rfl, ?_⟩
      rw [Shape.accepts_field_iff, Shape.accepts_field_iff, Shape.accepts_field_iff, Shape.accepts_field_iff,
        hsource, hkey, hdestination, hdelete]
      exact ⟨key_accepts h.1, key_accepts h.2, hmember, hflag, Shape.accepts_nil _⟩
  rw [hshape, accepts_leaf_iff, enumLeaf, memberLeaf_issues_eq_nil_iff]
  cases hd : params.destination with
  | none => simp [Mutation.Complete, hd]
  | some destination => simp [Mutation.Complete, hd]

/-- Within the bounds of its route a request is accepted exactly when it is complete. -/
theorem requests_accepted_iff (receive : JsString → JsString)
    (hreceive : ∀ s : JsString, s.all isPrintableAscii = true → receive s = s) (mutation : Mutation)
    (h : mutation.WithinBounds) : Accepted receive mutation ↔ mutation.Complete := by
  rw [accepted_iff]
  cases mutation with
  | singleUpload params => exact iff_of_true (singleUpload_accepted hreceive h) trivial
  | multipartUpload file => exact iff_of_false (multipartUpload_refused receive file) id
  | sseOverrideUpload params => exact iff_of_true (sseOverrideUpload_accepted hreceive h) trivial
  | signedUploadUrl params => exact iff_of_true (signedUploadUrl_accepted h) trivial
  | signedMultipartUrls params => exact iff_of_false (signedMultipartUrls_refused params) id
  | copyObject params => exact copyObject_accepted_iff h

def sampleFile : File := ⟨0, js "a.mp4", js "video/mp4", 9⟩

theorem sample_upload_accepted : Accepted id (.singleUpload ⟨sampleFile, js "media", none⟩) :=
  (requests_accepted_iff id (fun _ _ => rfl) (.singleUpload ⟨sampleFile, js "media", none⟩)
    (by decide : js "media" ∈ uploadCategories)).mpr trivial

/-- A file of nine bytes, a three-part upload to `media/a.mp4` and a copy with no destination
named are within the bounds, and the routes answer with the fields they miss. -/
theorem incomplete_requests_refused :
    (Mutation.multipartUpload sampleFile).WithinBounds ∧
    ZodValidationPipe.transform multipartUploadBodySchema
      (some ((Mutation.multipartUpload sampleFile).body id)) = .error ⟨"VALIDATION", [⟨js "category",
        "Invalid option: expected one of \"avatars\"|\"invoices\"|\"attachments\"|\"media\""⟩]⟩ ∧
    (Mutation.signedMultipartUrls ⟨js "media/a.mp4", js "video/mp4", .finite 3, none⟩).WithinBounds ∧
    ZodValidationPipe.transform multipartUrlsBodySchema
      (some ((Mutation.signedMultipartUrls ⟨js "media/a.mp4", js "video/mp4", .finite 3, none⟩).body id)) =
      .error ⟨"VALIDATION", [⟨js "category",
        "Invalid option: expected one of \"avatars\"|\"invoices\"|\"attachments\"|\"media\""⟩,
        ⟨js "parts", "Invalid input: expected number, received undefined"⟩]⟩ ∧
    (Mutation.copyObject ⟨js "media/a.mp4", js "media/b.mp4", none, none⟩).WithinBounds ∧
    ZodValidationPipe.transform copyBodySchema
      (some ((Mutation.copyObject ⟨js "media/a.mp4", js "media/b.mp4", none, none⟩).body id)) =
      .error ⟨"VALIDATION", [⟨js "destination", "Invalid option: expected one of \"same\"|\"archive\""⟩]⟩ := by
  have hsource : objectKeySchema.Accepts (js "media/a.mp4") := by decide
  have hdestination : objectKeySchema.Accepts (js "media/b.mp4") := by decide
  refine ⟨trivial, rfl, ⟨hsource, ?_, ⟨3, rfl, by decide, by decide⟩, by simp⟩, rfl, ⟨hsource, hdestination⟩, rfl⟩
  exact ⟨js "video", js "mp4", rfl, by decide, by decide, by decide, by decide, by decide,
    List.all_eq_true.mp (by decide)⟩

end NestStorageExample.Web
