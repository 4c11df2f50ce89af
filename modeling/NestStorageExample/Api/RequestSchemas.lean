import NestStorageExample.Api.VaultListing
import NestStorageExample.Storage.ErrorCodes
import NestStorageExample.Validation.Schema

/-! The schemas of the request inputs, the pipe that parses an input through one of them, and
what of an input the body of a rejection shows. -/
namespace NestStorageExample.Api
open Text Storage Validation

/-! The kinds of checks of a single value. -/

def stringLeaf (schema : StringSchema) (value : Option Json) : LeafOutcome :=
  match value with
  | some (.string s) => ⟨value, (schema.issues [] s).map (fun issue => (issue.message, false))⟩
  | _ => typeError "string" value

structure NumberCheck where
  holds : Rat → Bool
  message : String
  aborts : Bool

/-- The issues of a number; after one that aborts nothing more is checked. -/
def numberIssues : List NumberCheck → Rat → List (String × Bool)
  | [], _ => []
  | check :: checks, x =>
    if check.holds x then numberIssues checks x
    else (check.message, check.aborts) :: if check.aborts then [] else numberIssues checks x

def numberOutcome (checks : List NumberCheck) : JsNumber → LeafOutcome
  | .finite x => ⟨some (.number (.finite x)), numberIssues checks x⟩
  | n => typeError "number" (some (.number n))

def numberLeaf (checks : List NumberCheck) (value : Option Json) : LeafOutcome :=
  match value with
  | some (.number n) => numberOutcome checks n
  | _ => typeError "number" value

/-- `z.coerce.number()` -/
def coercedLeaf (toNumber : Option Json → JsNumber) (checks : List NumberCheck) (value : Option Json) : LeafOutcome :=
  numberOutcome checks (toNumber value)

def booleanLeaf (value : Option Json) : LeafOutcome :=
  match value with
  | some (.bool _) => ⟨value, []⟩
  | _ => typeError "boolean" value

/-- A value out of a fixed list of strings. -/
def memberLeaf (values : List JsString) (message : String) (value : Option Json) : LeafOutcome :=
  match value with
  | some (.string s) => if s ∈ values then ⟨value, []⟩ else ⟨value, [(message, true)]⟩
  | _ => ⟨value, [(message, true)]⟩

def quoted (value : JsString) : String := "\"" ++ String.ofList (value.map (fun u => Char.ofNat u.toNat)) ++ "\""

def enumLeaf (values : List JsString) : Option Json → LeafOutcome :=
  memberLeaf values ("Invalid option: expected one of " ++ "|".intercalate (values.map quoted))

def literalLeaf (value : JsString) : Option Json → LeafOutcome :=
  memberLeaf [value] ("Invalid input: expected " ++ quoted value)

/-- A union of literals, whose issue names none of them. -/
def literalUnionLeaf (values : List JsString) : Option Json → LeafOutcome := memberLeaf values "Invalid input"

def minChars (n : Nat) : StringCheck :=
  minLength n ("Too small: expected string to have >=" ++ toString n ++ " characters")

def maxChars (n : Nat) : StringCheck :=
  maxLength n ("Too big: expected string to have <=" ++ toString n ++ " characters")

/-- `.regex` without a message of its own. -/
def pattern (source : String) (holds : JsString → Bool) : StringCheck :=
  ⟨holds, "Invalid string: must match pattern " ++ source⟩

def maxSafeInteger : Rat := 9007199254740991

def integer : List NumberCheck :=
  [⟨fun x => x.den = 1, "Invalid input: expected int, received number", true⟩,
    ⟨fun x => x ≤ maxSafeInteger, "Too big: expected int to be <=9007199254740991", false⟩,
    ⟨fun x => -maxSafeInteger ≤ x, "Too small: expected int to be >=-9007199254740991", false⟩]

def minNumber (n : Nat) : NumberCheck :=
  ⟨fun x => (n : Rat) ≤ x, "Too small: expected number to be >=" ++ toString n, false⟩

def maxNumber (n : Nat) : NumberCheck :=
  ⟨fun x => x ≤ (n : Rat), "Too big: expected number to be <=" ++ toString n, false⟩

def positiveNumber : NumberCheck := ⟨fun x => 0 < x, "Too small: expected number to be >0", false⟩

def isPrintableAscii (c : CodeUnit) : Bool := 0x20 ≤ c.toNat && c.toNat ≤ 0x7E

def printableAscii : StringCheck :=
  pattern "/^[\\x20-\\x7E]+$/" (fun s => !s.isEmpty && s.all isPrintableAscii)

/-- Two nonempty segments about the one slash. -/
def isTypeSubtype (unit : CodeUnit → Bool) (s : JsString) : Bool :=
  match splitSlash s with
  | [type, subtype] => !type.isEmpty && !subtype.isEmpty && type.all unit && subtype.all unit
  | _ => false

/-- `[a-zA-Z0-9!#$&\-^_.+]` -/
def isMimeUnit (c : CodeUnit) : Bool := isKeySeedUnit c || (js "!#$&^_.+").contains c

/-! The schemas, each under the name of its source. -/

def scannerUploadBodySchema : Schema := .object <|
  .field (js "content") (.leaf (stringLeaf [minChars 1, maxChars 8192])) <|
  .field (js "keySeed") (.optional (.leaf (stringLeaf keySeedSchema))) .nil

/-- `scannerExistsQuerySchema`, `downloadQuerySchema` and `confirmBodySchema` ask for one key. -/
def keyShape : Shape := .field (js "key") (.leaf (stringLeaf objectKeySchema)) .nil

def scannerExistsQuerySchema : Schema := .object keyShape

def confirmBodySchema : Schema := .object keyShape

def downloadQuerySchema : Schema := .object keyShape

def errorCodeParamSchema : Schema := .leaf (enumLeaf (ErrorCode.all.map ErrorCode.text))

def rangeQuerySchema (toNumber : Option Json → JsNumber) : Schema := .object <| keyShape.extend <|
  .field (js "start") (.leaf (coercedLeaf toNumber (integer ++ [minNumber 0]))) <|
  .field (js "end") (.leaf (coercedLeaf toNumber (integer ++ [minNumber 0]))) .nil

def versionQuerySchema : Schema := .object <| keyShape.extend <|
  .field (js "versionId") (.leaf (stringLeaf [minChars 1])) .nil

def listQuerySchema (toNumber : Option Json → JsNumber) : Schema := .object <|
  .field (js "prefix") (.optional (.leaf (stringLeaf listTextSchema))) <|
  .field (js "maxKeys") (.default (.number (.finite 50))
    (.leaf (coercedLeaf toNumber (integer ++ [minNumber 1, maxNumber 1000])))) <|
  .field (js "cursor") (.optional (.leaf (stringLeaf listTextSchema))) <|
  .field (js "delimiter") (.optional (.leaf (literalLeaf (js "/")))) .nil

def bulkDeleteBodySchema : Schema := .object <|
  .field (js "keys") (.array (.leaf (stringLeaf objectKeySchema))
    [⟨fun keys => 1 ≤ keys.length, "At least one key is required."⟩,
      ⟨fun keys => keys.length ≤ 1000, "Batches above 1000 keys must be split by the caller (S3 hard cap)."⟩]) .nil

def copyBodySchema : Schema := .object <|
  .field (js "sourceKey") (.leaf (stringLeaf objectKeySchema)) <|
  .field (js "destinationKey") (.leaf (stringLeaf objectKeySchema)) <|
  .field (js "destination") (.leaf (enumLeaf [js "same", js "archive"])) <|
  .field (js "deleteSource") (.optional (.leaf booleanLeaf)) .nil

def uploadCategories : List JsString := [js "avatars", js "invoices", js "attachments", js "media"]

def metadataNameSchema : StringSchema :=
  [minChars 1, maxChars 64,
    pattern "/^[a-zA-Z0-9_-]+$/" (fun s => !s.isEmpty && s.all (fun c => isKeySeedUnit c || c == 0x5F))]

def acceptsMetadataName (name : JsString) : Bool := decide (metadataNameSchema.Accepts name)

def metadataValue : Option Json → LeafOutcome := stringLeaf [maxChars 1024]

def metadataSchema : Schema := .record acceptsMetadataName metadataValue
  [⟨fun metadata => metadata.length ≤ 10, "metadata must have at most 10 entries"⟩]

def singleUploadShape : Shape :=
  .field (js "category") (.leaf (enumLeaf uploadCategories)) <|
  .field (js "cacheControl") (.optional (.leaf (stringLeaf [maxChars 256, printableAscii]))) <|
  .field (js "contentDisposition") (.optional (.leaf (stringLeaf [maxChars 512, printableAscii]))) <|
  .field (js "metadata") (.optional metadataSchema) .nil

def singleUploadBodySchema : Schema := .object singleUploadShape

def sseOverrideBodySchema : Schema := .object <| singleUploadShape.extend <|
  .field (js "serverSideEncryption") (.leaf (enumLeaf [js "AES256", js "aws:kms", js "NONE"])) .nil

def multipartUploadBodySchema : Schema := .object <|
  .field (js "category") (.leaf (enumLeaf uploadCategories)) .nil

def streamUploadQuerySchema : Schema := .object <|
  .field (js "category") (.leaf (enumLeaf uploadCategories)) <|
  .field (js "knownSize") (.transform
    (fun value => some (.bool (match value with
      | some (.string s) => s ≠ js "false"
      | _ => true)))
    (.optional (.leaf (literalUnionLeaf [js "true", js "false"])))) <|
  .field (js "filename") (.optional (.leaf (stringLeaf filenameSchema))) .nil

def idempotentUploadBodySchema : Schema := .object <|
  .field (js "idempotencyKey") (.leaf (stringLeaf [minChars 1, maxChars 256])) <|
  .field (js "content") (.leaf (stringLeaf [minChars 1, maxChars 65536])) <|
  .field (js "contentType") (.leaf (stringLeaf [minChars 1, maxChars 128,
    pattern "/^[a-zA-Z0-9!#$&\\-^_.+]+\\/[a-zA-Z0-9!#$&\\-^_.+]+$/" (isTypeSubtype isMimeUnit)])) .nil

def ttlSecondsLeaf : Option Json → LeafOutcome := numberLeaf integer

def headerOverrideSchema : StringSchema := [minChars 1, maxChars 512, printableAscii]

def contentTypeSchema : StringSchema :=
  [minChars 1, maxChars 255, printableAscii,
    ⟨isTypeSubtype (fun _ => true), "contentType must be a valid type/subtype"⟩]

def downloadUrlBodySchema : Schema := .object <|
  .field (js "key") (.leaf (stringLeaf objectKeySchema)) <|
  .field (js "ttlSeconds") (.optional (.leaf ttlSecondsLeaf)) <|
  .field (js "responseContentDisposition") (.optional (.leaf (stringLeaf headerOverrideSchema))) <|
  .field (js "responseContentType") (.optional (.leaf (stringLeaf headerOverrideSchema))) .nil

def uploadUrlBodySchema : Schema := .object <|
  .field (js "category") (.leaf (enumLeaf uploadCategories)) <|
  .field (js "contentType") (.leaf (stringLeaf contentTypeSchema)) <|
  .field (js "maxSizeBytes") (.optional (.leaf (numberLeaf (integer ++ [positiveNumber])))) <|
  .field (js "ttlSeconds") (.optional (.leaf ttlSecondsLeaf)) .nil

def multipartUrlsBodySchema : Schema := .object <|
  .field (js "category") (.leaf (enumLeaf uploadCategories)) <|
  .field (js "contentType") (.leaf (stringLeaf contentTypeSchema)) <|
  .field (js "parts") (.leaf (numberLeaf (integer ++ [minNumber 1, maxNumber 1000]))) <|
  .field (js "ttlSeconds") (.optional (.leaf ttlSecondsLeaf)) .nil

def multipartAbortBodySchema : Schema := .object <|
  .field (js "key") (.leaf (stringLeaf objectKeySchema)) <|
  .field (js "uploadId") (.leaf (stringLeaf [minChars 1, maxChars 1024, printableAscii])) .nil

/-- `tenantSlugSchema`, as the pipe takes it. -/
def tenantParamSchema : Schema := .leaf (stringLeaf tenantSlugSchema)

def tenantUploadBodySchema : Schema := .object <|
  .field (js "category") (.leaf (stringLeaf tenantCategorySchema)) <|
  .field (js "content") (.leaf (stringLeaf tenantContentSchema)) <|
  .field (js "extension") (.optional (.leaf (stringLeaf extensionSchema))) .nil

def tenantListQuerySchema (toNumber : Option Json → JsNumber) : Schema := .object <|
  .field (js "category") (.optional (.leaf (stringLeaf tenantCategorySchema))) <|
  .field (js "cursor") (.optional (.leaf (stringLeaf [minChars 1]))) <|
  .field (js "maxKeys") (.optional (.leaf (coercedLeaf toNumber (integer ++ [positiveNumber, maxNumber 1000])))) .nil

/-- The schemas with a record in them. -/
def metadataSchemas : List Schema := [singleUploadBodySchema, sseOverrideBodySchema]

def flatSchemas (toNumber : Option Json → JsNumber) : List Schema :=
  [scannerUploadBodySchema, scannerExistsQuerySchema, errorCodeParamSchema, downloadQuerySchema,
    rangeQuerySchema toNumber, versionQuerySchema, listQuerySchema toNumber, bulkDeleteBodySchema, copyBodySchema,
    multipartUploadBodySchema, streamUploadQuerySchema, idempotentUploadBodySchema, downloadUrlBodySchema,
    uploadUrlBodySchema, confirmBodySchema, multipartUrlsBodySchema, multipartAbortBodySchema, tenantParamSchema,
    tenantUploadBodySchema, tenantListQuerySchema toNumber]

/-- Every schema that a controller hands to `ZodValidationPipe`. -/
def requestSchemas (toNumber : Option Json → JsNumber) : List Schema := metadataSchemas ++ flatSchemas toNumber

structure ReportedIssue where
  path : JsString
  message : String
  deriving DecidableEq

/-- The body of the `BadRequestException`, `{ error: { code, issues } }`. -/
structure ValidationErrorBody where
  code : String
  issues : List ReportedIssue
  deriving DecidableEq

def validationErrorCode : String := "VALIDATION"

def ZodValidationPipe.transform (schema : Schema) (value : Option Json) : Except ValidationErrorBody (Option Json) :=
  let parsed := schema.run value
  if parsed.issues.isEmpty then .ok parsed.value
  else .error ⟨validationErrorCode, parsed.issues.map fun issue =>
    ⟨joinPath (issue.path.map Step.segment), issue.message⟩⟩

section Issues
variable {toNumber : Option Json → JsNumber} {schema : Schema}

theorem requestSchemas_distinct (h : schema ∈ requestSchemas toNumber) : schema.distinctFields = true := by
  have hall : (requestSchemas toNumber).all Schema.distinctFields = true := rfl
  exact List.all_eq_true.mp hall schema h

/-- What a rejection shows is its issues. -/
theorem transform_error {value : Option Json} {body : ValidationErrorBody}
    (h : ZodValidationPipe.transform schema value = .error body) :
    body = ⟨validationErrorCode, ((schema.run value).issues.map SchemaIssue.shown).map
      (fun shown => ⟨shown.1, shown.2⟩)⟩ := by
  unfold ZodValidationPipe.transform at h
  dsimp only at h
  split at h
  · cases h
  · rw [List.map_map]
    exact (Except.error.inj h).symm

theorem body_eq_iff {a b : Option Json} {bodyA bodyB : ValidationErrorBody}
    (ha : ZodValidationPipe.transform schema a = .error bodyA)
    (hb : ZodValidationPipe.transform schema b = .error bodyB) : bodyA = bodyB ↔
      (schema.run a).issues.map SchemaIssue.shown = (schema.run b).issues.map SchemaIssue.shown := by
  rw [transform_error ha, transform_error hb, ValidationErrorBody.mk.injEq, and_iff_right rfl]
  apply List.map_inj_right
  rintro ⟨path, message⟩ ⟨path', message'⟩ heq
  cases heq
  rfl

/-- The entries of the field `metadata`, where the input has such a record. -/
def metadataEntries (value : Option Json) : List (JsString × Json) :=
  match (asObject value).bind (fun fields => asObject (Json.lookup (js "metadata") fields)) with
  | some entries => recordEntries entries
  | none => []

theorem singleUploadShape_failingNames (fields : List (JsString × Json)) :
    singleUploadShape.failingNames fields =
      failingEntries acceptsMetadataName metadataValue (metadataEntries (some (.object fields))) := by
  have hmetadata : singleUploadShape.failingNames fields =
      (Schema.optional metadataSchema).failingNames (Json.lookup (js "metadata") fields) := by
    simp [singleUploadShape, Shape.failingNames, Schema.failingNames]
  have hentries : metadataEntries (some (.object fields)) =
      match asObject (Json.lookup (js "metadata") fields) with
      | some entries => recordEntries entries
      | none => [] := rfl
  rw [hmetadata, hentries, Schema.failingNames, metadataSchema, Schema.failingNames]
  cases Json.lookup (js "metadata") fields with
  | none => rfl
  | some metadata => cases asObject (some metadata) <;> rfl

/-- In the two schemas with metadata the failing entries are those of that field. -/
theorem metadata_failingNames (h : schema ∈ metadataSchemas) (value : Option Json) :
    schema.failingNames value = failingEntries acceptsMetadataName metadataValue (metadataEntries value) := by
  have hshape : ∃ more : Shape, more.recordFree = true ∧ schema = .object (singleUploadShape.extend more) := by
    rcases List.mem_cons.mp h with rfl | h
    · exact ⟨.nil, rfl, rfl⟩
    · rw [List.mem_singleton.mp h]
      exact ⟨_, rfl, rfl⟩
  obtain ⟨more, hfree, rfl⟩ := hshape
  rw [Schema.failingNames]
  cases hvalue : asObject value with
  | none =>
    rw [metadataEntries, hvalue]
    rfl
  | some fields =>
    dsimp only
    rw [Shape.failingNames_extend, more.failingNames_of_recordFree hfree, List.append_nil,
      singleUploadShape_failingNames, metadataEntries, metadataEntries, hvalue]
    rfl

/-- The other schemas have no record, and nothing of theirs fails by name. -/
theorem flat_failingNames (h : schema ∈ flatSchemas toNumber) (value : Option Json) :
    schema.failingNames value = [] := by
  have hall : (flatSchemas toNumber).all Schema.recordFree = true := rfl
  exact schema.failingNames_of_recordFree (List.all_eq_true.mp hall schema h) value

/-- A rejection reports declared fields and indices alone exactly when no metadata entry fails;
and two inputs that fail the same checks are answered alike exactly when their failing
entries have the same names. -/
theorem validation_errors_value_free_iff (h : schema ∈ requestSchemas toNumber) :
    (∀ value, (∀ issue ∈ (schema.run value).issues, schema.Declares (issue.path.map Step.segment)) ↔
      schema.failingNames value = []) ∧
    ∀ a b bodyA bodyB, ZodValidationPipe.transform schema a = .error bodyA →
      ZodValidationPipe.transform schema b = .error bodyB → schema.FailAlike a b →
        (bodyA = bodyB ↔ schema.failingNames a = schema.failingNames b) := by
  refine ⟨schema.issues_declared_iff (requestSchemas_distinct h), ?_⟩
  intro a b bodyA bodyB ha hb halike
  exact (body_eq_iff ha hb).trans (schema.shown_run_eq_iff halike)

/-- An upload with one metadata entry, under a name of the caller's choice. -/
def uploadNaming (name value : String) : Option Json :=
  some (.object [(js "category", .string (js "avatars")), (js "metadata", .object [(js name, .string (js value))])])

/-- A name with a space is turned away whatever its value is, in the same words for the same
name alone. -/
theorem refused_metadata_answered_alike : ∃ bodyA bodyB bodyC,
    ZodValidationPipe.transform singleUploadBodySchema (uploadNaming "my secret" "x") = .error bodyA ∧
    ZodValidationPipe.transform singleUploadBodySchema (uploadNaming "my secret" "y") = .error bodyB ∧
    ZodValidationPipe.transform singleUploadBodySchema (uploadNaming "other secret" "x") = .error bodyC ∧
    bodyA = bodyB ∧ bodyA ≠ bodyC := by
  have hmem : singleUploadBodySchema ∈ requestSchemas (fun _ => .nan) := by
    simp [requestSchemas, metadataSchemas]
  obtain ⟨-, halike⟩ := validation_errors_value_free_iff hmem
  refine ⟨_, _, _, rfl, rfl, rfl, ?_, fun heq => ?_⟩
  · exact (halike (uploadNaming "my secret" "x") (uploadNaming "my secret" "y") _ _ rfl rfl rfl).mpr rfl
  · have hnames := (halike (uploadNaming "my secret" "x") (uploadNaming "other secret" "x") _ _ rfl rfl rfl).mp heq
    exact absurd hnames (by decide)

/-- Two names with a space fail the same check, and each comes back in the path of its issue. -/
theorem metadata_name_echoed :
    singleUploadBodySchema.FailAlike (uploadNaming "my secret" "x") (uploadNaming "other secret" "x") ∧
    ZodValidationPipe.transform singleUploadBodySchema (uploadNaming "my secret" "x") =
      .error ⟨"VALIDATION", [⟨js "metadata.my secret", "Invalid key in record"⟩]⟩ ∧
    ZodValidationPipe.transform singleUploadBodySchema (uploadNaming "other secret" "x") =
      .error ⟨"VALIDATION", [⟨js "metadata.other secret", "Invalid key in record"⟩]⟩ ∧
    (⟨"VALIDATION", [⟨js "metadata.my secret", "Invalid key in record"⟩]⟩ : ValidationErrorBody) ≠
      ⟨"VALIDATION", [⟨js "metadata.other secret", "Invalid key in record"⟩]⟩ :=
  ⟨rfl, rfl, rfl, by decide⟩

end Issues

end NestStorageExample.Api
