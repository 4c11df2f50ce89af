import NestStorageExample.Text.Segments
import NestStorageExample.Text.Utf8

/-! The string schemas of the request DTOs, and the values that have passed them.
Every schema is a list of checks; each failed check is one issue. -/
namespace NestStorageExample.Api
open Text

structure StringCheck where
  holds : JsString → Bool
  message : String

structure Issue where
  path : List String
  message : String
  deriving DecidableEq, Repr

abbrev StringSchema := List StringCheck

/-- The issues `safeParse` reports for a field at `path`. -/
def StringSchema.issues (schema : StringSchema) (path : List String) (value : JsString) : List Issue :=
  (schema.filter (fun check => !check.holds value)).map (fun check => ⟨path, check.message⟩)

def StringSchema.Accepts (schema : StringSchema) (value : JsString) : Prop :=
  ∀ check ∈ schema, check.holds value = true

instance (schema : StringSchema) (value : JsString) : Decidable (schema.Accepts value) :=
  List.decidableBAll _ _

/-- Every issue names the field it is about, and there is none exactly when the
value is accepted. -/
theorem StringSchema.issues_path {schema : StringSchema} {path : List String} {value : JsString} {issue : Issue}
    (h : issue ∈ schema.issues path value) : issue.path = path := by
  obtain ⟨check, -, rfl⟩ := List.mem_map.mp h
  rfl

theorem StringSchema.issues_eq_nil_iff (schema : StringSchema) (path : List String) (value : JsString) :
    schema.issues path value = [] ↔ schema.Accepts value := by
  simp [StringSchema.issues, StringSchema.Accepts, List.filter_eq_nil_iff]

/-- `.min(n)` -/
def minLength (n : Nat) (message : String) : StringCheck := ⟨fun s => n ≤ s.length, message⟩

/-- `.max(n)` -/
def maxLength (n : Nat) (message : String) : StringCheck := ⟨fun s => s.length ≤ n, message⟩

/-- `.regex(/^[…]{lower,upper}$/, message)` over one character class. -/
def boundedClass (unit : CodeUnit → Bool) (lower upper : Nat) (message : String) : StringCheck :=
  ⟨fun s => lower ≤ s.length && s.length ≤ upper && s.all unit, message⟩

/-- `[a-z0-9]` -/
def isLowerAlnum (c : CodeUnit) : Bool :=
  (0x61 ≤ c.toNat && c.toNat ≤ 0x7A) || (0x30 ≤ c.toNat && c.toNat ≤ 0x39)

/-- `[a-z0-9-]` -/
def isSlugUnit (c : CodeUnit) : Bool := isLowerAlnum c || c.toNat == 0x2D

/-- `[a-zA-Z0-9-]` -/
def isKeySeedUnit (c : CodeUnit) : Bool := isSlugUnit c || (0x41 ≤ c.toNat && c.toNat ≤ 0x5A)

def tenantSlugSchema : StringSchema :=
  [boundedClass isSlugUnit 2 32 "tenant must be 2-32 lowercase alphanumerics or dashes"]

/-- The `category` of the tenant bodies and queries. -/
def tenantCategorySchema : StringSchema :=
  [boundedClass isSlugUnit 1 32 "category must be 1-32 lowercase alphanumerics or dashes"]

def extensionSchema : StringSchema :=
  [boundedClass isLowerAlnum 1 8 "extension must be 1-8 lowercase alphanumerics"]

def keySeedSchema : StringSchema :=
  [minLength 1 "Too small: expected string to have >=1 characters",
    maxLength 64 "Too big: expected string to have <=64 characters",
    ⟨fun s => !s.isEmpty && s.all isKeySeedUnit, "keySeed must be alphanumeric or dash"⟩]

/-- The `filename` of `streamUploadQuerySchema`. -/
def filenameSchema : StringSchema := [maxLength 255 "Too big: expected string to have <=255 characters"]

/-- The `content` of the tenant upload body. -/
def tenantContentSchema : StringSchema :=
  [minLength 1 "Too small: expected string to have >=1 characters",
    maxLength 65536 "Too big: expected string to have <=65536 characters"]

def maxKeyBytes : Nat := 1024

def lastControlCode : Nat := 0x1F

def deleteCode : Nat := 0x7F

def isWithinKeyByteLimit (value : JsString) : Bool := byteLength value ≤ maxKeyBytes

def keyByteLimitMessage : String := "Value must not exceed 1024 UTF-8 bytes."

def isControlCode (c : CodeUnit) : Bool := c.toNat ≤ lastControlCode || c.toNat == deleteCode

def hasNoControlCharacters (key : JsString) : Bool := key.all (fun c => !isControlCode c)

def objectKeySchema : StringSchema :=
  [minLength 1 "Too small: expected string to have >=1 characters",
    ⟨isWithinKeyByteLimit, keyByteLimitMessage⟩,
    ⟨hasNoControlCharacters, "Key must not contain control characters."⟩]

theorem objectKeySchema_accepts_iff (key : JsString) : objectKeySchema.Accepts key ↔
    key ≠ [] ∧ byteLength key ≤ maxKeyBytes ∧ ∀ c ∈ key, isControlCode c = false := by
  simp [objectKeySchema, StringSchema.Accepts, minLength, isWithinKeyByteLimit, hasNoControlCharacters,
    Nat.one_le_iff_ne_zero]

/-- One letter over and over is a key up to the limit. -/
theorem replicate_accepted {n : Nat} (hpos : n ≠ 0) (hlimit : n ≤ maxKeyBytes) :
    objectKeySchema.Accepts (List.replicate n 0x61) := by
  rw [objectKeySchema_accepts_iff, byteLength_replicate (by decide)]
  refine ⟨by simpa using hpos, hlimit, fun c hc => ?_⟩
  rw [List.eq_of_mem_replicate hc]
  decide

/-- A tenant the route parameter has been parsed to. -/
structure TenantSlug where
  text : JsString
  accepted : tenantSlugSchema.Accepts text

structure TenantCategory where
  text : JsString
  accepted : tenantCategorySchema.Accepts text

structure Extension where
  text : JsString
  accepted : extensionSchema.Accepts text

structure KeySeed where
  text : JsString
  accepted : keySeedSchema.Accepts text

/-- `UPLOAD_CATEGORIES`; `SIGNED_UPLOAD_CATEGORIES` lists the same four. -/
inductive UploadCategory where
  | avatars
  | invoices
  | attachments
  | media
  deriving DecidableEq, Repr

def UploadCategory.text : UploadCategory → JsString
  | avatars => js "avatars"
  | invoices => js "invoices"
  | attachments => js "attachments"
  | media => js "media"

def isLowerHex (c : CodeUnit) : Bool :=
  (0x61 ≤ c.toNat && c.toNat ≤ 0x66) || (0x30 ≤ c.toNat && c.toNat ≤ 0x39)

/-- What `randomUUID()` writes at each position. -/
def isUuidUnit (position : Nat) (c : CodeUnit) : Bool :=
  if [8, 13, 18, 23].contains position then c.toNat == 0x2D
  else if position = 14 then c.toNat == 0x34
  else if position = 19 then [0x38, 0x39, 0x61, 0x62].contains c.toNat
  else isLowerHex c

def isUuid (s : JsString) : Bool := s.length == 36 && s.zipIdx.all (fun p => isUuidUnit p.2 p.1)

structure Uuid where
  text : JsString
  shape : isUuid text = true

/-- A SHA-256 digest in hexadecimal. -/
structure HexDigest where
  text : JsString
  shape : text.length = 64 ∧ text.all isLowerHex = true

theorem accepts_boundedClass_iff (unit : CodeUnit → Bool) (lower upper : Nat) (message : String) (s : JsString) :
    StringSchema.Accepts [boundedClass unit lower upper message] s ↔
      lower ≤ s.length ∧ s.length ≤ upper ∧ ∀ c ∈ s, unit c = true := by
  simp [StringSchema.Accepts, boundedClass, and_assoc]

/-- Letters, digits and dashes only: what every generated or pattern-checked key
segment is made of. -/
def PlainSegment (s : JsString) : Prop := ∀ c ∈ s, isKeySeedUnit c = true

instance (s : JsString) : Decidable (PlainSegment s) := List.decidableBAll _ _

theorem isSlugUnit_plain {c : CodeUnit} (h : isSlugUnit c = true) : isKeySeedUnit c = true := by
  rw [isKeySeedUnit, h, Bool.true_or]

theorem isLowerAlnum_plain {c : CodeUnit} (h : isLowerAlnum c = true) : isKeySeedUnit c = true :=
  isSlugUnit_plain (by rw [isSlugUnit, h, Bool.true_or])

theorem isLowerHex_plain {c : CodeUnit} (h : isLowerHex c = true) : isKeySeedUnit c = true := by
  apply isLowerAlnum_plain
  simp only [isLowerHex, isLowerAlnum, Bool.or_eq_true, Bool.and_eq_true, decide_eq_true_eq] at *
  omega

theorem isUuidUnit_plain {position : Nat} {c : CodeUnit} (h : isUuidUnit position c = true) :
    isKeySeedUnit c = true := by
  by_cases hx : isLowerHex c = true
  · exact isLowerHex_plain hx
  · simp only [isLowerHex, Bool.or_eq_true, Bool.and_eq_true, decide_eq_true_eq] at hx
    unfold isUuidUnit at h
    split_ifs at h <;>
      simp only [isLowerHex, isKeySeedUnit, isSlugUnit, isLowerAlnum, List.contains_eq_mem, List.mem_cons,
        List.not_mem_nil, or_false, Bool.or_eq_true, Bool.and_eq_true, decide_eq_true_eq, beq_iff_eq] at * <;>
      omega

theorem isKeySeedUnit_spec {c : CodeUnit} (h : isKeySeedUnit c = true) :
    0x2D ≤ c.toNat ∧ c.toNat < 0x7F ∧ c.toNat ≠ 0x2E ∧ c.toNat ≠ 0x2F := by
  simp only [isKeySeedUnit, isSlugUnit, isLowerAlnum, Bool.or_eq_true, Bool.and_eq_true, decide_eq_true_eq,
    beq_iff_eq] at h
  omega

theorem PlainSegment.not_slash {s : JsString} (h : PlainSegment s) : slash ∉ s :=
  fun hs => (isKeySeedUnit_spec (h _ hs)).2.2.2 rfl

theorem PlainSegment.isAscii {s : JsString} (h : PlainSegment s) : IsAscii s := by
  intro c hc
  have := isKeySeedUnit_spec (h c hc)
  omega

theorem PlainSegment.no_control {s : JsString} (h : PlainSegment s) : ∀ c ∈ s, isControlCode c = false := by
  intro c hc
  have := isKeySeedUnit_spec (h c hc)
  have h1 : ¬ c.toNat ≤ lastControlCode := by rw [lastControlCode]; omega
  have h2 : c.toNat ≠ deleteCode := by rw [deleteCode]; omega
  simp [isControlCode, h1, h2]

theorem TenantSlug.plain (t : TenantSlug) : PlainSegment t.text :=
  fun c hc => isSlugUnit_plain (((accepts_boundedClass_iff _ _ _ _ _).mp t.accepted).2.2 c hc)

theorem TenantCategory.plain (t : TenantCategory) : PlainSegment t.text :=
  fun c hc => isSlugUnit_plain (((accepts_boundedClass_iff _ _ _ _ _).mp t.accepted).2.2 c hc)

theorem Extension.plain (t : Extension) : PlainSegment t.text :=
  fun c hc => isLowerAlnum_plain (((accepts_boundedClass_iff _ _ _ _ _).mp t.accepted).2.2 c hc)

theorem KeySeed.plain (t : KeySeed) : PlainSegment t.text := by
  have h := t.accepted _ (List.mem_cons_of_mem _ (List.mem_cons_of_mem _ List.mem_cons_self))
  simp only [Bool.and_eq_true, List.all_eq_true] at h
  exact h.2

theorem UploadCategory.plain (category : UploadCategory) : PlainSegment category.text := by
  cases category <;> decide

theorem UploadCategory.length_le (category : UploadCategory) : category.text.length ≤ 14 := by
  cases category <;> decide

theorem Uuid.length (uuid : Uuid) : uuid.text.length = 36 := by
  have h := uuid.shape
  simp only [isUuid, Bool.and_eq_true, beq_iff_eq] at h
  exact h.1

theorem Uuid.units (uuid : Uuid) : ∀ c ∈ uuid.text, ∃ position, isUuidUnit position c = true := by
  intro c hc
  have h := uuid.shape
  simp only [isUuid, Bool.and_eq_true, List.all_eq_true] at h
  obtain ⟨i, hi, rfl⟩ := List.mem_iff_getElem.mp hc
  exact ⟨i, h.2 (uuid.text[i], i) (List.mem_zipIdx_iff_getElem?.mpr (by simp))⟩

theorem Uuid.plain (uuid : Uuid) : PlainSegment uuid.text := by
  intro c hc
  obtain ⟨position, hposition⟩ := uuid.units c hc
  exact isUuidUnit_plain hposition

theorem HexDigest.plain (digest : HexDigest) : PlainSegment digest.text :=
  fun c hc => isLowerHex_plain (List.all_eq_true.mp digest.shape.2 c hc)

end NestStorageExample.Api
