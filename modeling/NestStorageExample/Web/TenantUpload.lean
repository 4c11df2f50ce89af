import NestStorageExample.Web.TextTruncation

/-! The tenant upload from the dropped file to the stored key: the body that the hook
posts, what the schema parses it to, and the key that the service composes. -/
namespace NestStorageExample.Web
open Text Effects Storage Validation Api

/-- A dropped file as the hook reads it: its name, and what `file.text()` resolves to. -/
structure TextFile where
  name : JsString
  text : JsString

/-- `/^[a-z0-9]{1,8}$/.test(extension)` -/
def isExtension (extension : JsString) : Bool := decide (extensionSchema.Accepts extension)

section Hook
variable (toLowerCase : JsString → JsString)

def deriveExtension (fileName : JsString) : JsString :=
  match lastIndexOf dot fileName with
  | none => js "txt"
  | some dotIndex =>
    let ext := toLowerCase (fileName.drop (dotIndex + 1))
    if isExtension ext then ext else js "txt"

/-- The `content` that `useTenantUpload` posts. -/
def tenantUploadContent (file : TextFile) : JsString :=
  let text := truncateToByteLength file.text maxTextUploadBytes
  if text.length > 0 then text else js "demo upload " ++ file.name

def tenantUploadRequest (file : TextFile) : Json :=
  .object [(js "category", .string (js "files")), (js "content", .string (tenantUploadContent file)),
    (js "extension", .string (deriveExtension toLowerCase file.name))]

end Hook

/-- A parsed body as the pipe hands it on. -/
def parsedTenantUpload (body : TenantUploadBody) : Json :=
  .object ([(js "category", .string body.category.text), (js "content", .string body.content)] ++
    body.extension.toList.map (fun extension => (js "extension", .string extension.text)))

/-- A tenant's key that the rest of the API can address. -/
structure AddressableTenantKey (key : JsString) : Prop where
  segments : ∃ tenant category file, splitSlash key = [tenant, category, file] ∧ file.count dot = 1
  accepted : objectKeySchema.Accepts key

theorem deriveExtension_accepted (toLowerCase : JsString → JsString) (fileName : JsString) :
    extensionSchema.Accepts (deriveExtension toLowerCase fileName) := by
  have hfallback : extensionSchema.Accepts (js "txt") := by decide
  unfold deriveExtension
  split
  · exact hfallback
  · dsimp only
    split
    · rename_i hext
      exact of_decide_eq_true hext
    · exact hfallback

/-- Neither what is left of the text nor the sentence in its place is empty or too long. -/
theorem tenantUploadContent_accepted {file : TextFile} (htext : WellFormed file.text)
    (hname : file.name.length ≤ 255) : tenantContentSchema.Accepts (tenantUploadContent file) := by
  apply (accepts_content_iff _).mpr
  unfold tenantUploadContent
  dsimp only
  split
  · rename_i hpos
    exact ⟨List.ne_nil_of_length_pos hpos, truncateToByteLength_length_le htext maxTextUploadBytes⟩
  · have hsentence : (js "demo upload ").length = 12 := by decide
    refine ⟨List.append_ne_nil_of_left_ne_nil (by decide) _, ?_⟩
    rw [List.length_append, hsentence]
    omega

/-- The body that the service is given for a file. -/
def tenantUploadBody (toLowerCase : JsString → JsString) (file : TextFile) (htext : WellFormed file.text)
    (hname : file.name.length ≤ 255) : TenantUploadBody where
  category := ⟨js "files", by decide⟩
  content := tenantUploadContent file
  extension := some ⟨deriveExtension toLowerCase file.name, deriveExtension_accepted toLowerCase file.name⟩
  content_accepted := tenantUploadContent_accepted htext hname

theorem tenantUploadRequest_parsed (toLowerCase : JsString → JsString) (file : TextFile)
    (htext : WellFormed file.text) (hname : file.name.length ≤ 255) :
    ZodValidationPipe.transform tenantUploadBodySchema (some (tenantUploadRequest toLowerCase file)) =
      .ok (some (parsedTenantUpload (tenantUploadBody toLowerCase file htext hname))) := by
  have hstring {schema : StringSchema} {s : JsString} (h : schema.Accepts s) :
      (stringLeaf schema (some (.string s))).issues = [] :=
    (stringLeaf_issues_eq_nil_iff _ _).mpr ⟨s, rfl, h⟩
  refine (transform_ok_iff _ _ _).mpr ⟨(accepts_object_iff _ _).mpr ⟨_, rfl, ?_⟩, rfl⟩
  rw [Shape.accepts_field_iff, Shape.accepts_field_iff, Shape.accepts_field_iff]
  refine ⟨rfl, (accepts_leaf_iff _ _).mpr (hstring (tenantUploadContent_accepted htext hname)), ?_, rfl⟩
  exact (accepts_optional_iff _ _).mpr (Or.inr ((accepts_leaf_iff _ _).mpr
    (hstring (deriveExtension_accepted toLowerCase file.name))))

theorem addressable_tenantKey (slug : TenantSlug) (category : TenantCategory) (extension : Option Extension)
    (uuid : Uuid) : AddressableTenantKey (tenantKey slug category extension uuid) where
  segments := ⟨_, _, _, splitSlash_tenantKey slug category extension uuid, tenantFile_dots extension uuid⟩
  accepted := tenantKey_accepted slug category extension uuid

/-- Whatever the file, the hook's body passes the schema as it was written, and the key that
the service stores it under can be addressed. -/
theorem tenant_upload_acceptable (toLowerCase : JsString → JsString) (file : TextFile)
    (htext : WellFormed file.text) (hname : file.name.length ≤ 255) :
    ∃ body : TenantUploadBody,
      body.content = tenantUploadContent file ∧
      body.extension.map Extension.text = some (deriveExtension toLowerCase file.name) ∧
      ZodValidationPipe.transform tenantUploadBodySchema (some (tenantUploadRequest toLowerCase file)) =
        .ok (some (parsedTenantUpload body)) ∧
      ∀ {W : Type} (provider : Provider W) keyPrefix slug uuid w, ∃ options,
        callsOf provider (fun storage => TenantsService.upload storage keyPrefix slug body uuid) w =
          [.upload options] ∧ AddressableTenantKey options.key := by
  refine ⟨_, rfl, rfl, tenantUploadRequest_parsed toLowerCase file htext hname, ?_⟩
  intro W provider keyPrefix slug uuid w
  obtain ⟨options, hcall, hkey⟩ := tenantUpload_call provider keyPrefix slug _ uuid w
  exact ⟨options, hcall, by rw [hkey]; exact addressable_tenantKey slug _ _ uuid⟩

/-! An empty file whose extension is no slug, and a log that is cut. -/

def emptyNotes : TextFile := ⟨js "notes.résumé", []⟩

def longLog : TextFile := ⟨js "long.log", List.replicate 70000 0x61⟩

theorem longLog_ascii : IsAscii longLog.text := by
  intro u hu
  rw [List.eq_of_mem_replicate hu]
  decide

theorem longLog_content : tenantUploadContent longLog = List.replicate 65536 0x61 := by
  have hcut : truncateToByteLength longLog.text maxTextUploadBytes = List.replicate 65536 0x61 := by
    rw [truncateToByteLength_ascii longLog_ascii, longLog, List.take_replicate]
    rfl
  rw [tenantUploadContent, hcut, if_pos (by rw [List.length_replicate]; decide)]

theorem empty_and_long_file_acceptable :
    (∃ body : TenantUploadBody, body.content = js "demo upload notes.résumé" ∧
      body.extension.map Extension.text = some (js "txt") ∧
      ZodValidationPipe.transform tenantUploadBodySchema (some (tenantUploadRequest id emptyNotes)) =
        .ok (some (parsedTenantUpload body))) ∧
    ∃ body : TenantUploadBody, body.content = List.replicate 65536 0x61 ∧
      body.extension.map Extension.text = some (js "log") ∧
      ZodValidationPipe.transform tenantUploadBodySchema (some (tenantUploadRequest id longLog)) =
        .ok (some (parsedTenantUpload body)) := by
  obtain ⟨empty, hcontent, hextension, hparsed, -⟩ := tenant_upload_acceptable id emptyNotes (by decide) (by decide)
  obtain ⟨long, hcut, hlog, hlong, -⟩ :=
    tenant_upload_acceptable id longLog longLog_ascii.wellFormed (by decide)
  refine ⟨⟨empty, hcontent.trans (by decide), hextension.trans (by decide), hparsed⟩, long, ?_, ?_, hlong⟩
  · rw [hcut, longLog_content]
  · exact hlog.trans (by decide)

end NestStorageExample.Web
