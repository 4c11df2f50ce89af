import NestStorageExample.Api.Operations
import NestStorageExample.Api.RequestAcceptance
import NestStorageExample.Text.TextCodec

/-! The limit on a text body: the dashboard keeps to 65536 bytes, the schemas to 65536 code
units, and the services send what the schemas let through. -/
namespace NestStorageExample.Web
open Text Effects Storage Validation Api

def maxTextUploadBytes : Nat := 65536

def truncateToByteLength (input : JsString) (maxBytes : Nat) : JsString :=
  let result := encodeInto input maxBytes
  if result.read = input.length then input else decodeText result.written

/-- Whether some body with this `content` passes the schema. -/
def ContentAccepted (schema : Schema) (content : JsString) : Prop :=
  ∃ entries, Json.lookup (js "content") entries = some (.string content) ∧ schema.Accepts (some (.object entries))

/-- One limit on both sides of the wire for a text `s`. -/
structure OneTextLimit (s : JsString) : Prop where
  idempotent : ContentAccepted idempotentUploadBodySchema s ↔ s ≠ [] ∧ byteLength s ≤ 65536
  tenant : ContentAccepted tenantUploadBodySchema s ↔ s ≠ [] ∧ byteLength s ≤ 65536
  unchanged : (s ≠ [] ∧ truncateToByteLength s maxTextUploadBytes = s) ↔ s ≠ [] ∧ byteLength s ≤ 65536
  idempotentBuffer : ∀ {W : Type} (provider : Provider W) sha256 body w options, body.content = s →
    ContentAccepted idempotentUploadBodySchema s →
    Call.upload options ∈ callsOf provider (fun storage => UploadsService.uploadIdempotent storage sha256 body) w →
    options.body.bytes.length ≤ 65536
  tenantBuffer : ∀ {W : Type} (provider : Provider W) keyPrefix slug body uuid w options, body.content = s →
    Call.upload options ∈ callsOf provider (fun storage => TenantsService.upload storage keyPrefix slug body uuid) w →
    options.body.bytes.length ≤ 65536

/-- Everything is read exactly when it fits. -/
theorem read_eq_length_iff (s : JsString) (room : Nat) : (encodeInto s room).read = s.length ↔ byteLength s ≤ room := by
  change _ ↔ ((codePoints s).flatMap encodedBytes).length ≤ room
  rw [← fitting_eq_self_iff]
  have hlength := congrArg List.length (utf16_codePoints s)
  constructor
  · intro hread
    obtain ⟨left, hleft⟩ := fitting_isPrefix room (codePoints s)
    rw [← hleft, List.flatMap_append, List.length_append] at hlength
    have hnone : (left.flatMap utf16).length = 0 := by
      have : ((fitting room (codePoints s)).flatMap utf16).length = s.length := hread
      omega
    cases left with
    | nil => rwa [List.append_nil] at hleft
    | cons cp rest =>
      have hcp := utf16_length_pos cp
      rw [List.flatMap_cons, List.length_append] at hnone
      omega
  · intro hself
    rw [encodeInto, hself]
    exact hlength

theorem read_le_length (s : JsString) (room : Nat) : (encodeInto s room).read ≤ s.length := by
  obtain ⟨left, hleft⟩ := fitting_isPrefix room (codePoints s)
  have hlength := congrArg List.length (utf16_codePoints s)
  rw [← hleft, List.flatMap_append, List.length_append] at hlength
  change ((fitting room (codePoints s)).flatMap utf16).length ≤ s.length
  omega

/-- What comes back of the bytes that fit is no longer than what was read. -/
theorem decodeText_written_length_le {s : JsString} (h : WellFormed s) (room : Nat) :
    (decodeText (encodeInto s room).written).length ≤ (encodeInto s room).read :=
  decodeText_length_le (fun cp hcp => h.scalar cp ((fitting_isPrefix room (codePoints s)).subset hcp))

/-- A text is left alone exactly when its encoding fits. -/
theorem truncateToByteLength_eq_self_iff {s : JsString} (h : WellFormed s) (maxBytes : Nat) :
    truncateToByteLength s maxBytes = s ↔ byteLength s ≤ maxBytes := by
  rw [← read_eq_length_iff]
  unfold truncateToByteLength
  dsimp only
  split
  · rename_i hread
    exact iff_of_true rfl hread
  · rename_i hread
    refine iff_of_false (fun heq => hread ?_) hread
    have hle := decodeText_written_length_le h maxBytes
    rw [heq] at hle
    exact Nat.le_antisymm (read_le_length s maxBytes) hle

theorem truncateToByteLength_length_le {s : JsString} (h : WellFormed s) (maxBytes : Nat) :
    (truncateToByteLength s maxBytes).length ≤ maxBytes := by
  unfold truncateToByteLength
  dsimp only
  split
  · rename_i hread
    exact (length_le_byteLength s).trans ((read_eq_length_iff s maxBytes).mp hread)
  · exact (decodeText_written_length_le h maxBytes).trans
      ((flatMap_utf16_length_le _).trans (fitting_length_le maxBytes (codePoints s)))

/-- Both schemas count code units. -/
theorem accepts_content_iff (content : JsString) :
    StringSchema.Accepts [minChars 1, maxChars 65536] content ↔ content ≠ [] ∧ content.length ≤ 65536 := by
  simp [StringSchema.Accepts, minChars, maxChars, minLength, maxLength, Nat.one_le_iff_ne_zero]

/-- In a body whose other fields pass, the content decides. -/
theorem contentAccepted_iff {other : JsString} {first : Schema} {rest : Shape} {s : JsString}
    {entries : List (JsString × Json)} (hcontent : Json.lookup (js "content") entries = some (.string s))
    (hfirst : first.Accepts (Json.lookup other entries)) (hrest : rest.Accepts entries) :
    ContentAccepted (.object (.field other first (.field (js "content")
      (.leaf (stringLeaf [minChars 1, maxChars 65536])) rest))) s ↔ s ≠ [] ∧ s.length ≤ 65536 := by
  rw [← accepts_content_iff]
  constructor
  · rintro ⟨body, hbody, haccepts⟩
    obtain ⟨_, ⟨rfl⟩, hfields⟩ := (accepts_object_iff _ _).mp haccepts
    rw [Shape.accepts_field_iff, Shape.accepts_field_iff, hbody, accepts_leaf_iff,
      stringLeaf_issues_eq_nil_iff] at hfields
    obtain ⟨-, ⟨_, ⟨rfl⟩, hs⟩, -⟩ := hfields
    exact hs
  · intro hs
    refine ⟨entries, hcontent, (accepts_object_iff _ _).mpr ⟨entries, rfl, ?_⟩⟩
    rw [Shape.accepts_field_iff, Shape.accepts_field_iff, hcontent]
    exact ⟨hfirst, (accepts_leaf_iff _ _).mpr ((stringLeaf_issues_eq_nil_iff _ _).mpr ⟨s, rfl, hs⟩), hrest⟩

theorem contentAccepted_idempotent_iff (s : JsString) :
    ContentAccepted idempotentUploadBodySchema s ↔ s ≠ [] ∧ s.length ≤ 65536 :=
  @contentAccepted_iff (js "idempotencyKey") _ _ s [(js "idempotencyKey", .string (js "k")),
    (js "content", .string s), (js "contentType", .string (js "text/plain"))] rfl rfl rfl

theorem contentAccepted_tenant_iff (s : JsString) :
    ContentAccepted tenantUploadBodySchema s ↔ s ≠ [] ∧ s.length ≤ 65536 :=
  @contentAccepted_iff (js "category") _ _ s [(js "category", .string (js "files")), (js "content", .string s)]
    rfl rfl rfl

theorem uploadIdempotent_calls {W : Type} (provider : Provider W) (sha256 : List Byte → HexDigest)
    (body : IdempotentUploadBody) (w : W) {options : UploadOptions}
    (h : Call.upload options ∈ callsOf provider (fun storage => UploadsService.uploadIdempotent storage sha256 body) w) :
    options.body = .buffer (encodeUtf8 body.content) := by
  rw [callsOf, UploadsService.uploadIdempotent, Async.bind_world _ (fun _ _ => rfl)] at h
  cases List.mem_singleton.mp h
  rfl

theorem tenantUpload_calls {W : Type} (provider : Provider W) (keyPrefix : JsString) (slug : TenantSlug)
    (body : TenantUploadBody) (uuid : Uuid) (w : W) {options : UploadOptions}
    (h : Call.upload options ∈
      callsOf provider (fun storage => TenantsService.upload storage keyPrefix slug body uuid) w) :
    options.body = .buffer (encodeUtf8 body.content) := by
  rw [callsOf, TenantsService.upload, Async.bind_world _ (fun _ _ => rfl)] at h
  cases List.mem_singleton.mp h
  rfl

/-- The two sides agree on exactly the texts whose bytes stay within the limit wherever
their code units do. -/
theorem one_text_limit_iff {s : JsString} (h : WellFormed s) :
    OneTextLimit s ↔ (s.length ≤ 65536 → byteLength s ≤ 65536) := by
  constructor
  · intro hlimit hlength
    by_cases hs : s = []
    · rw [hs]
      decide
    · exact (hlimit.idempotent.mp ((contentAccepted_idempotent_iff s).mpr ⟨hs, hlength⟩)).2
  · intro hbytes
    have hsame : s ≠ [] ∧ s.length ≤ 65536 ↔ s ≠ [] ∧ byteLength s ≤ 65536 :=
      and_congr_right' ⟨hbytes, (length_le_byteLength s).trans⟩
    refine ⟨(contentAccepted_idempotent_iff s).trans hsame, (contentAccepted_tenant_iff s).trans hsame,
      and_congr_right' (truncateToByteLength_eq_self_iff h _), ?_, ?_⟩
    · rintro W provider sha256 body w options rfl haccepted hcall
      rw [uploadIdempotent_calls provider sha256 body w hcall]
      exact hbytes ((contentAccepted_idempotent_iff _).mp haccepted).2
    · rintro W provider keyPrefix slug body uuid w options rfl hcall
      rw [tenantUpload_calls provider keyPrefix slug body uuid w hcall]
      exact hbytes ((accepts_content_iff _).mp body.content_accepted).2

theorem ascii_text_one_limit : OneTextLimit (js "hello") :=
  (one_text_limit_iff (by decide)).mpr (fun _ => by decide)

/-- Letters of two bytes each, within the code units a schema allows and over the bytes. -/
def accented : JsString := List.replicate 32769 0xE9

theorem codePoints_accented : codePoints accented = List.replicate 32769 0xE9 := by
  have hrun (n : Nat) : codePoints (List.replicate n 0xE9) = List.replicate n 0xE9 := by
    induction n with
    | zero => rfl
    | succ n ih => rw [List.replicate_succ, codePoints_cons_of_not_high (by decide), ih]; rfl
  exact hrun 32769

theorem byteLength_accented : byteLength accented = 65538 := by
  rw [byteLength, encodeUtf8, codePoints_accented, List.length_flatMap, List.map_replicate, List.sum_replicate]
  decide

/-- The server takes it, the dashboard would cut it, and the buffer is two bytes over. -/
theorem accented_text_two_limits : WellFormed accented ∧ ¬ OneTextLimit accented := by
  constructor
  · intro cp hcp
    rw [codePoints_accented] at hcp
    rw [List.eq_of_mem_replicate hcp]
    decide
  · intro hlimit
    have haccepted := (contentAccepted_idempotent_iff accented).mpr
      ⟨by rw [accented]; exact List.cons_ne_nil _ _, by rw [accented, List.length_replicate]; decide⟩
    have hbytes := (hlimit.idempotent.mp haccepted).2
    rw [byteLength_accented] at hbytes
    exact absurd hbytes (by decide)

end NestStorageExample.Web
