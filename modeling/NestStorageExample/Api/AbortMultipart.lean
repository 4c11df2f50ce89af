import NestStorageExample.Api.ProviderKey

/-! Aborting a multipart upload through the raw client. The key is composed here and not
by the library, so everything an abort may touch is decided by `composeKey`. -/
namespace NestStorageExample.Api
open Text Effects Storage
variable {W : Type}

structure MultipartAbortBody where
  key : JsString
  uploadId : JsString

structure AbortMultipartUploadCommand where
  bucket : JsString
  key : JsString
  uploadId : JsString
  deriving DecidableEq

structure MultipartAbortResponse where
  aborted : Bool
  key : JsString
  uploadId : JsString
  note : String

/-- `S3Client.send`, for the one command this service sends. -/
abbrev SendAbort (W : Type) := AbortMultipartUploadCommand → Async Rejection W Unit

/-- `SignedService.abortMultipart`. -/
def abortMultipart (s3Client : Option (SendAbort W)) (bucket keyPrefix : JsString) (body : MultipartAbortBody) :
    Async Rejection W MultipartAbortResponse :=
  match s3Client with
  | none => throw (.storage ⟨.notConfigured, []⟩)
  | some send =>
    match composeKey keyPrefix body.key with
    | .error exception => throw (.storage exception)
    | .ok finalKey => do
      tryCatch (send ⟨bucket, finalKey, body.uploadId⟩) fun error =>
        match error with
        | .storage exception => throw (.storage exception)
        | .other _ => throw (.storage ⟨.providerError, [("op", js "abortMultipartUpload"), ("key", body.key)]⟩)
      pure { aborted := true
             key := body.key
             uploadId := body.uploadId
             note := "AbortMultipartUpload is idempotent per S3 semantics; no orphan parts remain for this uploadId." }

/-- The client with a note of every command it was given. -/
def SendAbort.recorded (send : SendAbort W) : SendAbort (W × List AbortMultipartUploadCommand) :=
  fun command s => ((send command s.1).1, ((send command s.1).2, s.2 ++ [command]))

/-- A provider key that needs no normalising and climbs nowhere. -/
structure CanonicalKey (key : JsString) : Prop where
  noRun : ¬ [slash, slash] <:+: key
  relative : key.head? ≠ some slash
  noDots : js ".." ∉ splitSlash key

/-- What `composeKey` turns away. -/
def ClimbsOut (rawKey : JsString) : Prop := rawKey.head? = some slash ∨ js ".." ∈ splitSlash rawKey

instance (rawKey : JsString) : Decidable (ClimbsOut rawKey) := inferInstanceAs (Decidable (_ ∨ _))

/-- `key` is `rest` in the namespace `trimmed`; an empty one has no slash in front of it. -/
def InNamespace (trimmed rest key : JsString) : Prop :=
  key = if trimmed = [] then rest else trimmed ++ slash :: rest

theorem InNamespace.rest_unique {trimmed rest rest' key : JsString} (h : InNamespace trimmed rest key)
    (h' : InNamespace trimmed rest' key) : rest = rest' := by
  rw [InNamespace] at h h'
  rw [h] at h'
  split at h'
  · exact h'
  · exact (List.cons.inj (List.append_cancel_left h')).2

theorem composeKey_error_iff (keyPrefix rawKey : JsString) :
    (∃ exception, composeKey keyPrefix rawKey = .error exception ∧ exception.code = .keyInvalid) ↔
      ClimbsOut rawKey := by
  rw [ClimbsOut, composeKey]
  split
  · rename_i h
    exact iff_of_true ⟨_, rfl, rfl⟩ h
  · rename_i h
    refine iff_of_false ?_ h
    rintro ⟨_, hok, -⟩
    cases hok

theorem composeKey_ok_iff (keyPrefix rawKey key : JsString) :
    composeKey keyPrefix rawKey = .ok key ↔
      ¬ ClimbsOut rawKey ∧ InNamespace (trimSlashes keyPrefix) (collapseSlashes rawKey) key := by
  rw [ClimbsOut, composeKey, InNamespace]
  split
  · rename_i h
    refine iff_of_false ?_ (fun hok => hok.1 h)
    intro hok
    cases hok
  · rename_i h
    rw [and_iff_right h, Except.ok.injEq, eq_comm]
    simp only [List.length_pos_iff, ite_not]

/-- Collapsing after the check opens no way out. -/
theorem canonicalKey_collapseSlashes {rawKey : JsString} (h : ¬ ClimbsOut rawKey) :
    CanonicalKey (collapseSlashes rawKey) := by
  rw [ClimbsOut, not_or] at h
  obtain ⟨hhead, hdots⟩ := h
  refine ⟨collapseSlashes_no_run rawKey, ?_, ?_⟩
  · rwa [collapseSlashes_head?]
  · rw [splitSlash_collapseSlashes hhead]
    exact fun hmem => hdots (mem_splitSlash_of_mem_runSegments hmem)

/-- Two accepted keys meet exactly when only repeated slashes tell them apart. -/
theorem composeKey_eq_iff {keyPrefix rawKey rawKey' key key' : JsString}
    (h : composeKey keyPrefix rawKey = .ok key) (h' : composeKey keyPrefix rawKey' = .ok key') :
    key = key' ↔ runSegments rawKey = runSegments rawKey' := by
  obtain ⟨hclimbs, hkey⟩ := (composeKey_ok_iff _ _ _).mp h
  obtain ⟨hclimbs', hkey'⟩ := (composeKey_ok_iff _ _ _).mp h'
  rw [ClimbsOut, not_or] at hclimbs hclimbs'
  rw [← collapseSlashes_eq_iff hclimbs.1 hclimbs'.1]
  constructor
  · rintro rfl
    exact hkey.rest_unique hkey'
  · intro heq
    rw [InNamespace] at hkey hkey'
    rw [hkey, hkey', heq]

/-- An abort sends one command, for the composed key, or none. -/
theorem abortMultipart_sends (send : SendAbort W) (bucket keyPrefix : JsString) (body : MultipartAbortBody) (w : W) :
    (abortMultipart (some send.recorded) bucket keyPrefix body (w, [])).2.2 =
      match composeKey keyPrefix body.key with
      | .ok finalKey => [⟨bucket, finalKey, body.uploadId⟩]
      | .error _ => [] := by
  rw [abortMultipart]
  cases composeKey keyPrefix body.key with
  | error exception => rfl
  | ok finalKey =>
    rw [Async.bind_world _ (fun _ _ => rfl), Async.tryCatch_world]
    · rfl
    · intro error s
      cases error <;> rfl

/-- Every key an abort may target stands in the namespace of the prefix, canonically, and
only keys that differ in repeated slashes share a target. -/
theorem abort_keys_canonical (keyPrefix : JsString) : ∃ trimmed,
    removeMatches slashEnds 0 true keyPrefix = trimmed ∧ IsTrimOf trimmed keyPrefix ∧
    (∀ rawKey, (∃ exception, composeKey keyPrefix rawKey = .error exception ∧ exception.code = .keyInvalid) ↔
      ClimbsOut rawKey) ∧
    (∀ rawKey, ¬ ClimbsOut rawKey → ∃ key rest, composeKey keyPrefix rawKey = .ok key ∧
      InNamespace trimmed rest key ∧ key.head? ≠ some slash ∧ CanonicalKey rest ∧ collapseSlashes rest = rest) ∧
    (∀ rawKey rawKey' key key', composeKey keyPrefix rawKey = .ok key → composeKey keyPrefix rawKey' = .ok key' →
      (key = key' ↔ runSegments rawKey = runSegments rawKey')) ∧
    ∀ (send : SendAbort W) bucket body w,
      (abortMultipart (some send.recorded) bucket keyPrefix body (w, [])).2.2 =
        match composeKey keyPrefix body.key with
        | .ok finalKey => [⟨bucket, finalKey, body.uploadId⟩]
        | .error _ => [] := by
  have htrim := isTrimOf_trimSlashes keyPrefix
  refine ⟨trimSlashes keyPrefix, trimSlashes_eq_removeMatches keyPrefix, htrim, composeKey_error_iff keyPrefix, ?_,
    fun _ _ _ _ => composeKey_eq_iff,
    fun send bucket body w => abortMultipart_sends send bucket keyPrefix body w⟩
  intro rawKey h
  have hcanonical := canonicalKey_collapseSlashes h
  refine ⟨_, collapseSlashes rawKey, (composeKey_ok_iff _ _ _).mpr ⟨h, rfl⟩, rfl, ?_, hcanonical,
    collapseSlashes_collapseSlashes rawKey⟩
  split
  · exact hcanonical.relative
  · rename_i hne
    rw [List.head?_append_of_ne_nil _ hne]
    exact htrim.2.1

theorem wrapped_prefix_abort :
    composeKey (js "//a/b//") (js "media//x.mp4") = .ok (js "a/b/media/x.mp4") ∧
      runSegments (js "media//x.mp4") = runSegments (js "media/x.mp4") := by
  obtain ⟨_, _, _, _, _, hsame, _⟩ := @abort_keys_canonical Unit (js "//a/b//")
  refine ⟨by decide, ?_⟩
  exact (hsame _ _ (js "a/b/media/x.mp4") (js "a/b/media/x.mp4") (by decide) (by decide)).mp rfl

end NestStorageExample.Api
