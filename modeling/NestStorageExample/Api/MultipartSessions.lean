import NestStorageExample.Api.AbortMultipart
import NestStorageExample.Api.SignedUrlExpiry
import NestStorageExample.Runs.Ledgers

/-! The presigned multipart uploads from their issue to their end. The library opens a session
under the key it resolves, and the service aborts through the raw client under a key of its
own making; what is left open after any number of requests is told from their answers. -/
namespace NestStorageExample.Api
open Text Effects Storage Url Dates Numbers Runs
variable {α W : Type}

structure MultipartUrlsBody where
  category : UploadCategory
  contentType : JsString
  parts : Nat
  ttlSeconds : Option ℚ

structure MultipartUploadUrlsOptions where
  key : JsString
  contentType : JsString
  parts : Nat
  ttlSeconds : Option ℚ

structure PartUrl where
  partNumber : Nat
  url : JsString

structure MultipartUploadUrlsResult where
  uploadId : JsString
  partUrls : List PartUrl
  completeUrl : JsString

structure MultipartUrlsResponse where
  uploadId : JsString
  key : JsString
  partUrls : List PartUrl
  completeUrl : JsString
  expiresAt : JsString
  effectiveTtlSeconds : ℚ
  parts : Nat
  minPartSizeBytes : Nat
  note : String

def s3MinPartSizeBytes : Nat := 5 * 1024 * 1024

def multipartNote : String :=
  "Every part except the last must be at least 5 MiB (S3 rule). The consumer orchestrates the parts and MUST call " ++
  "POST /signed/multipart-abort if the upload is not completed, or the uploaded parts are billed as orphans."

abbrev GetMultipartUploadUrls (W : Type) :=
  MultipartUploadUrlsOptions → Async Rejection W MultipartUploadUrlsResult

def SignedService.createMultipartUrls (hosts : Hosts α) (getMultipartUploadUrls : GetMultipartUploadUrls W)
    (body : MultipartUrlsBody) (uuid : Uuid) : Async Rejection W MultipartUrlsResponse := do
  let key := uploadUrlKey body.category uuid
  let result ← getMultipartUploadUrls ⟨key, body.contentType, body.parts, body.ttlSeconds⟩
  let expiry ← Async.settled (readSignedUrlExpiry hosts result.completeUrl)
  let expiresAt ← Async.settled (toISOString expiry.expiresAt)
  return ⟨result.uploadId, key, result.partUrls, result.completeUrl, expiresAt, expiry.effectiveTtlSeconds,
    body.parts, s3MinPartSizeBytes, multipartNote⟩

/-- An upload in progress, as the object store knows it. -/
structure MultipartSession where
  bucket : JsString
  key : JsString
  uploadId : JsString
  deriving DecidableEq

def AbortMultipartUploadCommand.session (command : AbortMultipartUploadCommand) : MultipartSession :=
  ⟨command.bucket, command.key, command.uploadId⟩

/-- The object store behind the two clients: the uploads in progress, the ids handed out so
far, and a browser that completes an upload. -/
structure MultipartBackend (W : Type) where
  getMultipartUploadUrls : GetMultipartUploadUrls W
  s3Client : Option (SendAbort W)
  bucket : JsString
  keyPrefix : JsString
  complete : MultipartSession → W → W
  live : W → Finset MultipartSession
  issued : W → Finset JsString

/-- The provider's key for a raw one: what the resolver makes of it, in the namespace of the prefix. -/
def LibraryKey (keyPrefix rawKey key : JsString) : Prop :=
  ∃ resolved, resolveKey rawKey = some resolved ∧ InNamespace (trimSlashes keyPrefix) resolved key

inductive MultipartRequest where
  | issue (body : MultipartUrlsBody) (uuid : Uuid)
  | abort (body : MultipartAbortBody)
  | complete (session : MultipartSession)

inductive MultipartAnswer where
  | issued (result : Except Rejection MultipartUrlsResponse)
  | aborted (result : Except Rejection MultipartAbortResponse)
  | completed

namespace MultipartBackend
variable (backend : MultipartBackend W)

/-- A session was opened under the provider's key, with an id never seen before. -/
def Opened (rawKey uploadId : JsString) (w w' : W) : Prop :=
  ∃ key, LibraryKey backend.keyPrefix rawKey key ∧ uploadId ∉ backend.issued w ∧
    backend.live w' = insert ⟨backend.bucket, key, uploadId⟩ (backend.live w) ∧
    backend.issued w' = insert uploadId (backend.issued w)

def Unchanged (w w' : W) : Prop := backend.live w' = backend.live w ∧ backend.issued w' = backend.issued w

def Removed (session : MultipartSession) (w w' : W) : Prop :=
  backend.live w' = (backend.live w).erase session ∧ backend.issued w' = backend.issued w

/-- A call that rejects may have taken effect. -/
structure Contract : Prop where
  issue : ∀ options w, (backend.getMultipartUploadUrls options).Settles w
    (fun result w' => backend.Opened options.key result.uploadId w w')
    (fun _ w' => backend.Unchanged w w' ∨ ∃ uploadId, backend.Opened options.key uploadId w w')
  abort : ∀ send ∈ backend.s3Client, ∀ command w, (send command).Settles w
    (fun _ w' => backend.Removed command.session w w')
    (fun _ w' => backend.Unchanged w w' ∨ backend.Removed command.session w w')
  complete : ∀ session w, backend.Unchanged w (backend.complete session w) ∨
    backend.Removed session w (backend.complete session w)
  live_issued : ∀ w, ∀ session ∈ backend.live w, session.uploadId ∈ backend.issued w

def serve (hosts : Hosts α) : MultipartRequest → W → MultipartAnswer × W
  | .issue body uuid, w =>
    Prod.map .issued id (SignedService.createMultipartUrls hosts backend.getMultipartUploadUrls body uuid w)
  | .abort body, w => Prod.map .aborted id (abortMultipart backend.s3Client backend.bucket backend.keyPrefix body w)
  | .complete session, w => (.completed, backend.complete session w)

/-- The session that an abort of this body aims at. -/
def Targets (rawKey uploadId : JsString) (session : MultipartSession) : Prop :=
  session.bucket = backend.bucket ∧ composeKey backend.keyPrefix rawKey = .ok session.key ∧
    session.uploadId = uploadId

/-- An issue that resolves tells the session's id and key; one that rejects may leave one that nobody was told of. -/
def Opens : MultipartRequest → MultipartAnswer → MultipartSession → Prop
  | .issue _ _, .issued (.ok response), session => backend.Targets response.key response.uploadId session
  | .issue body uuid, .issued (.error _), session =>
    backend.Targets (uploadUrlKey body.category uuid) session.uploadId session
  | _, _, _ => False

def Ends : MultipartRequest → MultipartAnswer → MultipartSession → Prop
  | .abort body, .aborted (.ok _), session => backend.Targets body.key body.uploadId session
  | _, _, _ => False

def Touches : MultipartRequest → MultipartAnswer → MultipartSession → Prop
  | .abort body, _, session => backend.Targets body.key body.uploadId session
  | .complete completed, _, session => session = completed
  | _, _, _ => False

def ledger (hosts : Hosts α) : Ledger W MultipartRequest MultipartAnswer MultipartSession where
  serve := backend.serve hosts
  live w := {session | session ∈ backend.live w}
  issued w := {session | session.uploadId ∈ backend.issued w}
  opens := backend.Opens
  ends := backend.Ends
  touches := backend.Touches

end MultipartBackend

/-- The mirror of the resolver composes the library's key. -/
theorem composeKey_ok_iff_libraryKey {keyPrefix rawKey key : JsString} :
    composeKey keyPrefix rawKey = .ok key ↔ LibraryKey keyPrefix rawKey key := by
  rw [composeKey_ok_iff, LibraryKey, resolveKey, ClimbsOut]
  split
  · rename_i h
    simp [h]
  · rename_i h
    simp [h]

section Steps
variable {backend : MultipartBackend W} {hosts : Hosts α} {w w' : W}

/-- What a request for URLs comes to: the library's rejection, an answer that is not shown, or the response. -/
theorem createMultipartUrls_cases (hosts : Hosts α) (getMultipartUploadUrls : GetMultipartUploadUrls W)
    (body : MultipartUrlsBody) (uuid : Uuid) (w : W) :
    (∃ error w', getMultipartUploadUrls ⟨uploadUrlKey body.category uuid, body.contentType, body.parts,
        body.ttlSeconds⟩ w = (.error error, w') ∧
      SignedService.createMultipartUrls hosts getMultipartUploadUrls body uuid w = (.error error, w')) ∨
    ∃ result w', getMultipartUploadUrls ⟨uploadUrlKey body.category uuid, body.contentType, body.parts,
        body.ttlSeconds⟩ w = (.ok result, w') ∧
      ((∃ error, SignedService.createMultipartUrls hosts getMultipartUploadUrls body uuid w = (.error error, w')) ∨
        ∃ response, SignedService.createMultipartUrls hosts getMultipartUploadUrls body uuid w = (.ok response, w') ∧
          response.key = uploadUrlKey body.category uuid ∧ response.uploadId = result.uploadId) := by
  rcases hrun : getMultipartUploadUrls ⟨uploadUrlKey body.category uuid, body.contentType, body.parts,
    body.ttlSeconds⟩ w with ⟨error | result, w'⟩
  · exact Or.inl ⟨error, w', rfl, Async.bind_of_error hrun⟩
  · refine Or.inr ⟨result, w', rfl, ?_⟩
    rw [SignedService.createMultipartUrls, Async.bind_of_ok hrun]
    cases readSignedUrlExpiry hosts result.completeUrl with
    | error error => exact Or.inl ⟨error, rfl⟩
    | ok expiry =>
      rw [Async.settled_bind_ok]
      cases toISOString expiry.expiresAt with
      | error error => exact Or.inl ⟨error, rfl⟩
      | ok expiresAt => exact Or.inr ⟨_, rfl, rfl, rfl⟩

/-- An abort sends its command and reports as the client does, or answers without one. -/
theorem abortMultipart_cases (s3Client : Option (SendAbort W)) (bucket keyPrefix : JsString)
    (body : MultipartAbortBody) (w : W) :
    (∃ error, abortMultipart s3Client bucket keyPrefix body w = (.error error, w)) ∨
    ∃ send ∈ s3Client, ∃ key, composeKey keyPrefix body.key = .ok key ∧
      ((∃ w' response, send ⟨bucket, key, body.uploadId⟩ w = (.ok (), w') ∧
          abortMultipart s3Client bucket keyPrefix body w = (.ok response, w')) ∨
        ∃ w' cause error, send ⟨bucket, key, body.uploadId⟩ w = (.error cause, w') ∧
          abortMultipart s3Client bucket keyPrefix body w = (.error error, w')) := by
  cases s3Client with
  | none => exact Or.inl ⟨_, rfl⟩
  | some send =>
    cases hkey : composeKey keyPrefix body.key with
    | error exception =>
      refine Or.inl ⟨.storage exception, ?_⟩
      rw [abortMultipart, hkey]
      rfl
    | ok key =>
      refine Or.inr ⟨send, rfl, key, rfl, ?_⟩
      rw [abortMultipart, hkey]
      rcases hrun : send ⟨bucket, key, body.uploadId⟩ w with ⟨cause | _, w'⟩
      · refine Or.inr ⟨w', cause, ?_⟩
        cases cause with
        | storage exception => exact ⟨_, rfl, Async.bind_of_error (Async.tryCatch_of_error hrun)⟩
        | other cause => exact ⟨_, rfl, Async.bind_of_error (Async.tryCatch_of_error hrun)⟩
      · exact Or.inl ⟨w', _, rfl, Async.bind_of_ok (Async.tryCatch_of_ok hrun)⟩

theorem issue_step (h : backend.Contract) (hosts : Hosts α) (body : MultipartUrlsBody) (uuid : Uuid) (w : W) :
    (backend.Unchanged w (backend.serve hosts (.issue body uuid) w).2 ∧
      ∃ error, (backend.serve hosts (.issue body uuid) w).1 = .issued (.error error)) ∨
    ∃ uploadId, backend.Opened (uploadUrlKey body.category uuid) uploadId w (backend.serve hosts (.issue body uuid) w).2 ∧
      ((∃ error, (backend.serve hosts (.issue body uuid) w).1 = .issued (.error error)) ∨
        ∃ response, (backend.serve hosts (.issue body uuid) w).1 = .issued (.ok response) ∧
          response.key = uploadUrlKey body.category uuid ∧ response.uploadId = uploadId) := by
  rw [MultipartBackend.serve]
  rcases createMultipartUrls_cases hosts backend.getMultipartUploadUrls body uuid w with
    ⟨error, w', hcall, hrun⟩ | ⟨result, w', hcall, hrun⟩
  · rw [hrun]
    rcases (h.issue _ w).of_error hcall with hsame | ⟨uploadId, hopened⟩
    · exact Or.inl ⟨hsame, error, rfl⟩
    · exact Or.inr ⟨uploadId, hopened, Or.inl ⟨error, rfl⟩⟩
  · have hopened := (h.issue _ w).of_ok hcall
    rcases hrun with ⟨error, hrun⟩ | ⟨response, hrun, hkey, hid⟩
    · rw [hrun]
      exact Or.inr ⟨result.uploadId, hopened, Or.inl ⟨error, rfl⟩⟩
    · rw [hrun]
      exact Or.inr ⟨result.uploadId, hopened, Or.inr ⟨response, rfl, hkey, hid⟩⟩

theorem abort_step (h : backend.Contract) (hosts : Hosts α) (body : MultipartAbortBody) (w : W) :
    (backend.Unchanged w (backend.serve hosts (.abort body) w).2 ∧
      ∃ error, (backend.serve hosts (.abort body) w).1 = .aborted (.error error)) ∨
    ∃ session, backend.Targets body.key body.uploadId session ∧
      backend.Removed session w (backend.serve hosts (.abort body) w).2 := by
  rw [MultipartBackend.serve]
  rcases abortMultipart_cases backend.s3Client backend.bucket backend.keyPrefix body w with
    ⟨error, hrun⟩ | ⟨send, hsend, key, hkey, ⟨w', response, hcall, hrun⟩ | ⟨w', cause, error, hcall, hrun⟩⟩
  · rw [hrun]
    exact Or.inl ⟨⟨rfl, rfl⟩, error, rfl⟩
  · rw [hrun]
    exact Or.inr ⟨⟨backend.bucket, key, body.uploadId⟩, ⟨rfl, hkey, rfl⟩, (h.abort send hsend _ w).of_ok hcall⟩
  · rw [hrun]
    rcases (h.abort send hsend _ w).of_error hcall with hsame | hremoved
    · exact Or.inl ⟨hsame, error, rfl⟩
    · exact Or.inr ⟨⟨backend.bucket, key, body.uploadId⟩, ⟨rfl, hkey, rfl⟩, hremoved⟩

theorem MultipartBackend.Targets.unique {rawKey uploadId : JsString} {session session' : MultipartSession}
    (h : backend.Targets rawKey uploadId session) (h' : backend.Targets rawKey uploadId session') :
    session = session' := by
  obtain ⟨bucket, key, id⟩ := session
  obtain ⟨bucket', key', id'⟩ := session'
  obtain ⟨rfl, hkey, rfl⟩ := h
  obtain ⟨rfl, hkey', rfl⟩ := h'
  rw [hkey, Except.ok.injEq] at hkey'
  dsimp only at hkey'
  rw [hkey']

/-- The new session, and no other one. -/
theorem MultipartBackend.Opened.mem {rawKey uploadId : JsString} (h : backend.Opened rawKey uploadId w w')
    {session : MultipartSession} (hsession : session ∈ backend.live w') : session ∈ backend.live w ∨
      backend.Targets rawKey uploadId session ∧ session.uploadId ∉ backend.issued w := by
  obtain ⟨key, hkey, hnew, hlive, -⟩ := h
  rw [hlive, Finset.mem_insert] at hsession
  rcases hsession with rfl | hsession
  · exact Or.inr ⟨⟨rfl, composeKey_ok_iff_libraryKey.mpr hkey, rfl⟩, hnew⟩
  · exact Or.inl hsession

theorem MultipartBackend.Opened.live {rawKey uploadId : JsString} (h : backend.Opened rawKey uploadId w w')
    {session : MultipartSession} (hsession : backend.Targets rawKey uploadId session) :
    session ∈ backend.live w' := by
  obtain ⟨key, hkey, -, hlive, -⟩ := h
  have htarget : backend.Targets rawKey uploadId ⟨backend.bucket, key, uploadId⟩ :=
    ⟨rfl, composeKey_ok_iff_libraryKey.mpr hkey, rfl⟩
  rw [hlive, hsession.unique htarget]
  exact Finset.mem_insert_self _ _

theorem MultipartBackend.Opened.subset {rawKey uploadId : JsString} (h : backend.Opened rawKey uploadId w w') :
    backend.live w ⊆ backend.live w' ∧ backend.issued w ⊆ backend.issued w' := by
  obtain ⟨key, -, -, hlive, hissued⟩ := h
  rw [hlive, hissued]
  exact ⟨Finset.subset_insert _ _, Finset.subset_insert _ _⟩

theorem MultipartBackend.Removed.subset {session : MultipartSession} (h : backend.Removed session w w') :
    backend.live w' ⊆ backend.live w := by
  rw [h.1]
  exact Finset.erase_subset _ _

theorem MultipartBackend.Removed.kept {session other : MultipartSession} (h : backend.Removed session w w')
    (hlive : other ∈ backend.live w) (hne : other ≠ session) : other ∈ backend.live w' := by
  rw [h.1]
  exact Finset.mem_erase.mpr ⟨hne, hlive⟩

theorem MultipartBackend.Contract.lawful (h : backend.Contract) (hosts : Hosts α) : (backend.ledger hosts).Lawful where
  born request w session hsession := by
    cases request with
    | issue body uuid =>
      rcases issue_step h hosts body uuid w with ⟨hsame, -⟩ | ⟨uploadId, hopened, hanswer⟩
      · exact Or.inl (hsame.1 ▸ hsession : session ∈ backend.live w)
      · refine (hopened.mem hsession).imp_right (And.imp_left fun htargets => ?_)
        change backend.Opens _ (backend.serve hosts (.issue body uuid) w).1 session
        rcases hanswer with ⟨error, hanswer⟩ | ⟨response, hanswer, hkey, hid⟩
        · rw [hanswer]
          exact ⟨htargets.1, htargets.2.1, rfl⟩
        · rw [hanswer, MultipartBackend.Opens, hkey, hid]
          exact htargets
    | abort body =>
      rcases abort_step h hosts body w with ⟨hsame, -⟩ | ⟨target, -, hremoved⟩
      · exact Or.inl (hsame.1 ▸ hsession : session ∈ backend.live w)
      · exact Or.inl (hremoved.subset hsession)
    | complete completed =>
      rcases h.complete completed w with hsame | hremoved
      · exact Or.inl (hsame.1 ▸ hsession : session ∈ backend.live w)
      · exact Or.inl (hremoved.subset hsession)
  ended request w session hends := by
    cases request with
    | issue body uuid => exact hends.elim
    | abort body =>
      change backend.Ends _ (backend.serve hosts (.abort body) w).1 session at hends
      rcases abort_step h hosts body w with ⟨-, error, hanswer⟩ | ⟨target, htarget, hremoved⟩
      · rw [hanswer] at hends
        exact hends.elim
      · intro hsession
        have htargets : backend.Targets body.key body.uploadId session := by
          unfold MultipartBackend.Ends at hends
          split at hends
          · cases ‹MultipartRequest.abort body = _›
            exact hends
          · exact hends.elim
        have hlive : session ∈ (backend.live w).erase target := hremoved.1 ▸ hsession
        exact (Finset.mem_erase.mp hlive).1 (htargets.unique htarget)
    | complete completed => exact hends.elim
  kept request w session hsession htouches := by
    cases request with
    | issue body uuid =>
      rcases issue_step h hosts body uuid w with ⟨hsame, -⟩ | ⟨uploadId, hopened, -⟩
      · exact (hsame.1.symm ▸ hsession : session ∈ backend.live (backend.serve hosts (.issue body uuid) w).2)
      · exact hopened.subset.1 hsession
    | abort body =>
      rcases abort_step h hosts body w with ⟨hsame, -⟩ | ⟨target, htarget, hremoved⟩
      · exact (hsame.1.symm ▸ hsession : session ∈ backend.live (backend.serve hosts (.abort body) w).2)
      · exact hremoved.kept hsession (fun he => htouches (he ▸ htarget))
    | complete completed =>
      rcases h.complete completed w with hsame | hremoved
      · exact (hsame.1.symm ▸ hsession : session ∈ backend.live (backend.complete completed w))
      · exact hremoved.kept hsession htouches
  issued_kept request w session hissued := by
    cases request with
    | issue body uuid =>
      rcases issue_step h hosts body uuid w with ⟨hsame, -⟩ | ⟨uploadId, hopened, -⟩
      · exact (hsame.2.symm ▸ hissued : session.uploadId ∈ backend.issued (backend.serve hosts (.issue body uuid) w).2)
      · exact hopened.subset.2 hissued
    | abort body =>
      rcases abort_step h hosts body w with ⟨hsame, -⟩ | ⟨target, -, hremoved⟩
      · exact (hsame.2.symm ▸ hissued : session.uploadId ∈ backend.issued (backend.serve hosts (.abort body) w).2)
      · exact (hremoved.2.symm ▸ hissued : session.uploadId ∈ backend.issued (backend.serve hosts (.abort body) w).2)
    | complete completed =>
      rcases h.complete completed w with hsame | hremoved
      · exact (hsame.2.symm ▸ hissued : session.uploadId ∈ backend.issued (backend.complete completed w))
      · exact (hremoved.2.symm ▸ hissued : session.uploadId ∈ backend.issued (backend.complete completed w))
  live_issued w session hsession := h.live_issued w session hsession

end Steps

/-- What the history of a run tells of the uploads in progress. Each of them was so before, or
was opened by an issue that told of it or that failed; and one that was told of is there until
a request aims at it, and gone for good once an abort of it has resolved. -/
structure MultipartBackend.SessionsTold (backend : MultipartBackend W) (w : W)
    (history : List (MultipartRequest × MultipartAnswer)) (w' : W) : Prop where
  accounted : ∀ session ∈ backend.live w',
    (session ∈ backend.live w ∧ ∀ entry ∈ history, ¬ backend.Ends entry.1 entry.2 session) ∨
      ∃ before entry after, history = before ++ entry :: after ∧ backend.Opens entry.1 entry.2 session ∧
        ∀ entry ∈ after, ¬ backend.Ends entry.1 entry.2 session
  told : ∀ before body uuid response after,
    history = before ++ (.issue body uuid, .issued (.ok response)) :: after →
      ∃ session, backend.Targets response.key response.uploadId session ∧
        ((∀ entry ∈ after, ¬ backend.Touches entry.1 entry.2 session) → session ∈ backend.live w') ∧
        ((∃ entry ∈ after, backend.Ends entry.1 entry.2 session) → session ∉ backend.live w')

section Runs
variable {backend : MultipartBackend W}

/-- An issue that resolves has opened the session it tells of. -/
theorem live_of_issued (h : backend.Contract) {hosts : Hosts α} {body : MultipartUrlsBody} {uuid : Uuid}
    {response : MultipartUrlsResponse} {w : W}
    (hanswer : (backend.serve hosts (.issue body uuid) w).1 = .issued (.ok response)) :
    (∃ session, backend.Targets response.key response.uploadId session) ∧
      ∀ session, backend.Targets response.key response.uploadId session →
        session ∈ backend.live (backend.serve hosts (.issue body uuid) w).2 := by
  rcases issue_step h hosts body uuid w with ⟨-, error, herror⟩ | ⟨uploadId, hopened, hresult⟩
  · cases herror.symm.trans hanswer
  · rcases hresult with ⟨error, herror⟩ | ⟨response', hresponse, hkey, hid⟩
    · cases herror.symm.trans hanswer
    · cases hresponse.symm.trans hanswer
      rw [hkey, hid]
      refine ⟨?_, fun session hsession => hopened.live hsession⟩
      obtain ⟨key, hlibrary, -⟩ := hopened
      exact ⟨⟨backend.bucket, key, uploadId⟩, rfl, composeKey_ok_iff_libraryKey.mpr hlibrary, rfl⟩

/-- Whatever requests are made, in whatever order, and whichever of them fail. -/
theorem multipart_sessions_told (h : backend.Contract) (hosts : Hosts α) (w : W) (requests : List MultipartRequest) :
    backend.SessionsTold w (journal (backend.serve hosts) requests w).1 (journal (backend.serve hosts) requests w).2 where
  accounted session hsession := (h.lawful hosts).live_accounted hsession
  told before body uuid response after hsplit := by
    obtain ⟨_, _, w₁, -, hanswer, -⟩ := journal_split hsplit
    obtain ⟨session, hsession⟩ := (live_of_issued h hanswer).1
    have hopening (w₂ : W) (hanswer₂ : (backend.serve hosts (.issue body uuid) w₂).1 = .issued (.ok response)) :
        session ∈ backend.live (backend.serve hosts (.issue body uuid) w₂).2 :=
      (live_of_issued h hanswer₂).2 session hsession
    refine ⟨session, hsession, fun htouches => ?_, ?_⟩
    · exact (h.lawful hosts).opened_kept hsplit hopening htouches
    · rintro ⟨entry, hentry, hends⟩
      exact (h.lawful hosts).ended_forever hsplit hopening hentry hends

end Runs

/-- The object store in memory. -/
structure MultipartMemory where
  live : Finset MultipartSession
  count : Nat
  live_counted : ∀ session ∈ live, ∃ n < count, session.uploadId = decimal n

namespace MultipartMemory

def empty : MultipartMemory := ⟨∅, 0, by simp⟩

def opened (m : MultipartMemory) (bucket key : JsString) : MultipartMemory where
  live := insert ⟨bucket, key, decimal m.count⟩ m.live
  count := m.count + 1
  live_counted session hsession := by
    rcases Finset.mem_insert.mp hsession with rfl | hsession
    · exact ⟨m.count, Nat.lt_succ_self _, rfl⟩
    · obtain ⟨n, hn, hid⟩ := m.live_counted session hsession
      exact ⟨n, Nat.lt_succ_of_lt hn, hid⟩

def removed (m : MultipartMemory) (session : MultipartSession) : MultipartMemory where
  live := m.live.erase session
  count := m.count
  live_counted other hother := m.live_counted other (Finset.mem_of_mem_erase hother)

/-- A URL of 7 July 2026, 10:00, that is good for five minutes. -/
def completeUrl : JsString := js "https://minio.local/vault/key?X-Amz-Date=20260707T100000Z&X-Amz-Expires=300"

def getMultipartUploadUrls (bucket keyPrefix : JsString) : GetMultipartUploadUrls MultipartMemory :=
  fun options m =>
    match composeKey keyPrefix options.key with
    | .error exception => (.error (.storage exception), m)
    | .ok key => (.ok ⟨decimal m.count, (List.range options.parts).map fun i => ⟨i + 1, completeUrl⟩, completeUrl⟩,
        m.opened bucket key)

def backend (bucket keyPrefix : JsString) : MultipartBackend MultipartMemory where
  getMultipartUploadUrls := getMultipartUploadUrls bucket keyPrefix
  s3Client := some fun command m => (.ok (), m.removed command.session)
  bucket := bucket
  keyPrefix := keyPrefix
  complete session m := m.removed session
  live := live
  issued m := (Finset.range m.count).image decimal

theorem contract (bucket keyPrefix : JsString) : (backend bucket keyPrefix).Contract where
  issue options m := by
    change Async.Settles (getMultipartUploadUrls bucket keyPrefix options) m _ _
    unfold Async.Settles getMultipartUploadUrls
    cases hkey : composeKey keyPrefix options.key with
    | error exception => exact Or.inl ⟨rfl, rfl⟩
    | ok key =>
      refine ⟨key, composeKey_ok_iff_libraryKey.mp hkey, ?_, rfl, ?_⟩
      · intro hmem
        obtain ⟨n, hn, heq⟩ := Finset.mem_image.mp hmem
        have hsame : n = m.count := by rw [← readDecimal_decimal n, heq, readDecimal_decimal]
        exact absurd (Finset.mem_range.mp hn) (by omega)
      · change (Finset.range (m.count + 1)).image decimal = _
        rw [Finset.range_add_one, Finset.image_insert]
        rfl
  abort send hsend command m := by
    cases hsend
    exact ⟨rfl, rfl⟩
  complete session m := Or.inr ⟨rfl, rfl⟩
  live_issued m session hsession := by
    obtain ⟨n, hn, hid⟩ := m.live_counted session hsession
    rw [hid]
    exact Finset.mem_image_of_mem decimal (Finset.mem_range.mpr hn)

theorem completeUrl_signed : SignedWith plainHosts completeUrl 1783418400 300 := by
  have hparams : (parse plainHosts completeUrl).map UrlRecord.searchParams =
      some [(amzDateName, basicText (dateTimeOf 1783418400)), (amzExpiresName, decimal 300)] := by
    decide +kernel
  obtain ⟨record, hrecord, hpairs⟩ := Option.map_eq_some_iff.mp hparams
  refine ⟨⟨by decide +kernel, by decide +kernel⟩, ⟨record, hrecord, ?_⟩, ⟨record, hrecord, ?_⟩⟩
  · rw [hpairs]
    decide +kernel
  · rw [hpairs]
    decide +kernel

/-- Where the resolver takes the key, the memory answers with a session of its own. -/
theorem createMultipartUrls_ok {bucket keyPrefix key : JsString} {body : MultipartUrlsBody} {uuid : Uuid}
    (hkey : composeKey keyPrefix (uploadUrlKey body.category uuid) = .ok key) (m : MultipartMemory) : ∃ response,
    SignedService.createMultipartUrls plainHosts (getMultipartUploadUrls bucket keyPrefix) body uuid m =
        (.ok response, m.opened bucket key) ∧
      response.key = uploadUrlKey body.category uuid ∧ response.uploadId = decimal m.count := by
  have hcall : getMultipartUploadUrls bucket keyPrefix ⟨uploadUrlKey body.category uuid, body.contentType, body.parts,
      body.ttlSeconds⟩ m = (.ok ⟨decimal m.count, (List.range body.parts).map fun i => ⟨i + 1, completeUrl⟩,
        completeUrl⟩, m.opened bucket key) := by
    rw [getMultipartUploadUrls, hkey]
  rw [SignedService.createMultipartUrls, Async.bind_of_ok hcall, completeUrl_signed.read (by decide),
    Async.settled_bind_ok, toISOString, Async.settled_bind_ok]
  exact ⟨_, rfl, rfl, rfl⟩

def mediaBody : MultipartUrlsBody := ⟨.media, js "video/mp4", 2, none⟩

theorem mediaUuid_shape : isUuid (js "123e4567-e89b-42d3-a456-426614174000") = true := by decide

def mediaUuid : Uuid := ⟨js "123e4567-e89b-42d3-a456-426614174000", mediaUuid_shape⟩

def mediaSession : MultipartSession := ⟨js "vault", js "app/media/123e4567-e89b-42d3-a456-426614174000", decimal 0⟩

/-- An upload is aborted with what its issue told. -/
theorem aborted_upload_gone :
    mediaSession ∉ (backend (js "vault") (js "app")).live (journal ((backend (js "vault") (js "app")).serve plainHosts)
      [.issue mediaBody mediaUuid, .abort ⟨uploadUrlKey .media mediaUuid, decimal 0⟩] empty).2 := by
  have hcompose : composeKey (js "app") (uploadUrlKey .media mediaUuid) = .ok mediaSession.key := by decide
  have hmedia : (backend (js "vault") (js "app")).Targets (uploadUrlKey .media mediaUuid) (decimal 0) mediaSession :=
    ⟨rfl, hcompose, rfl⟩
  obtain ⟨response, hrun, hkey, hid⟩ :=
    @createMultipartUrls_ok (js "vault") (js "app") mediaSession.key mediaBody mediaUuid hcompose empty
  have hissue : (backend (js "vault") (js "app")).serve plainHosts (.issue mediaBody mediaUuid) empty =
      (.issued (.ok response), empty.opened (js "vault") mediaSession.key) := by
    rw [MultipartBackend.serve]
    exact congrArg (Prod.map MultipartAnswer.issued id) hrun
  have hsplit : (journal ((backend (js "vault") (js "app")).serve plainHosts)
      [.issue mediaBody mediaUuid, .abort ⟨uploadUrlKey .media mediaUuid, decimal 0⟩] empty).1 =
        [] ++ (.issue mediaBody mediaUuid, .issued (.ok response)) ::
          [(.abort ⟨uploadUrlKey .media mediaUuid, decimal 0⟩, ((backend (js "vault") (js "app")).serve plainHosts
            (.abort ⟨uploadUrlKey .media mediaUuid, decimal 0⟩) (empty.opened (js "vault") mediaSession.key)).1)] := by
    rw [journal_cons, hissue]
    rfl
  obtain ⟨session, htarget, -, hgone⟩ := (multipart_sessions_told (contract (js "vault") (js "app")) plainHosts empty
    [.issue mediaBody mediaUuid, .abort ⟨uploadUrlKey .media mediaUuid, decimal 0⟩]).told _ _ _ _ _ hsplit
  rw [hkey, hid] at htarget
  obtain rfl := htarget.unique hmedia
  refine hgone ⟨_, List.mem_singleton_self _, ?_⟩
  exact hmedia

end MultipartMemory

end NestStorageExample.Api
