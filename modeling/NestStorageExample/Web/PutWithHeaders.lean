import NestStorageExample.Api.PublicUrls
import NestStorageExample.Url.BehindQuery
import NestStorageExample.Web.ApiClient
import NestStorageExample.Web.DirectUpload

/-! The presigned PUT of the browser, whatever its request object tells and in whatever order,
and the texts that stand for a signed URL in errors and on the pages. -/
namespace NestStorageExample.Web
open Text Url ApiClient
variable {α : Type}

/-- `new URL(url)`, as far as it is read. -/
def parsedUrl (hosts : Hosts α) (hostText : α → JsString) (url : JsString) : Option ParsedUrl :=
  (parse hosts url).map fun record => ⟨origin hosts hostText record.front record.path, record.path.pathname⟩

section Masks
variable (parseUrl : JsString → Option ParsedUrl)

/-- A URL up to its path, with a remark in the place of its query. -/
def maskedUrl (remark fallback : String) (url : JsString) : JsString :=
  match parseUrl url with
  | some u => u.origin ++ u.pathname ++ js remark
  | none => js fallback

def maskSignedUrl : JsString → JsString := maskedUrl parseUrl "[signed-query-redacted]" "[url-redacted]"

def SignedContent.maskUrl : JsString → JsString := maskedUrl parseUrl "?[signed-params-hidden]" "[url-hidden]"

def KeyDetailDrawer.maskUrl : JsString → JsString := maskedUrl parseUrl "?[signed-params-hidden]" "[url-hidden]"

theorem maskUrl_eq : ApiClient.maskUrl parseUrl = maskedUrl parseUrl "[query-string-redacted]" "[url-redacted]" := by
  funext url
  cases hurl : parseUrl url with
  | none => simp only [ApiClient.maskUrl, maskedUrl, hurl]
  | some u => simp only [ApiClient.maskUrl, maskedUrl, hurl]

end Masks

/-- What is read of a URL stands in front of its first question mark. -/
theorem parsedUrl_behind_question (hosts : Hosts α) (hostText : α → JsString) (front : JsString) :
    ∃ read, ∀ rest, parsedUrl hosts hostText (front ++ 0x3F :: rest) = read := by
  obtain ⟨place, hplace⟩ := parse_behind_question hosts front
  refine ⟨place.map fun place => ⟨origin hosts hostText place.1 place.2, place.2.pathname⟩, fun rest => ?_⟩
  rw [← hplace rest, Option.map_map]
  rfl

theorem parsedUrl_ignoresQuery (hosts : Hosts α) (hostText : α → JsString) :
    IgnoresQuery (parsedUrl hosts hostText) := by
  rintro _ _ ⟨front, query, query', fragment, -, -, -, -, rfl, rfl⟩
  obtain ⟨read, hread⟩ := parsedUrl_behind_question hosts hostText front
  rw [hread, hread]

theorem maskedUrl_congr {parseUrl : JsString → Option ParsedUrl} {url url' : JsString}
    (h : parseUrl url = parseUrl url') (remark fallback : String) :
    maskedUrl parseUrl remark fallback url = maskedUrl parseUrl remark fallback url' := by
  rw [maskedUrl, maskedUrl, h]

/-- No text that stands for a URL tells what is behind its first question mark. -/
theorem masks_tell_no_query (hosts : Hosts α) (hostText : α → JsString) (front rest rest' : JsString) :
    ∀ mask ∈ [maskSignedUrl, SignedContent.maskUrl, KeyDetailDrawer.maskUrl, ApiClient.maskUrl],
      mask (parsedUrl hosts hostText) (front ++ 0x3F :: rest) =
        mask (parsedUrl hosts hostText) (front ++ 0x3F :: rest') := by
  obtain ⟨read, hread⟩ := parsedUrl_behind_question hosts hostText front
  have hmask := maskedUrl_congr ((hread rest).trans (hread rest').symm)
  simp only [List.forall_mem_cons, List.not_mem_nil, false_imp_iff, implies_true, and_true]
  refine ⟨hmask _ _, hmask _ _, hmask _ _, ?_⟩
  rw [maskUrl_eq]
  exact hmask _ _

/-- A URL of the bucket with this query. -/
def bucketUrl (query : JsString) : JsString := js "https://minio.local/vault/a.pdf" ++ 0x3F :: query

theorem bucketUrl_differ {query query' : JsString} (h : 0x23 ∉ query) (h' : 0x23 ∉ query') :
    DifferInQuery (bucketUrl query) (bucketUrl query') := by
  have hfront : (js "https://minio.local/vault/a.pdf").all (fun c => c != 0x3F && c != 0x23) = true := by decide
  refine ⟨js "https://minio.local/vault/a.pdf", query, query', [], fun c hc => ?_, h, h', Or.inl rfl,
    by rw [List.append_nil]; rfl, by rw [List.append_nil]; rfl⟩
  simpa using List.all_eq_true.mp hfront c hc

theorem two_signatures_masked_alike :
    maskSignedUrl (parsedUrl Api.plainHosts (List.map UInt16.ofNat)) (bucketUrl (js "X-Amz-Signature=aa")) =
      maskSignedUrl (parsedUrl Api.plainHosts (List.map UInt16.ofNat)) (bucketUrl (js "X-Amz-Signature=bb#part")) ∧
    maskSignedUrl (parsedUrl Api.plainHosts (List.map UInt16.ofNat)) (bucketUrl (js "X-Amz-Signature=aa")) =
      js "https://minio.local/vault/a.pdf[signed-query-redacted]" :=
  ⟨masks_tell_no_query Api.plainHosts (List.map UInt16.ofNat) (js "https://minio.local/vault/a.pdf") _ _ _
    List.mem_cons_self, by decide +kernel⟩

/-! The request object. -/

/-- What the object tells its listeners; `abort` and `timeout` have none. -/
inductive XhrEvent where
  | progress (lengthComputable : Bool) (loaded total : Nat)
  | load (status : Nat)
  | error
  | unheard

/-- The errors that `open` and `setRequestHeader` throw, where they do. -/
structure XhrPlatform where
  openThrows : JsString → Option JsString
  headerThrows : JsString × JsString → Option JsString

/-- What is sent: the calls of `setRequestHeader` in their order. -/
structure XhrRequest where
  method : JsString
  url : JsString
  headers : List (JsString × JsString)
  body : File

/-- The promise, which is settled once, and the calls of `onProgress`. -/
structure PutState where
  promise : Option (Except JsString Unit)
  reported : List (Nat × Nat)

def PutState.settle (s : PutState) (outcome : Except JsString Unit) : PutState :=
  { s with promise := s.promise.or (some outcome) }

section Put
variable (platform : XhrPlatform) (parseUrl : JsString → Option ParsedUrl) (signedUrl : JsString)
  (requiredHeaders : List (JsString × JsString)) (body : File) (onProgress : Bool)

/-- The request up to its `send`; an error thrown on the way rejects the promise. -/
def openPut : Except JsString XhrRequest :=
  match platform.openThrows signedUrl with
  | some error => .error error
  | none =>
    match requiredHeaders.findSome? platform.headerThrows with
    | some error => .error error
    | none => .ok ⟨js "PUT", signedUrl, requiredHeaders, body⟩

def putFailed (status : Nat) : JsString :=
  js "PUT to " ++ maskSignedUrl parseUrl signedUrl ++ js " failed with status " ++ js (toString status)

def networkFailed : JsString := js "Network error uploading to " ++ maskSignedUrl parseUrl signedUrl

def PutState.hear (s : PutState) : XhrEvent → PutState
  | .progress lengthComputable loaded total =>
    if onProgress && lengthComputable then { s with reported := s.reported ++ [(loaded, total)] } else s
  | .load status =>
    s.settle (if 200 ≤ status ∧ status < 300 then .ok () else .error (putFailed parseUrl signedUrl status))
  | .error => s.settle (.error (networkFailed parseUrl signedUrl))
  | .unheard => s

/-- The promise after these events, with or without an `onProgress`. -/
def putWithHeaders (events : List XhrEvent) : PutState :=
  match openPut platform signedUrl requiredHeaders body with
  | .error error => ⟨some (.error error), []⟩
  | .ok _ => events.foldl (PutState.hear parseUrl signedUrl onProgress) ⟨none, []⟩

end Put

/-- What an event that ends the request says of it. -/
def ending (parseUrl : JsString → Option ParsedUrl) (signedUrl : JsString) : XhrEvent → Option (Except JsString Unit)
  | .load status => some (if 200 ≤ status ∧ status < 300 then .ok () else .error (putFailed parseUrl signedUrl status))
  | .error => some (.error (networkFailed parseUrl signedUrl))
  | _ => none

def computed : XhrEvent → Option (Nat × Nat)
  | .progress true loaded total => some (loaded, total)
  | _ => none

section Told
variable {platform : XhrPlatform} {parseUrl : JsString → Option ParsedUrl} {signedUrl : JsString}
  {requiredHeaders : List (JsString × JsString)} {body : File} {onProgress : Bool}

/-- The first end settles the promise; every computed progress is reported. -/
theorem foldl_hear (events : List XhrEvent) (s : PutState) :
    events.foldl (PutState.hear parseUrl signedUrl onProgress) s =
      ⟨s.promise.or (events.findSome? (ending parseUrl signedUrl)),
        s.reported ++ if onProgress then events.filterMap computed else []⟩ := by
  induction events generalizing s with
  | nil => simp
  | cons e events ih =>
    rw [List.foldl_cons, ih, List.findSome?_cons, List.filterMap_cons]
    cases e with
    | progress lengthComputable loaded total =>
      cases lengthComputable <;> cases onProgress <;> simp [PutState.hear, ending, computed]
    | load status => cases hp : s.promise <;> simp [PutState.hear, PutState.settle, ending, computed, hp]
    | error => cases hp : s.promise <;> simp [PutState.hear, PutState.settle, ending, computed, hp]
    | unheard => simp [PutState.hear, ending, computed]

theorem openPut_ok {request : XhrRequest} (h : openPut platform signedUrl requiredHeaders body = .ok request) :
    platform.openThrows signedUrl = none ∧ requiredHeaders.findSome? platform.headerThrows = none ∧
      request = ⟨js "PUT", signedUrl, requiredHeaders, body⟩ := by
  rw [openPut] at h
  cases hopen : platform.openThrows signedUrl with
  | some error =>
    rw [hopen] at h
    cases h
  | none =>
    rw [hopen] at h
    cases hheaders : requiredHeaders.findSome? platform.headerThrows with
    | some error =>
      simp only [hheaders] at h
      cases h
    | none =>
      simp only [hheaders] at h
      cases h
      exact ⟨rfl, rfl, rfl⟩

theorem openPut_of_accepted (hopen : platform.openThrows signedUrl = none)
    (hheaders : requiredHeaders.findSome? platform.headerThrows = none) :
    openPut platform signedUrl requiredHeaders body = .ok ⟨js "PUT", signedUrl, requiredHeaders, body⟩ := by
  rw [openPut, hopen]
  simp only [hheaders]

theorem putWithHeaders_opened {request : XhrRequest}
    (h : openPut platform signedUrl requiredHeaders body = .ok request) (events : List XhrEvent) :
    putWithHeaders platform parseUrl signedUrl requiredHeaders body onProgress events =
      ⟨events.findSome? (ending parseUrl signedUrl), if onProgress then events.filterMap computed else []⟩ := by
  rw [putWithHeaders, h]
  exact foldl_hear events ⟨none, []⟩

theorem ending_eq_ok {e : XhrEvent} :
    ending parseUrl signedUrl e = some (.ok ()) ↔ ∃ status, e = .load status ∧ 200 ≤ status ∧ status < 300 := by
  cases e with
  | load status =>
    by_cases h : 200 ≤ status ∧ status < 300 <;> simp [ending, h]
  | _ => simp [ending]

theorem ending_blind (hparse : IgnoresQuery parseUrl) {signedUrl' : JsString} (h : DifferInQuery signedUrl signedUrl') :
    ending parseUrl signedUrl = ending parseUrl signedUrl' := by
  have hmask : maskSignedUrl parseUrl signedUrl = maskSignedUrl parseUrl signedUrl' :=
    maskedUrl_congr (hparse _ _ h) _ _
  funext e
  cases e with
  | load status => simp only [ending, putFailed, hmask]
  | error => simp only [ending, networkFailed, hmask]
  | _ => rfl

variable (onProgress) in
/-- Once a PUT is sent, as it was asked for, the first end that its request object tells settles
its promise for good, and neither the promise nor the reports tell the signature. -/
theorem put_settles_blind (hosts : Hosts α) (hostText : α → JsString) {request : XhrRequest}
    (h : openPut platform signedUrl requiredHeaders body = .ok request) (events : List XhrEvent) :
    let put := fun url events => putWithHeaders platform (parsedUrl hosts hostText) url requiredHeaders body onProgress
      events
    request = ⟨js "PUT", signedUrl, requiredHeaders, body⟩ ∧
      (put signedUrl events).promise = events.findSome? (ending (parsedUrl hosts hostText) signedUrl) ∧
      ((put signedUrl events).promise = some (.ok ()) ↔ ∃ before status after, events = before ++ .load status :: after ∧
        (∀ e ∈ before, ending (parsedUrl hosts hostText) signedUrl e = none) ∧ 200 ≤ status ∧ status < 300) ∧
      (∀ later, (put signedUrl events).promise ≠ none → (put signedUrl (events ++ later)).promise =
        (put signedUrl events).promise) ∧
      (put signedUrl events).reported = (if onProgress then events.filterMap computed else []) ∧
      ∀ signedUrl', DifferInQuery signedUrl signedUrl' → platform.openThrows signedUrl' = none →
        put signedUrl' events = put signedUrl events := by
  obtain ⟨hopen, hheaders, rfl⟩ := openPut_ok h
  intro put
  have hput (events : List XhrEvent) : put signedUrl events = _ := putWithHeaders_opened h events
  refine ⟨rfl, by rw [hput], ?_, ?_, by rw [hput], ?_⟩
  · rw [hput, List.findSome?_eq_some_iff]
    constructor
    · rintro ⟨before, e, after, rfl, hend, hbefore⟩
      obtain ⟨status, rfl, hlow, hhigh⟩ := ending_eq_ok.mp hend
      exact ⟨before, status, after, rfl, hbefore, hlow, hhigh⟩
    · rintro ⟨before, status, after, rfl, hbefore, hrange⟩
      exact ⟨before, _, after, rfl, ending_eq_ok.mpr ⟨status, rfl, hrange⟩, hbefore⟩
  · intro later hsettled
    rw [hput] at hsettled ⊢
    rw [hput, List.findSome?_append]
    cases hend : events.findSome? (ending (parsedUrl hosts hostText) signedUrl) with
    | none => exact absurd hend hsettled
    | some outcome => rfl
  · intro signedUrl' hdiffer hopen'
    have hput' : put signedUrl' events = _ := putWithHeaders_opened (openPut_of_accepted hopen' hheaders) events
    rw [hput, hput', ending_blind (parsedUrl_ignoresQuery hosts hostText) hdiffer]

/-- A PUT that is refused and then repeated by a stray event, with two signatures. -/
theorem refused_put_blind :
    let put := fun signature events => putWithHeaders ⟨fun _ => none, fun _ => none⟩
      (parsedUrl Api.plainHosts (List.map UInt16.ofNat)) (bucketUrl signature) [(js "Content-Type", js "application/pdf")]
      ⟨0, js "a.pdf", js "application/pdf", 2⟩ true events
    (put (js "s=a") [.progress true 1 2, .load 403, .load 200]).promise ≠ some (.ok ()) ∧
      (put (js "s=a") [.progress true 1 2, .load 403, .load 200]).reported = [(1, 2)] ∧
      put (js "s=b") [.progress true 1 2, .load 403, .load 200] =
        put (js "s=a") [.progress true 1 2, .load 403, .load 200] := by
  intro put
  have hopened : openPut ⟨fun _ => none, fun _ => none⟩ (bucketUrl (js "s=a"))
      [(js "Content-Type", js "application/pdf")] ⟨0, js "a.pdf", js "application/pdf", 2⟩ = .ok _ :=
    openPut_of_accepted rfl rfl
  obtain ⟨-, hpromise, -, -, hreported, hblind⟩ := put_settles_blind true Api.plainHosts (List.map UInt16.ofNat) hopened
    [.progress true 1 2, .load 403, .load 200]
  refine ⟨?_, hreported, hblind _ (bucketUrl_differ (by decide) (by decide)) rfl⟩
  intro hok
  rw [hpromise] at hok
  cases hok

end Told

end NestStorageExample.Web
