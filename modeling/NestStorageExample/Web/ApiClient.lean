import NestStorageExample.Storage.ErrorCodes
import NestStorageExample.Text.Json
import NestStorageExample.Text.Segments

/-! The HTTP client of the dashboard: how it reads a failed response, whatever the body
is, and which part of the request URL may show in the error. -/
namespace NestStorageExample.Web.ApiClient
open Text Storage Json

/-- `StorageErrorCode | 'UNKNOWN'` -/
inductive ApiErrorCode where
  | known (code : ErrorCode)
  | unknown
  deriving DecidableEq

structure StorageApiError where
  code : ApiErrorCode
  message : JsString
  status : Nat
  details : Option Json

/-- What a call rejects with; `other` is a fetch that failed, or a 2xx body that is no JSON. -/
inductive ApiRejection where
  | api (error : StorageApiError)
  | typeError (error : TypeError)
  | other

/-- What the client reads of a response; `json` is `none` where `res.json()` rejects. -/
structure Response where
  status : Nat
  contentLength : Option JsString
  json : Option Json

def Response.ok (res : Response) : Bool := 200 ≤ res.status && res.status ≤ 299

/-- What the client reads of `new URL(url)`. -/
structure ParsedUrl where
  origin : JsString
  pathname : JsString

/-- The narrowed `error` of an envelope. -/
structure StorageErrorResponse where
  code : JsString
  message : JsString
  details : Option Json

inductive RequestBody (Form : Type) where
  | json (value : Json)
  | form (form : Form)

structure RequestInit (Form : Type) where
  method : JsString
  headers : List (JsString × JsString)
  body : Option (RequestBody Form)

def toCode : Option Json → ApiErrorCode
  | some (.string raw) => (ErrorCode.ofText raw).elim .unknown .known
  | _ => .unknown

/-- The tests of the guard on `v.error`; an access on `null` throws. -/
def narrowError (error : Option Json) : Except TypeError (Option StorageErrorResponse) :=
  if typeof error = .object then do
    match ← property (js "code") error with
    | some (.string code) =>
      match ← property (js "message") error with
      | some (.string message) => return some ⟨code, message, ← property (js "details") error⟩
      | _ => return none
    | _ => return none
  else return none

/-- The type guard, with what it narrows to. -/
def isErrorEnvelope : Json → Except TypeError (Option StorageErrorResponse)
  | .null => return none
  | v =>
    if typeof (some v) = .object then do
      if ← hasProperty (js "error") v then narrowError (← property (js "error") (some v)) else return none
    else return none

section Client
variable (parseUrl : JsString → Option ParsedUrl)

def maskUrl (url : JsString) : JsString :=
  match parseUrl url with
  | some u => u.origin ++ u.pathname ++ js "[query-string-redacted]"
  | none => js "[url-redacted]"

/-- The error for a body that is no envelope. -/
def unknownError (res : Response) (requestUrl : JsString) : StorageApiError where
  code := .unknown
  message := js "HTTP " ++ js (toString res.status) ++ js " from " ++ maskUrl parseUrl requestUrl
  status := res.status
  details := none

def parseError (res : Response) (requestUrl : JsString) : Except TypeError StorageApiError :=
  match res.json with
  | none => return unknownError parseUrl res requestUrl
  | some body => do
    match ← isErrorEnvelope body with
    | some envelope =>
      return ⟨toCode (some (.string envelope.code)), envelope.message, res.status, envelope.details⟩
    | none => return unknownError parseUrl res requestUrl

/-- `throw await parseError(res, url)` -/
def throwParsed {α : Type} (res : Response) (url : JsString) : Except ApiRejection α :=
  match parseError parseUrl res url with
  | .ok error => .error (.api error)
  | .error error => .error (.typeError error)

def readJson (res : Response) : Except ApiRejection (Option Json) :=
  match res.json with
  | some value => .ok (some value)
  | none => .error .other

variable {Form : Type} (fetch : JsString → RequestInit Form → Except ApiRejection Response) (apiBaseUrl : JsString)

/-- `undefined` is `none`. -/
def request (path : JsString) (init : RequestInit Form) : Except ApiRejection (Option Json) := do
  let url := apiBaseUrl ++ path
  let res ← fetch url { init with headers := (js "Content-Type", js "application/json") :: init.headers }
  if res.ok = false then throwParsed parseUrl res url
  else if res.status = 204 ∨ res.contentLength = some (js "0") then return none
  else readJson res

def apiGet (path : JsString) : Except ApiRejection (Option Json) :=
  request parseUrl fetch apiBaseUrl path ⟨js "GET", [], none⟩

def apiPost (path : JsString) (body : Option Json) : Except ApiRejection (Option Json) :=
  request parseUrl fetch apiBaseUrl path ⟨js "POST", [], body.map .json⟩

def apiDelete (path : JsString) (body : Option Json) : Except ApiRejection (Option Json) :=
  request parseUrl fetch apiBaseUrl path ⟨js "DELETE", [], body.map .json⟩

/-- No content type of its own, and no look at `Content-Length`. -/
def apiPostForm (path : JsString) (form : Form) : Except ApiRejection (Option Json) := do
  let url := apiBaseUrl ++ path
  let res ← fetch url ⟨js "POST", [], some (.form form)⟩
  if res.ok = false then throwParsed parseUrl res url
  else if res.status = 204 then return none
  else readJson res

end Client

/-- A call of one of the four exported functions, up to its path. -/
inductive ApiCall (Form : Type) where
  | get
  | post (body : Option Json)
  | delete (body : Option Json)
  | postForm (form : Form)

variable {Form : Type}

def ApiCall.run (parseUrl : JsString → Option ParsedUrl)
    (fetch : JsString → RequestInit Form → Except ApiRejection Response) (apiBaseUrl path : JsString) :
    ApiCall Form → Except ApiRejection (Option Json)
  | get => apiGet parseUrl fetch apiBaseUrl path
  | post body => apiPost parseUrl fetch apiBaseUrl path body
  | delete body => apiDelete parseUrl fetch apiBaseUrl path body
  | postForm form => apiPostForm parseUrl fetch apiBaseUrl path form

/-- The envelope of the API: an object whose `error` is an object with two strings. -/
def IsEnvelope (body : Json) (code message : JsString) : Prop :=
  ∃ entries inner, body = .object entries ∧ lookup (js "error") entries = some (.object inner) ∧
    lookup (js "code") inner = some (.string code) ∧ lookup (js "message") inner = some (.string message)

/-- The one kind of body that the guard does not survive. -/
def ErrorIsNull (body : Json) : Prop :=
  ∃ entries, body = .object entries ∧ lookup (js "error") entries = some .null

/-- Two URLs that may differ in what stands between `?` and `#`. -/
def DifferInQuery (url url' : JsString) : Prop :=
  ∃ front query query' fragment, (∀ c ∈ front, c ≠ 0x3F ∧ c ≠ 0x23) ∧ 0x23 ∉ query ∧ 0x23 ∉ query' ∧
    (fragment = [] ∨ fragment.head? = some 0x23) ∧
    url = front ++ 0x3F :: (query ++ fragment) ∧ url' = front ++ 0x3F :: (query' ++ fragment)

/-- Whether a URL parses, its origin and its path do not depend on its query. -/
def IgnoresQuery (parseUrl : JsString → Option ParsedUrl) : Prop :=
  ∀ url url', DifferInQuery url url' → parseUrl url = parseUrl url'

/-- What a failed response becomes: a typed error with the response's status, the code of a
known envelope, and a message that is the server's own or says nothing of the query. -/
structure FailsTyped (call : JsString → Except ApiRejection (Option Json)) (apiBaseUrl path : JsString)
    (res : Response) (error : StorageApiError) : Prop where
  rejects : call path = .error (.api error)
  status : error.status = res.status
  code : ∀ code, error.code = .known code ↔ ∃ body message, res.json = some body ∧ IsEnvelope body code.text message
  ownMessage : ∀ body code message, res.json = some body → IsEnvelope body code message → error.message = message
  maskedMessage : (¬ ∃ body code message, res.json = some body ∧ IsEnvelope body code message) →
    ∀ path', DifferInQuery (apiBaseUrl ++ path) (apiBaseUrl ++ path') →
      ∃ error', call path' = .error (.api error') ∧ error'.message = error.message

section Envelope

theorem narrowError_null : narrowError (some .null) = .error ⟨"Cannot read properties of null"⟩ := rfl

/-- What the tests say of an `error` that is an object: they let exactly the two strings through. -/
theorem narrowError_object (inner : List (JsString × Json)) :
    (∃ code message, lookup (js "code") inner = some (.string code) ∧
      lookup (js "message") inner = some (.string message) ∧
      narrowError (some (.object inner)) = .ok (some ⟨code, message, lookup (js "details") inner⟩)) ∨
    ((∀ code message, lookup (js "code") inner = some (.string code) →
      lookup (js "message") inner ≠ some (.string message)) ∧ narrowError (some (.object inner)) = .ok none) := by
  have hrun : narrowError (some (.object inner)) = (match lookup (js "code") inner with
      | some (.string code) => match lookup (js "message") inner with
        | some (.string message) => .ok (some ⟨code, message, lookup (js "details") inner⟩)
        | _ => .ok none
      | _ => .ok none) := rfl
  rw [hrun]
  split
  · rename_i code hcode
    split
    · rename_i message hmessage
      exact Or.inl ⟨code, message, hcode, hmessage, rfl⟩
    · rename_i hmessage
      exact Or.inr ⟨fun _ message _ h => hmessage message h, rfl⟩
  · rename_i hcode
    exact Or.inr ⟨fun code _ h => absurd h (hcode code), rfl⟩

theorem isErrorEnvelope_object (entries : List (JsString × Json)) :
    isErrorEnvelope (.object entries) =
      if (lookup (js "error") entries).isSome then narrowError (lookup (js "error") entries) else .ok none := rfl

theorem IsEnvelope.not_null {body : Json} {code message : JsString} (h : IsEnvelope body code message) :
    ¬ ErrorIsNull body := by
  obtain ⟨entries, inner, rfl, hinner, -⟩ := h
  rintro ⟨_, ⟨rfl⟩, hnull⟩
  rw [hinner] at hnull
  cases hnull

theorem IsEnvelope.unique {body : Json} {code message code' message' : JsString} (h : IsEnvelope body code message)
    (h' : IsEnvelope body code' message') : code = code' ∧ message = message' := by
  obtain ⟨entries, inner, rfl, hinner, hcode, hmessage⟩ := h
  obtain ⟨_, inner', ⟨rfl⟩, hinner', hcode', hmessage'⟩ := h'
  rw [hinner, Option.some.injEq, object.injEq] at hinner'
  subst hinner'
  rw [hcode, Option.some.injEq, string.injEq] at hcode'
  rw [hmessage, Option.some.injEq, string.injEq] at hmessage'
  exact ⟨hcode', hmessage'⟩

/-- An object whose `error` is neither `null` nor an object is nothing special. -/
theorem plain_of_error {entries : List (JsString × Json)} (hnull : lookup (js "error") entries ≠ some .null)
    (hobject : ∀ inner, lookup (js "error") entries ≠ some (.object inner)) :
    ¬ ErrorIsNull (.object entries) ∧ ∀ code message, ¬ IsEnvelope (.object entries) code message := by
  constructor
  · rintro ⟨_, ⟨rfl⟩, h⟩
    exact hnull h
  · rintro code message ⟨_, inner, ⟨rfl⟩, h, -⟩
    exact hobject inner h

/-- The guard on every JSON value: it throws on a `null` error, narrows an envelope, and
says no to the rest. -/
theorem isErrorEnvelope_cases (body : Json) :
    (ErrorIsNull body ∧ isErrorEnvelope body = .error ⟨"Cannot read properties of null"⟩) ∨
    (∃ code message details, IsEnvelope body code message ∧
      isErrorEnvelope body = .ok (some ⟨code, message, details⟩)) ∨
    (¬ ErrorIsNull body ∧ (∀ code message, ¬ IsEnvelope body code message) ∧ isErrorEnvelope body = .ok none) := by
  have hprimitive (h : ∀ entries, body ≠ .object entries) :
      ¬ ErrorIsNull body ∧ ∀ code message, ¬ IsEnvelope body code message := by
    constructor
    · rintro ⟨entries, he, -⟩
      exact h entries he
    · rintro code message ⟨entries, _, he, -⟩
      exact h entries he
  cases body with
  | object entries =>
    rw [isErrorEnvelope_object]
    cases herror : lookup (js "error") entries with
    | none =>
      obtain ⟨hnull, henvelope⟩ := @plain_of_error entries (by simp [herror]) (by simp [herror])
      exact Or.inr (Or.inr ⟨hnull, henvelope, rfl⟩)
    | some error =>
      rw [Option.isSome_some, if_pos rfl]
      cases error with
      | null => exact Or.inl ⟨⟨entries, rfl, herror⟩, narrowError_null⟩
      | object inner =>
        obtain ⟨code, message, hcode, hmessage, hrun⟩ | ⟨hnot, hrun⟩ := narrowError_object inner
        · exact Or.inr (Or.inl ⟨code, message, _, ⟨entries, inner, rfl, herror, hcode, hmessage⟩, hrun⟩)
        · refine Or.inr (Or.inr ⟨?_, ?_, hrun⟩)
          · rintro ⟨_, ⟨rfl⟩, hnull⟩
            rw [herror] at hnull
            cases hnull
          · rintro code message ⟨_, inner', ⟨rfl⟩, hinner, hcode, hmessage⟩
            rw [herror, Option.some.injEq, object.injEq] at hinner
            subst hinner
            exact hnot code message hcode hmessage
      | _ =>
        obtain ⟨hnull, henvelope⟩ := @plain_of_error entries (by simp [herror]) (by simp [herror])
        exact Or.inr (Or.inr ⟨hnull, henvelope, rfl⟩)
  | _ =>
    obtain ⟨hnull, henvelope⟩ := hprimitive (fun entries => by simp)
    exact Or.inr (Or.inr ⟨hnull, henvelope, rfl⟩)

end Envelope

section Calls
variable {parseUrl : JsString → Option ParsedUrl} {Form : Type}

/-- Whichever function was called, a failed response is parsed the same way. -/
theorem run_failed (parseUrl : JsString → Option ParsedUrl) (call : ApiCall Form) (apiBaseUrl path : JsString)
    {res : Response} (hres : res.ok = false) :
    call.run parseUrl (fun _ _ => .ok res) apiBaseUrl path = throwParsed parseUrl res (apiBaseUrl ++ path) := by
  cases call <;> exact if_pos hres

theorem throwParsed_of_json (parseUrl : JsString → Option ParsedUrl) {res : Response} {body : Json}
    (hbody : res.json = some body) (url : JsString) :
    (throwParsed parseUrl res url : Except ApiRejection (Option Json)) = match isErrorEnvelope body with
      | .ok (some envelope) => .error (.api ⟨toCode (some (.string envelope.code)), envelope.message, res.status,
          envelope.details⟩)
      | .ok none => .error (.api (unknownError parseUrl res url))
      | .error error => .error (.typeError error) := by
  rw [throwParsed, parseError, hbody]
  cases h : isErrorEnvelope body with
  | error error => simp [h, bind, Except.bind]
  | ok envelope => cases envelope <;> simp [h, bind, Except.bind, pure, Except.pure]

theorem toCode_eq_known_iff (raw : JsString) (code : ErrorCode) :
    toCode (some (.string raw)) = .known code ↔ raw = code.text := by
  rw [← ErrorCode.ofText_eq_some_iff, toCode]
  cases ErrorCode.ofText raw <;> simp

theorem unknownError_message (hparse : IgnoresQuery parseUrl) (res : Response) {url url' : JsString}
    (h : DifferInQuery url url') :
    (unknownError parseUrl res url').message = (unknownError parseUrl res url).message := by
  rw [unknownError, unknownError, maskUrl, maskUrl, hparse url url' h]

/-- A failed response whose body does not parse, or is no envelope. -/
theorem failsTyped_unknown (hparse : IgnoresQuery parseUrl) {call : JsString → Except ApiRejection (Option Json)}
    {apiBaseUrl : JsString} {res : Response}
    (hcall : ∀ path, call path = .error (.api (unknownError parseUrl res (apiBaseUrl ++ path))))
    (hplain : ∀ body code message, res.json = some body → ¬ IsEnvelope body code message) (path : JsString) :
    FailsTyped call apiBaseUrl path res (unknownError parseUrl res (apiBaseUrl ++ path)) where
  rejects := hcall path
  status := rfl
  code code := by
    refine iff_of_false (fun h => by cases h) ?_
    rintro ⟨body, message, hbody, henvelope⟩
    exact hplain body _ message hbody henvelope
  ownMessage body code message hbody henvelope := absurd henvelope (hplain body code message hbody)
  maskedMessage _ path' hdiffer := ⟨_, hcall path', unknownError_message hparse res hdiffer⟩

/-- A failed response becomes a typed error exactly where its body is not an object
with a `null` error. -/
theorem failed_response_typed_iff (hparse : IgnoresQuery parseUrl) (call : ApiCall Form) (apiBaseUrl path : JsString)
    {res : Response} (hres : res.ok = false) :
    (∃ error, FailsTyped (fun path => call.run parseUrl (fun _ _ => .ok res) apiBaseUrl path) apiBaseUrl path res
      error) ↔ ∀ body, res.json = some body → ¬ ErrorIsNull body := by
  have hrun (path : JsString) := run_failed parseUrl call apiBaseUrl path hres
  cases hbody : res.json with
  | none =>
    refine iff_of_true ⟨_, failsTyped_unknown hparse (fun path => ?_) ?_ path⟩ (fun body h => by cases h)
    · rw [hrun, throwParsed, parseError, hbody]
      rfl
    · intro body code message h
      rw [hbody] at h
      cases h
  | some body =>
    simp only [Option.some.injEq, forall_eq']
    have hthrow (path : JsString) := (hrun path).trans (throwParsed_of_json parseUrl hbody _)
    obtain ⟨hnull, hguard⟩ | ⟨code, message, details, henvelope, hguard⟩ | ⟨hnull, hplain, hguard⟩ :=
      isErrorEnvelope_cases body
    · -- the guard's own access throws, and that error is what the call rejects with
      refine iff_of_false ?_ (fun h => h hnull)
      rintro ⟨error, htyped⟩
      have hrejects := htyped.rejects
      rw [hthrow, hguard] at hrejects
      cases hrejects
    · simp only [hguard] at hthrow
      refine iff_of_true ⟨_, hthrow path, rfl, fun known => ?_, ?_, fun hno => ?_⟩ henvelope.not_null
      · rw [toCode_eq_known_iff]
        constructor
        · rintro rfl
          exact ⟨body, message, hbody, henvelope⟩
        · rintro ⟨body', message', hbody', henvelope'⟩
          rw [hbody, Option.some.injEq] at hbody'
          subst hbody'
          exact (henvelope.unique henvelope').1
      · intro body' code' message' hbody' henvelope'
        rw [hbody, Option.some.injEq] at hbody'
        subst hbody'
        exact (henvelope.unique henvelope').2
      · exact absurd ⟨body, code, message, hbody, henvelope⟩ hno
    · simp only [hguard] at hthrow
      refine iff_of_true ⟨_, failsTyped_unknown hparse hthrow ?_ path⟩ hnull
      intro body' code message hbody'
      rw [hbody, Option.some.injEq] at hbody'
      subst hbody'
      exact hplain code message

end Calls

/-- Origin and path of an absolute URL, cut at the slashes. -/
def splitUrl (url : JsString) : Option ParsedUrl :=
  match splitSlash (url.takeWhile (fun c => c != 0x3F && c != 0x23)) with
  | scheme :: [] :: host :: rest => some ⟨joinSlash [scheme, [], host], slash :: joinSlash rest⟩
  | _ => none

theorem splitUrl_ignoresQuery : IgnoresQuery splitUrl := by
  rintro _ _ ⟨front, query, query', fragment, hfront, -, -, -, rfl, rfl⟩
  have hcut (rest : JsString) : (front ++ 0x3F :: rest).takeWhile (fun c => c != 0x3F && c != 0x23) = front := by
    have hkeep : ∀ c ∈ front, (c != 0x3F && c != 0x23) = true := fun c hc => by simp [hfront c hc]
    rw [List.takeWhile_append_of_pos hkeep]
    simp
  rw [splitUrl, splitUrl, hcut, hcut]

def notFoundEnvelope : Json :=
  .object [(js "error", .object [(js "code", .string (js "STORAGE_OBJECT_NOT_FOUND")),
    (js "message", .string (js "Object not found"))])]

theorem not_found_fails_typed : ∃ error, FailsTyped
    (fun path => (ApiCall.get : ApiCall Unit).run splitUrl (fun _ _ => .ok ⟨404, none, some notFoundEnvelope⟩)
      (js "http://localhost:3001") path)
    (js "http://localhost:3001") (js "/objects/a?bucket=vault") ⟨404, none, some notFoundEnvelope⟩ error := by
  apply (failed_response_typed_iff splitUrl_ignoresQuery .get _ _ rfl).mpr
  rintro _ ⟨rfl⟩
  exact IsEnvelope.not_null ⟨_, _, rfl, rfl, rfl, rfl⟩

/-- A body `{"error": null}` surfaces as a `TypeError`, through `request` and through `apiPostForm`. -/
theorem null_error_throws_type_error :
    (ApiCall.get : ApiCall Unit).run splitUrl
        (fun _ _ => .ok ⟨500, none, some (.object [(js "error", .null)])⟩) (js "http://localhost:3001") (js "/health") =
      .error (.typeError ⟨"Cannot read properties of null"⟩) ∧
    (ApiCall.postForm ()).run splitUrl
        (fun _ _ => .ok ⟨500, none, some (.object [(js "error", .null)])⟩) (js "http://localhost:3001") (js "/health") =
      .error (.typeError ⟨"Cannot read properties of null"⟩) :=
  ⟨rfl, rfl⟩

end NestStorageExample.Web.ApiClient
