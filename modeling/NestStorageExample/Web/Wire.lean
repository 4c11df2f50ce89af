import NestStorageExample.Api.ExistenceProbes
import NestStorageExample.Api.RequestSchemas
import NestStorageExample.Api.VaultDownloads
import NestStorageExample.Text.JsonText
import NestStorageExample.Text.TextCodec
import NestStorageExample.Web.ApiClient
import NestStorageExample.Web.Responses

/-! Both ends of a request: the body that the dashboard writes, the pipe, the handler, the
filter and the answer, and what the client makes of that answer. Nest and Express are a
parameter with what their documentation says of them. -/
namespace NestStorageExample.Web.Wire
open Text Storage Validation Api ApiClient

structure HttpAnswer where
  status : Nat
  contentLength : Option JsString
  body : List Byte

/-- What `fetch` resolves to; `res.json()` decodes and parses the body. -/
def receive (answer : HttpAnswer) : Response :=
  ⟨answer.status, answer.contentLength, parseJson (decodeText answer.body)⟩

structure HttpException where
  status : Nat
  response : Json

/-- A `StorageException` as the filter meets it. -/
structure RaisedException where
  status : Nat
  code : ErrorCode
  message : JsString
  details : Option Json

/-- `getResponse()`, the public envelope. -/
def RaisedException.response (exception : RaisedException) : Json :=
  .object [(js "error", .object ([(js "code", .string exception.code.text),
    (js "message", .string exception.message)] ++ Json.optionalField "details" exception.details))]

/-- `response.status(status).json(body)`, what becomes of a handler's value, the handler of
every exception that no filter catches (`none` is no `HttpException`), and the body parser. -/
structure Platform where
  json : Nat → Json → HttpAnswer
  reply : Nat → Json → HttpAnswer
  defaultHandler : Option HttpException → HttpAnswer
  readBody : List Byte → Except HttpException Json

def internalServerError : Json :=
  .object [(js "statusCode", .number (.finite 500)), (js "message", .string (js "Internal server error"))]

/-- What Nest makes of the errors of the body parser, -/
def httpError (status : Nat) (message : JsString) : HttpException :=
  ⟨status, .object [(js "statusCode", .number (.finite status)), (js "message", .string message)]⟩

/-- and the exceptions that it throws itself. -/
def nestException (status : Nat) (message error : JsString) : HttpException :=
  ⟨status, .object [(js "message", .string message), (js "error", .string error),
    (js "statusCode", .number (.finite status))]⟩

def payloadTooLarge : HttpException := httpError 413 (js "request entity too large")

/-- An object or an array. -/
inductive IsComposite : Json → Prop where
  | array (items : List Json) : IsComposite (.array items)
  | object (entries : List (JsString × Json)) : IsComposite (.object entries)

/-- The default limit of the body parser, 100kb. -/
def bodyLimit : Nat := 100 * 1024

/-- The JSON text and its length in bytes; the three statuses without a body are left out. -/
structure Platform.Documented (platform : Platform) : Prop where
  json : ∀ status value text, status ∉ [204, 205, 304] → stringify value = some text →
    platform.json status value = ⟨status, some (decimal (byteLength text)), encodeUtf8 text⟩
  reply : ∀ status value, IsComposite value → platform.reply status value = platform.json status value
  httpException : ∀ exception, platform.defaultHandler (some exception) =
    platform.json exception.status exception.response
  otherError : platform.defaultHandler none = platform.json 500 internalServerError
  readBody : ∀ bytes value, bytes.length ≤ bodyLimit → IsComposite value → parseJson (decodeText bytes) = some value →
    platform.readBody bytes = .ok value
  tooLarge : ∀ bytes, bodyLimit < bytes.length → platform.readBody bytes = .error payloadTooLarge

def ValidationErrorBody.toJson (body : ValidationErrorBody) : Json :=
  .object [(js "error", .object [(js "code", .string (js body.code)),
    (js "issues", .array (body.issues.map fun issue =>
      .object [(js "path", .string issue.path), (js "message", .string (js issue.message))]))])]

/-- The `BadRequestException` of the pipe. -/
def badRequest (body : ValidationErrorBody) : HttpException := ⟨400, ValidationErrorBody.toJson body⟩

/-- A body whose `error` has a code and a message. -/
def envelopeJson (error : ErrorEnvelope) : Json :=
  .object [(js "error", .object ([(js "code", .string (js error.code)), (js "message", .string error.message)] ++
    error.details.map fun detail => (js detail.1, .number (.finite detail.2))))]

/-- The `BadRequestException` of an upload without a file. -/
def fileRequired : HttpException := ⟨400, envelopeJson ⟨"VALIDATION", js "file is required", []⟩⟩

def sessionNotFound (exception : NotFoundException) : HttpException :=
  ⟨404, .object [(js "error", .object [(js "code", .string (js exception.code))])]⟩

def HealthStatus.text : HealthStatus → JsString
  | .up => js "up"
  | .down => js "down"

def unavailable (exception : ServiceUnavailableException) : HttpException :=
  ⟨exception.getStatus, .object [(js "status", .string (HealthStatus.text exception.report.status)),
    (js "latencyMs", .number (.finite exception.report.latencyMs)), (js "bucket", .string exception.report.bucket)]⟩

/-- Every `HttpException` that a pipe, a controller or a service of the API throws, and those of
Nest and the body parser. -/
inductive HttpException.Thrown : HttpException → Prop where
  | validation (body : ValidationErrorBody) : Thrown (badRequest body)
  | fileRequired : Thrown fileRequired
  | sessionNotFound (exception : NotFoundException) : Thrown (sessionNotFound exception)
  | previewSizeExceeded (size : Nat) : Thrown ⟨413, envelopeJson (VaultService.previewSizeExceeded size)⟩
  | rangeInvalid (start stop : Rat) : Thrown ⟨400, envelopeJson (VaultService.rangeInvalid start stop)⟩
  | rangeTooLarge (rawBytes base64Bytes : Rat) :
    Thrown ⟨413, envelopeJson (VaultService.rangeTooLarge rawBytes base64Bytes)⟩
  | unavailable (exception : ServiceUnavailableException) : Thrown (unavailable exception)
  | httpError {status : Nat} (hstatus : 400 ≤ status) (message : JsString) : Thrown (httpError status message)
  | nest {status : Nat} (hstatus : 400 ≤ status) (message error : JsString) :
    Thrown (nestException status message error)

/-- What the library's objects look like in JSON, and the answer to each of its exceptions. -/
structure LibraryJson where
  result : UploadResult → Json
  metadata : ObjectMetadata → Json
  raised : StorageException → RaisedException

structure LibraryJson.Documented (library : LibraryJson) : Prop where
  result : ∀ result, Plain (library.result result)
  metadata : ∀ metadata, Plain (library.metadata metadata)
  status : ∀ exception, 400 ≤ (library.raised exception).status
  details : ∀ exception, ∀ details ∈ (library.raised exception).details, Plain details

/-- How a request ends in the API. -/
inductive Outcome where
  | value (status : Nat) (value : Json)
  | storageException (exception : RaisedException)
  | httpException (exception : HttpException)
  | otherError

/-- The values that the text of JSON carries unchanged, with the statuses of a success or of
a failure, and bodies that the client's guard reads without a throw. -/
inductive Outcome.Writable : Outcome → Prop where
  | value {status : Nat} {value : Json} (hok : 200 ≤ status ∧ status ≤ 299) (hbody : status ≠ 204 ∧ status ≠ 205)
      (hcomposite : IsComposite value) (hplain : Plain value) : Outcome.Writable (.value status value)
  | storageException {exception : RaisedException} (hstatus : 400 ≤ exception.status)
      (hdetails : ∀ details ∈ exception.details, Plain details) : Outcome.Writable (.storageException exception)
  | httpException {exception : HttpException} (hstatus : 400 ≤ exception.status) (hplain : Plain exception.response)
      (hread : ∃ envelope, isErrorEnvelope exception.response = .ok envelope) :
      Outcome.Writable (.httpException exception)
  | otherError : Outcome.Writable .otherError

/-- `StorageExceptionFilter.catch` -/
def StorageExceptionFilter.catch (platform : Platform) (exception : RaisedException) : HttpAnswer :=
  platform.json exception.status exception.response

def Platform.respond (platform : Platform) : Outcome → HttpAnswer
  | .value status value => platform.reply status value
  | .storageException exception => StorageExceptionFilter.catch platform exception
  | .httpException exception => platform.defaultHandler (some exception)
  | .otherError => platform.defaultHandler none

section Exchange
variable {W : Type}

/-- What a handler makes of the body that its pipe let through. -/
abbrev Handler (W : Type) := Option Json → W → Outcome × W

/-- The route, called with the body itself. -/
def direct (schema : Schema) (handler : Handler W) (body : Option Json) (w : W) : Outcome × W :=
  match ZodValidationPipe.transform schema body with
  | .ok value => handler value w
  | .error rejected => (.httpException (badRequest rejected), w)

/-- The route, with what came of the body on the network. -/
def serve (platform : Platform) (schema : Schema) (handler : Handler W) (bytes : Option (List Byte)) (w : W) :
    Outcome × W :=
  match bytes with
  | none => direct schema handler none w
  | some bytes => match platform.readBody bytes with
    | .ok body => direct schema handler (some body) w
    | .error exception => (.httpException exception, w)

/-- `fetch`, with the API at the other end: a body is sent as text. -/
def network (platform : Platform) (schema : Schema) (handler : Handler W) (init : RequestInit Empty) (w : W) :
    Except ApiRejection Response × W :=
  let sent (bytes : Option (List Byte)) : Except ApiRejection Response × W :=
    let (outcome, w') := serve platform schema handler bytes w
    (.ok (receive (platform.respond outcome)), w')
  match init.body with
  | none => sent none
  | some (.json body) => match stringify body with
    | some text => sent (some (encodeUtf8 text))
    | none => (.error .other, w)
  | some (.form form) => form.elim

/-- What the call hands to `fetch`. -/
def sentInit {Form : Type} : ApiCall Form → RequestInit Form
  | .get => ⟨js "GET", [(js "Content-Type", js "application/json")], none⟩
  | .post body => ⟨js "POST", [(js "Content-Type", js "application/json")], body.map .json⟩
  | .delete body => ⟨js "DELETE", [(js "Content-Type", js "application/json")], body.map .json⟩
  | .postForm form => ⟨js "POST", [], some (.form form)⟩

/-- A call without a form, with the API behind it; it fetches once. -/
def exchange (parseUrl : JsString → Option ParsedUrl) (platform : Platform) (schema : Schema) (handler : Handler W)
    (apiBaseUrl path : JsString) (call : ApiCall Empty) (w : W) : Except ApiRejection (Option Json) × W :=
  (call.run parseUrl (fun _ init => (network platform schema handler init w).1) apiBaseUrl path,
    (network platform schema handler (sentInit call) w).2)

end Exchange

/-- The error of an answer that the client cannot read as an envelope. -/
def unreadError (parseUrl : JsString → Option ParsedUrl) (status : Nat) (url : JsString) : StorageApiError :=
  unknownError parseUrl ⟨status, none, none⟩ url

/-- What the dashboard has of an outcome: the value, or the library's own code, message and
details, or what an envelope of the API tells, or nothing but the status. -/
def Outcome.seen (parseUrl : JsString → Option ParsedUrl) (url : JsString) :
    Outcome → Except ApiRejection (Option Json)
  | .value _ returned => .ok (some returned)
  | .storageException exception =>
    .error (.api ⟨.known exception.code, exception.message, exception.status, exception.details⟩)
  | .httpException exception => .error (.api (match isErrorEnvelope exception.response with
      | .ok (some read) => ⟨toCode (some (.string read.code)), read.message, exception.status, read.details⟩
      | _ => unreadError parseUrl exception.status url))
  | .otherError => .error (.api (unreadError parseUrl 500 url))

section Texts

theorem decodeText_written {value : Json} {text : JsString} (h : Written value text) :
    decodeText (encodeUtf8 text) = text :=
  decodeText_encodeUtf8 h.wellFormed (fun u hu => (h.begins u hu).1)

theorem byteLength_written {value : Json} {text : JsString} (h : Written value text) : byteLength text ≠ 0 := by
  have hpos := List.length_pos_iff.mpr h.ne_nil
  have hle := length_le_byteLength text
  omega

theorem decimal_ne_zero {n : Nat} (h : n ≠ 0) : decimal n ≠ js "0" := by
  intro hzero
  have hread := readDecimal_decimal n
  rw [hzero] at hread
  exact h hread.symm

/-- None of the statuses of a failure is without a body. -/
theorem failed_written {status : Nat} (h : 400 ≤ status) : status ∉ [204, 205, 304] := by
  simp only [List.mem_cons, List.not_mem_nil, or_false]
  omega

theorem receive_json {platform : Platform} (hplatform : platform.Documented) {status : Nat}
    (hstatus : status ∉ [204, 205, 304]) {value : Json} (hplain : Plain value) :
    ∃ length : Nat, length ≠ 0 ∧
      receive (platform.json status value) = ⟨status, some (decimal length), some value⟩ := by
  obtain ⟨text, htext, hwritten⟩ := hplain.written
  refine ⟨byteLength text, byteLength_written hwritten, ?_⟩
  rw [hplatform.json status value text hstatus htext, receive]
  dsimp only
  rw [decodeText_written hwritten, parseJson_stringify hplain htext]

/-- The body parser gives the pipe the value that the dashboard wrote. -/
theorem readBody_stringify {platform : Platform} (hplatform : platform.Documented) {body : Json}
    (hcomposite : IsComposite body) (hplain : Plain body) {text : JsString} (htext : stringify body = some text)
    (hlimit : byteLength text ≤ bodyLimit) : platform.readBody (encodeUtf8 text) = .ok body := by
  obtain ⟨text', htext', hwritten⟩ := hplain.written
  obtain rfl := Option.some.inj (htext.symm.trans htext')
  apply hplatform.readBody _ _ hlimit hcomposite
  rw [decodeText_written hwritten, parseJson_stringify hplain htext]

end Texts

section Bodies

theorem plain_pair {name name' : JsString} (hname : name ≠ name') {value value' : Json} (h : Plain value)
    (h' : Plain value') : Plain (.object [(name, value), (name', value')]) := by
  apply Plain.object
  · simpa using hname
  · intro entry hentry
    simp only [List.mem_cons, List.not_mem_nil, or_false] at hentry
    obtain rfl | rfl := hentry
    · exact h
    · exact h'

theorem plain_single (name : JsString) {value : Json} (h : Plain value) : Plain (.object [(name, value)]) := by
  apply Plain.object
  · simp
  · intro entry hentry
    rw [List.mem_singleton.mp hentry]
    exact h

theorem code_ne_message : js "code" ≠ js "message" := by decide

theorem plain_response {exception : RaisedException} (h : ∀ details ∈ exception.details, Plain details) :
    Plain exception.response := by
  apply plain_single
  cases hdetails : exception.details with
  | none => exact plain_pair code_ne_message (.string _) (.string _)
  | some details =>
    apply Plain.object
    · simp [Json.optionalField]
      decide
    · intro field hfield
      simp only [Json.optionalField, Option.toList_some, List.map_cons, List.map_nil, List.cons_append,
        List.nil_append, List.mem_cons, List.not_mem_nil, or_false] at hfield
      obtain rfl | rfl | rfl := hfield
      · exact .string _
      · exact .string _
      · exact h details hdetails

theorem plain_validation (body : ValidationErrorBody) : Plain (ValidationErrorBody.toJson body) := by
  apply plain_single
  apply plain_pair (by decide) (.string _)
  apply Plain.array
  intro item hitem
  obtain ⟨issue, -, rfl⟩ := List.mem_map.mp hitem
  exact plain_pair (by decide) (.string _) (.string _)

theorem plain_message (status : Nat) (hstatus : status ≤ 2 ^ 53) (message : JsString) :
    Plain (.object [(js "statusCode", .number (.finite status)), (js "message", .string message)]) :=
  plain_pair (by decide) (.number (n := status) hstatus) (.string message)

theorem plain_internalServerError : Plain internalServerError := plain_message 500 (by decide) _

theorem plain_payloadTooLarge : Plain payloadTooLarge.response := plain_message 413 (by decide) _

end Bodies

section Client
variable {parseUrl : JsString → Option ParsedUrl} {Form : Type}

/-- Each call fetches once. -/
theorem run_eq (fetch : JsString → RequestInit Form → Except ApiRejection Response) (call : ApiCall Form)
    (apiBaseUrl path : JsString) : call.run parseUrl fetch apiBaseUrl path =
      call.run parseUrl (fun _ _ => fetch (apiBaseUrl ++ path) (sentInit call)) apiBaseUrl path := by
  cases call <;> rfl

theorem run_success (call : ApiCall Form) (apiBaseUrl path : JsString) {status length : Nat} {value : Json}
    (hok : 200 ≤ status ∧ status ≤ 299) (hstatus : status ≠ 204) (hlength : length ≠ 0) :
    call.run parseUrl (fun _ _ => .ok ⟨status, some (decimal length), some value⟩) apiBaseUrl path =
      .ok (some value) := by
  have hres : Response.ok ⟨status, some (decimal length), some value⟩ = true := by
    simp [Response.ok, hok.1, hok.2]
  have hzero : ¬ some (decimal length) = some (js "0") := by simpa using decimal_ne_zero hlength
  cases call <;>
    simp [ApiCall.run, apiGet, apiPost, apiDelete, apiPostForm, request, readJson, bind, Except.bind, hres, hstatus,
      hzero]

/-- A failed answer with a JSON body, whichever function was called. -/
theorem run_failed_json (call : ApiCall Form) (apiBaseUrl path : JsString) {status : Nat} (hstatus : 300 ≤ status)
    {length : Option JsString} {body : Json} {envelope : Option StorageErrorResponse}
    (henvelope : isErrorEnvelope body = .ok envelope) :
    call.run parseUrl (fun _ _ => .ok ⟨status, length, some body⟩) apiBaseUrl path = .error (.api (envelope.elim
      (unreadError parseUrl status (apiBaseUrl ++ path)) fun read =>
        ⟨toCode (some (.string read.code)), read.message, status, read.details⟩)) := by
  have hres : Response.ok ⟨status, length, some body⟩ = false := by
    simp only [Response.ok, Bool.and_eq_false_imp, decide_eq_true_eq, decide_eq_false_iff_not]
    omega
  rw [run_failed parseUrl call apiBaseUrl path hres, throwParsed_of_json parseUrl rfl, henvelope]
  cases envelope <;> rfl

theorem isErrorEnvelope_response (exception : RaisedException) :
    isErrorEnvelope exception.response = .ok (some ⟨exception.code.text, exception.message, exception.details⟩) := by
  obtain ⟨status, code, message, _ | details⟩ := exception <;> rfl

/-- A validation body has no `message`, so it is no envelope. -/
theorem isErrorEnvelope_validation (body : ValidationErrorBody) :
    isErrorEnvelope (ValidationErrorBody.toJson body) = .ok none := rfl

theorem isErrorEnvelope_internalServerError : isErrorEnvelope internalServerError = .ok none := rfl

end Client

section Thrown

/-- The codes of the API's own envelopes. -/
def ownCodes : List String := ["VALIDATION", "PREVIEW_SIZE_EXCEEDED", "RANGE_INVALID", "RANGE_TOO_LARGE"]

/-- What the guard may make of a body that is not the library's. -/
def ReadAsOwn (response : Json) : Prop :=
  ∃ envelope, isErrorEnvelope response = .ok envelope ∧ ∀ read ∈ envelope, ErrorCode.ofText read.code = none

theorem ownCodes_unknown : ∀ code ∈ ownCodes, ErrorCode.ofText (js code) = none := by decide

/-- Further numbers beside the message are not its `details`. -/
theorem isErrorEnvelope_envelopeJson {error : ErrorEnvelope}
    (h : ∀ detail ∈ error.details, js detail.1 ≠ js "details") :
    isErrorEnvelope (envelopeJson error) = .ok (some ⟨js error.code, error.message, none⟩) := by
  have hnone : Json.lookup (js "details")
      (error.details.map fun detail => (js detail.1, Json.number (.finite detail.2))) = none := by
    rw [Json.lookup, List.find?_eq_none.mpr, Option.map_none]
    intro entry hentry
    obtain ⟨detail, hdetail, rfl⟩ := List.mem_map.mp hentry
    simpa using h detail hdetail
  change Except.ok (some (StorageErrorResponse.mk (js error.code) error.message (Json.lookup (js "details")
    (error.details.map fun detail => (js detail.1, Json.number (.finite detail.2)))))) = _
  rw [hnone]

theorem readAsOwn_envelope {error : ErrorEnvelope} (hcode : error.code ∈ ownCodes)
    (hdetails : ∀ detail ∈ error.details, js detail.1 ≠ js "details") : ReadAsOwn (envelopeJson error) := by
  refine ⟨_, isErrorEnvelope_envelopeJson hdetails, fun read h => ?_⟩
  obtain rfl := Option.some.inj h
  exact ownCodes_unknown error.code hcode

theorem readAsOwn_none {response : Json} (hread : isErrorEnvelope response = .ok none) : ReadAsOwn response :=
  ⟨none, hread, by simp⟩

theorem HttpException.Thrown.readAsOwn {exception : HttpException} (h : exception.Thrown) :
    ReadAsOwn exception.response := by
  cases h with
  | validation body => exact readAsOwn_none (isErrorEnvelope_validation body)
  | fileRequired => exact readAsOwn_envelope (by decide) (by decide)
  | sessionNotFound exception => exact readAsOwn_none rfl
  | previewSizeExceeded size =>
    refine readAsOwn_envelope (by decide : "PREVIEW_SIZE_EXCEEDED" ∈ ownCodes) fun detail hdetail => ?_
    obtain rfl | rfl := List.mem_pair.mp hdetail
    · exact (by decide : js "limit" ≠ js "details")
    · exact (by decide : js "actual" ≠ js "details")
  | rangeInvalid start stop => exact readAsOwn_envelope (by decide : "RANGE_INVALID" ∈ ownCodes) (fun _ h => by cases h)
  | rangeTooLarge rawBytes base64Bytes =>
    refine readAsOwn_envelope (by decide : "RANGE_TOO_LARGE" ∈ ownCodes) fun detail hdetail => ?_
    obtain rfl := List.mem_singleton.mp hdetail
    exact (by decide : js "maxBase64Bytes" ≠ js "details")
  | unavailable exception => exact readAsOwn_none rfl
  | httpError hstatus message => exact readAsOwn_none rfl
  | nest hstatus message error => exact readAsOwn_none rfl

theorem HttpException.Thrown.status {exception : HttpException} (h : exception.Thrown) : 400 ≤ exception.status := by
  cases h with
  | validation body => exact Nat.le_refl 400
  | fileRequired => exact Nat.le_refl 400
  | sessionNotFound exception => exact (by decide : 400 ≤ 404)
  | previewSizeExceeded size => exact (by decide : 400 ≤ 413)
  | rangeInvalid start stop => exact Nat.le_refl 400
  | rangeTooLarge rawBytes base64Bytes => exact (by decide : 400 ≤ 413)
  | unavailable exception => exact (by decide : 400 ≤ 503)
  | httpError hstatus message => exact hstatus
  | nest hstatus message error => exact hstatus

theorem HttpException.Thrown.writable {exception : HttpException} (h : exception.Thrown)
    (hplain : Plain exception.response) : Outcome.Writable (.httpException exception) := by
  obtain ⟨envelope, hread, -⟩ := h.readAsOwn
  exact .httpException h.status hplain ⟨envelope, hread⟩

end Thrown

section Arrival
variable {platform : Platform} {parseUrl : JsString → Option ParsedUrl} {W Form : Type}

theorem badRequest_writable (body : ValidationErrorBody) : Outcome.Writable (.httpException (badRequest body)) :=
  (HttpException.Thrown.validation body).writable (plain_validation body)

theorem payloadTooLarge_writable : Outcome.Writable (.httpException payloadTooLarge) :=
  (HttpException.Thrown.httpError (by decide) _).writable plain_payloadTooLarge

theorem answers_read (hplatform : platform.Documented) (call : ApiCall Form) (apiBaseUrl path : JsString)
    {outcome : Outcome} (houtcome : outcome.Writable) :
    call.run parseUrl (fun _ _ => .ok (receive (platform.respond outcome))) apiBaseUrl path =
      outcome.seen parseUrl (apiBaseUrl ++ path) := by
  cases houtcome with
  | @value status value hok hbody hcomposite hplain =>
    have hstatus : status ∉ [204, 205, 304] := by
      simp only [List.mem_cons, List.not_mem_nil, or_false]
      omega
    obtain ⟨length, hlength, hreceive⟩ := receive_json hplatform hstatus hplain
    rw [Platform.respond, hplatform.reply status value hcomposite, hreceive]
    exact run_success call apiBaseUrl path hok hbody.1 hlength
  | @storageException exception hstatus hdetails =>
    obtain ⟨length, -, hreceive⟩ := receive_json hplatform (failed_written hstatus) (plain_response hdetails)
    rw [Platform.respond, StorageExceptionFilter.catch, hreceive,
      run_failed_json call apiBaseUrl path (by omega) (isErrorEnvelope_response exception), Option.elim_some,
      (toCode_eq_known_iff _ _).mpr rfl, Outcome.seen]
  | @httpException exception hstatus hplain hread =>
    obtain ⟨length, -, hreceive⟩ := receive_json hplatform (failed_written hstatus) hplain
    obtain ⟨envelope, henvelope⟩ := hread
    rw [Platform.respond, hplatform.httpException, hreceive, run_failed_json call apiBaseUrl path (by omega) henvelope,
      Outcome.seen, henvelope]
    cases envelope <;> rfl
  | otherError =>
    obtain ⟨length, -, hreceive⟩ := receive_json hplatform (failed_written (by decide : 400 ≤ 500))
      plain_internalServerError
    rw [Platform.respond, hplatform.otherError, hreceive,
      run_failed_json call apiBaseUrl path (by decide) isErrorEnvelope_internalServerError, Option.elim_none,
      Outcome.seen]

/-- What the dashboard has of an answer is what the API made of the request: a value
unchanged, the library's error with its own code, message, status and details, what an
envelope of the API says, and of everything else the status. It knows a code exactly when the
library raised it. -/
theorem answers_arrive (hplatform : platform.Documented) (call : ApiCall Form) (apiBaseUrl path : JsString)
    {outcome : Outcome} (houtcome : outcome.Writable)
    (hthrown : ∀ exception, outcome = .httpException exception → exception.Thrown) :
    call.run parseUrl (fun _ _ => .ok (receive (platform.respond outcome))) apiBaseUrl path =
      outcome.seen parseUrl (apiBaseUrl ++ path) ∧
    ∀ code, (∃ error, call.run parseUrl (fun _ _ => .ok (receive (platform.respond outcome))) apiBaseUrl path =
        .error (.api error) ∧ error.code = .known code) ↔
      ∃ exception, outcome = .storageException exception ∧ exception.code = code := by
  refine ⟨answers_read hplatform call apiBaseUrl path houtcome, fun code => ?_⟩
  rw [answers_read hplatform call apiBaseUrl path houtcome]
  constructor
  · rintro ⟨error, hseen, hcode⟩
    cases outcome with
    | value status returned => cases hseen
    | storageException exception =>
      cases hseen
      exact ⟨exception, rfl, by cases hcode; rfl⟩
    | httpException exception =>
      obtain ⟨envelope, henvelope, hcodes⟩ := (hthrown exception rfl).readAsOwn
      rw [Outcome.seen, henvelope] at hseen
      cases envelope with
      | none =>
        cases hseen
        cases hcode
      | some read =>
        cases hseen
        rw [toCode_eq_known_iff, ← ErrorCode.ofText_eq_some_iff, hcodes read rfl] at hcode
        cases hcode
    | otherError =>
      cases hseen
      cases hcode
  · rintro ⟨exception, rfl, rfl⟩
    exact ⟨_, rfl, rfl⟩

theorem direct_writable {schema : Schema} {handler : Handler W} (hhandler : ∀ value w, (handler value w).1.Writable)
    (body : Option Json) (w : W) : (direct schema handler body w).1.Writable := by
  rw [direct]
  split
  · exact hhandler _ w
  · exact badRequest_writable _

/-- One fetch, whose answer the client reads. -/
theorem exchange_serve {schema : Schema} {handler : Handler W} {call : ApiCall Empty} {body : Json} {text : JsString}
    {w : W} (hplatform : platform.Documented) (hcall : call = .post (some body) ∨ call = .delete (some body))
    (htext : stringify body = some text)
    (houtcome : (serve platform schema handler (some (encodeUtf8 text)) w).1.Writable) (apiBaseUrl path : JsString) :
    exchange parseUrl platform schema handler apiBaseUrl path call w =
      ((serve platform schema handler (some (encodeUtf8 text)) w).1.seen parseUrl (apiBaseUrl ++ path),
        (serve platform schema handler (some (encodeUtf8 text)) w).2) := by
  have hnetwork : network platform schema handler (sentInit call) w =
      (.ok (receive (platform.respond (serve platform schema handler (some (encodeUtf8 text)) w).1)),
        (serve platform schema handler (some (encodeUtf8 text)) w).2) := by
    rcases hcall with rfl | rfl <;> simp only [network, sentInit, Option.map_some, htext]
  rw [exchange, run_eq, hnetwork, answers_read hplatform call apiBaseUrl path houtcome]

/-- A body within the limit meets the pipe and the handler as if they were called with it;
past it neither is called. -/
theorem serve_text (hplatform : platform.Documented) (schema : Schema) (handler : Handler W) {body : Json}
    (hcomposite : IsComposite body) (hplain : Plain body) {text : JsString} (htext : stringify body = some text)
    (w : W) :
    serve platform schema handler (some (encodeUtf8 text)) w =
      if byteLength text ≤ bodyLimit then direct schema handler (some body) w
      else (.httpException payloadTooLarge, w) := by
  split
  · rename_i hlimit
    rw [serve, readBody_stringify hplatform hcomposite hplain htext hlimit]
  · rename_i hlimit
    rw [serve, hplatform.tooLarge _ (Nat.lt_of_not_le hlimit)]

/-- A body that is sent as JSON meets the pipe and the handler as if they were called with it,
unless its text is too long: then neither is called. -/
theorem remote_call_direct (hplatform : platform.Documented) (schema : Schema) (handler : Handler W)
    {call : ApiCall Empty} {body : Json} (hcall : call = .post (some body) ∨ call = .delete (some body))
    (hcomposite : IsComposite body) (hplain : Plain body) {text : JsString} (htext : stringify body = some text) {w : W}
    (houtcome : (direct schema handler (some body) w).1.Writable) (apiBaseUrl path : JsString) :
    exchange parseUrl platform schema handler apiBaseUrl path call w =
      if byteLength text ≤ bodyLimit then
        ((direct schema handler (some body) w).1.seen parseUrl (apiBaseUrl ++ path),
          (direct schema handler (some body) w).2)
      else (.error (.api (unreadError parseUrl 413 (apiBaseUrl ++ path))), w) := by
  have hserve := serve_text hplatform schema handler hcomposite hplain htext w
  have hwritable : (serve platform schema handler (some (encodeUtf8 text)) w).1.Writable := by
    rw [hserve]
    split
    · exact houtcome
    · exact payloadTooLarge_writable
  rw [exchange_serve hplatform hcall htext hwritable, hserve]
  split <;> rfl

/-! A platform that does what is documented, and a request of each kind. -/

def expressJson (status : Nat) (value : Json) : HttpAnswer :=
  match stringify value with
  | some text => ⟨status, some (decimal (byteLength text)), encodeUtf8 text⟩
  | none => ⟨500, some (js "0"), []⟩

def expressPlatform : Platform where
  json := expressJson
  reply := expressJson
  defaultHandler := fun exception => match exception with
    | some exception => expressJson exception.status exception.response
    | none => expressJson 500 internalServerError
  readBody := fun bytes =>
    if bodyLimit < bytes.length then .error payloadTooLarge
    else match parseJson (decodeText bytes) with
      | some value => .ok value
      | none => .error ⟨400, .object []⟩

theorem expressPlatform_documented : expressPlatform.Documented where
  json status value text _ htext := by
    change expressJson status value = _
    rw [expressJson, htext]
  reply _ _ _ := rfl
  httpException _ := rfl
  otherError := rfl
  readBody bytes value hlimit _ hvalue := by
    change (if bodyLimit < bytes.length then (Except.error payloadTooLarge : Except HttpException Json) else _) = _
    rw [if_neg (Nat.not_lt.mpr hlimit), hvalue]
  tooLarge _ hlimit := if_pos hlimit

def plainLibrary : LibraryJson where
  result := fun result => .object [(js "multipart", .bool result.multipart)]
  metadata := fun metadata => .object [(js "etag", .string metadata.etag)]
  raised := fun exception => ⟨500, exception.code, js "Storage error.", none⟩

theorem plainLibrary_documented : plainLibrary.Documented where
  result _ := plain_single _ (.bool _)
  metadata _ := plain_single _ (.string _)
  status _ := (by decide : 400 ≤ 500)
  details _ _ h := nomatch h

/-- The envelope of a missing object. -/
def missingObject : RaisedException := ⟨404, .objectNotFound, js "Object not found.", some (.object [])⟩

/-- The exception of a preview that is too large. -/
def oversized : HttpException := ⟨413, envelopeJson (VaultService.previewSizeExceeded 20000000)⟩

theorem oversized_plain : Plain oversized.response := by
  apply plain_single
  apply Plain.object
  · change [js "code", js "message", js "limit", js "actual"].Nodup
    decide
  · intro entry hentry
    change entry ∈ [_, _, _, _] at hentry
    simp only [List.mem_cons, List.not_mem_nil, or_false] at hentry
    obtain rfl | rfl | rfl | rfl := hentry
    · exact .string _
    · exact .string _
    · exact @Plain.number 10485760 (by decide)
    · exact @Plain.number 20000000 (by decide)

/-- The library's code is known, and the API's own code is not. -/
theorem missing_object_arrives :
    (ApiCall.get : ApiCall Unit).run (fun _ => none)
      (fun _ _ => .ok (receive (expressPlatform.respond (.storageException missingObject))))
      (js "http://localhost:3001") (js "/vault/download?key=a") =
        .error (.api ⟨.known .objectNotFound, js "Object not found.", 404, some (.object [])⟩) ∧
    (ApiCall.get : ApiCall Unit).run (fun _ => none)
      (fun _ _ => .ok (receive (expressPlatform.respond (.httpException oversized))))
      (js "http://localhost:3001") (js "/vault/preview?key=a") =
        .error (.api ⟨.unknown, js "Object size 20000000 exceeds the 10 MiB preview limit.", 413, none⟩) := by
  have hmissing : Outcome.Writable (.storageException missingObject) :=
    .storageException (by decide) (fun details hdetails => by
      obtain rfl := Option.some.inj hdetails
      exact .object List.nodup_nil (by simp))
  have hthrown : oversized.Thrown := .previewSizeExceeded 20000000
  constructor
  · exact (answers_arrive expressPlatform_documented .get _ _ hmissing (fun _ h => by cases h)).1
  · exact (answers_arrive expressPlatform_documented .get _ _ (hthrown.writable oversized_plain)
      (fun _ h => by cases h; exact hthrown)).1

/-- A handler that counts its calls. -/
def countingHandler : Handler Nat := fun _ calls => (.value 200 (.object [(js "confirmed", .bool true)]), calls + 1)

theorem countingHandler_writable (body : Option Json) (calls : Nat) : (countingHandler body calls).1.Writable :=
  .value (by decide) (by decide) (.object _) (plain_single _ (.bool _))

def confirmBody (key : JsString) : Json := .object [(js "key", .string key)]

theorem confirmBody_plain (key : JsString) : Plain (confirmBody key) := plain_single _ (.string key)

/-- A key and an empty key, which the pipe refuses: neither its code nor its issues arrive. -/
theorem confirm_calls_direct :
    exchange (fun _ => none) expressPlatform confirmBodySchema countingHandler [] (js "/signed/confirm")
      (.post (some (confirmBody (js "a")))) 0 = (.ok (some (.object [(js "confirmed", .bool true)])), 1) ∧
    exchange (fun _ => none) expressPlatform confirmBodySchema countingHandler [] (js "/signed/confirm")
      (.post (some (confirmBody []))) 0 = (.error (.api ⟨.unknown, js "HTTP 400 from [url-redacted]", 400, none⟩), 0) :=
  ⟨remote_call_direct expressPlatform_documented confirmBodySchema countingHandler (Or.inl rfl) (.object _)
      (confirmBody_plain (js "a")) rfl (direct_writable countingHandler_writable _ _) [] _,
    remote_call_direct expressPlatform_documented confirmBodySchema countingHandler (Or.inl rfl) (.object _)
      (confirmBody_plain []) rfl (direct_writable countingHandler_writable _ _) [] _⟩

end Arrival

end NestStorageExample.Web.Wire
