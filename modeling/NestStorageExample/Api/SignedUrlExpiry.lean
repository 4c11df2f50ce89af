import NestStorageExample.Api.Confirm
import NestStorageExample.Api.KeyComposition
import NestStorageExample.Api.PublicUrls
import NestStorageExample.Dates.DateTexts
import NestStorageExample.Numbers.NumberText
import NestStorageExample.Url.SearchParams

/-! Issuing presigned URLs: the lifetime that the library signed into one is read back and
shown beside the one asked for. Numbers of seconds are rationals, as every finite double is. -/
namespace NestStorageExample.Api
open Text Effects Storage Url Dates Numbers
variable {α : Type} (hosts : Hosts α)

structure SignedUrlPolicy where
  defaultGetTtlSeconds : ℚ
  defaultPutTtlSeconds : ℚ
  maxTtlSeconds : ℚ

/-- The resolved options, as far as the issuing of URLs reads them. -/
structure SignedOptions where
  signedUrls : SignedUrlPolicy
  validation : Option ValidationPolicy

structure TtlView where
  expiresAt : JsString
  requestedTtlSeconds : ℚ
  effectiveTtlSeconds : ℚ
  clamped : Bool
  maxTtlSeconds : ℚ

structure DownloadUrlBody where
  key : JsString
  ttlSeconds : Option ℚ
  responseContentDisposition : Option JsString
  responseContentType : Option JsString

structure UploadUrlBody where
  category : UploadCategory
  contentType : JsString
  maxSizeBytes : Option Nat
  ttlSeconds : Option ℚ

structure GetUploadUrlOptions where
  key : JsString
  contentType : JsString
  maxSizeBytes : Option Nat
  ttlSeconds : Option ℚ

structure SignedUrlResult where
  url : JsString
  requiredHeaders : List (JsString × JsString)

/-- The library's service, of which nothing is assumed. -/
structure SignedUrlService (W : Type) where
  getDownloadUrl : DownloadUrlBody → Async Rejection W SignedUrlResult
  getUploadUrl : GetUploadUrlOptions → Async Rejection W SignedUrlResult

structure DownloadUrlResponse extends TtlView where
  url : JsString
  method : JsString
  requiredHeaders : List (JsString × JsString)

structure ContentLengthRange where
  minBytes : Nat
  maxBytes : Option Nat

structure UploadUrlView extends TtlView where
  url : JsString
  method : JsString
  key : JsString
  requiredHeaders : List (JsString × JsString)
  contentLengthRange : ContentLengthRange
  note : String

def directPutNote : String :=
  "This direct PUT bypasses server-side MIME/size validation by design. After the PUT, the client MUST call " ++
  "POST /signed/confirm to verify the landed object (size, MIME, scan). contentLengthRange is advisory only: " ++
  "SigV4 cannot pin a maximum size at PUT time, so the provider may store an over-limit body. The landed size is " ++
  "verified at confirm against the server's CONFIGURED size policy, NOT against this per-request maxSizeBytes."

/-- `expiresAt` is a time value, or none for an invalid date. -/
structure SignedExpiry where
  expiresAt : Option Int
  effectiveTtlSeconds : ℚ

def amzDateName : JsString := js "X-Amz-Date"

def amzExpiresName : JsString := js "X-Amz-Expires"

def missingExpiry : Rejection :=
  .storage ⟨.providerError, [("reason", js "presigned URL is missing SigV4 expiry parameters")]⟩

def unparseableExpiry : Rejection :=
  .storage ⟨.providerError, [("reason", js "presigned URL carries an unparseable SigV4 expiry")]⟩

def msPerSecond : ℚ := 1000

/-- `none` is `NaN`. -/
def parseAmzDate (amzDate : JsString) : Option Int :=
  (basicLayout.read amzDate).bind fun groups => dateParse (extendedLayout.fill groups)

/-- The two parameters, once the URL is parsed. -/
def readExpiry (params : List (JsString × JsString)) : Except Rejection SignedExpiry :=
  match params.lookup amzDateName, params.lookup amzExpiresName with
  | some amzDate, some expires =>
    match parseAmzDate amzDate, numberOf expires with
    | some signedAt, .finite effectiveTtlSeconds =>
      .ok ⟨newDate (Double.add signedAt (Double.mul effectiveTtlSeconds msPerSecond)), effectiveTtlSeconds⟩
    | _, _ => .error unparseableExpiry
  | _, _ => .error missingExpiry

def readSignedUrlExpiry (signedUrl : JsString) : Except Rejection SignedExpiry :=
  match parse hosts signedUrl with
  | some url => readExpiry url.searchParams
  | none => .error (.other (js "Invalid URL"))

/-- `toISOString()` -/
def toISOString (date : Option Int) : Except Rejection JsString :=
  match date with
  | some time => .ok (isoText time)
  | none => .error (.other (js "Invalid time value"))

namespace SignedService
variable {W : Type} (signedUrls : SignedUrlService W) (options : SignedOptions)

def buildTtlView (requestedTtlSeconds : ℚ) (signedUrl : JsString) : Except Rejection TtlView := do
  let expiry ← readSignedUrlExpiry hosts signedUrl
  let expiresAt ← toISOString expiry.expiresAt
  return ⟨expiresAt, requestedTtlSeconds, expiry.effectiveTtlSeconds,
    expiry.effectiveTtlSeconds < requestedTtlSeconds, options.signedUrls.maxTtlSeconds⟩

/-- The lower of the two caps that are set. -/
def buildContentLengthRange (requestedMaxSizeBytes : Option Nat) : ContentLengthRange :=
  ⟨0, [requestedMaxSizeBytes, options.validation.bind ValidationPolicy.maxSizeBytes].reduceOption.min?⟩

def createDownloadUrl (body : DownloadUrlBody) : Async Rejection W DownloadUrlResponse := do
  let result ← signedUrls.getDownloadUrl body
  let requested := body.ttlSeconds.getD options.signedUrls.defaultGetTtlSeconds
  let view ← Async.settled (buildTtlView hosts options requested result.url)
  return ⟨view, result.url, js "GET", result.requiredHeaders⟩

def createUploadUrl (body : UploadUrlBody) (uuid : Uuid) : Async Rejection W UploadUrlView := do
  let key := uploadUrlKey body.category uuid
  let result ← signedUrls.getUploadUrl ⟨key, body.contentType, body.maxSizeBytes, body.ttlSeconds⟩
  let requested := body.ttlSeconds.getD options.signedUrls.defaultPutTtlSeconds
  let view ← Async.settled (buildTtlView hosts options requested result.url)
  return ⟨view, result.url, js "PUT", key, result.requiredHeaders,
    buildContentLengthRange options body.maxSizeBytes, directPutNote⟩

end SignedService

/-! What the view has to say. -/

def QueryHolds (url name value : JsString) : Prop :=
  ∃ record, parse hosts url = some record ∧ Holds record.searchParams name value

def QueryLacks (url name : JsString) : Prop :=
  ∃ record, parse hosts url = some record ∧ ∀ value, (name, value) ∉ record.searchParams

/-- A second whose year has four digits. -/
def FourDigitYear (t : ℤ) : Prop := 0 ≤ (dateTimeOf t).date.year ∧ (dateTimeOf t).date.year ≤ 9999

/-- The URL was signed at `t` for `e` seconds. -/
structure SignedWith (url : JsString) (t : ℤ) (e : ℕ) : Prop where
  year : FourDigitYear t
  date : QueryHolds hosts url amzDateName (basicText (dateTimeOf t))
  expires : QueryHolds hosts url amzExpiresName (decimal e)

structure TellsTtl (t : ℤ) (e : ℕ) (requested cap : ℚ) (view : TtlView) : Prop where
  effective : view.effectiveTtlSeconds = e
  expires : view.expiresAt = isoText (1000 * (t + e))
  clamped : view.clamped = true ↔ e < requested
  capped : (e : ℚ) = min requested cap → (view.clamped = true ↔ cap < requested)

def IsProviderError (result : Except Rejection SignedExpiry) : Prop :=
  ∃ details, result = .error (.storage ⟨.providerError, details⟩)

/-- Of a URL, whatever else stands in it and whatever the library was asked for it. -/
structure ExpiryToldTruly (url : JsString) : Prop where
  reads : ∀ t e, SignedWith hosts url t e →
    readSignedUrlExpiry hosts url = .ok ⟨some (1000 * (t + e)), e⟩
  downloads : ∀ t e, SignedWith hosts url t e →
    ∀ {W : Type} (signedUrls : SignedUrlService W) (options : SignedOptions) (body : DownloadUrlBody) (w w' : W)
      (result : SignedUrlResult), signedUrls.getDownloadUrl body w = (.ok result, w') → result.url = url →
      ∃ response, SignedService.createDownloadUrl hosts signedUrls options body w = (.ok response, w') ∧
        TellsTtl t e (body.ttlSeconds.getD options.signedUrls.defaultGetTtlSeconds) options.signedUrls.maxTtlSeconds
          response.toTtlView
  uploads : ∀ t e, SignedWith hosts url t e →
    ∀ {W : Type} (signedUrls : SignedUrlService W) (options : SignedOptions) (body : UploadUrlBody) (uuid : Uuid)
      (w w' : W) (result : SignedUrlResult),
      signedUrls.getUploadUrl ⟨uploadUrlKey body.category uuid, body.contentType, body.maxSizeBytes, body.ttlSeconds⟩
        w = (.ok result, w') → result.url = url →
      ∃ response, SignedService.createUploadUrl hosts signedUrls options body uuid w = (.ok response, w') ∧
        TellsTtl t e (body.ttlSeconds.getD options.signedUrls.defaultPutTtlSeconds) options.signedUrls.maxTtlSeconds
          response.toTtlView
  missing : QueryLacks hosts url amzDateName ∨ QueryLacks hosts url amzExpiresName →
    IsProviderError (readSignedUrlExpiry hosts url)
  foreign : ∀ value, QueryHolds hosts url amzDateName value →
    (∀ t, FourDigitYear t → value ≠ basicText (dateTimeOf t)) → IsProviderError (readSignedUrlExpiry hosts url)

/-- A date in the right layout that names a day past the end of its month, or 24:00:00. -/
def CarriedOver (value : JsString) : Prop :=
  ∃ d : DateTime, d.Narrow ∧ d.Accepted ∧ (daysInMonth d.date.year d.date.month < d.date.day ∨ d.hour = 24) ∧
    value = basicText d

/-- No date to carry over with a lifetime beside it, and an expiry that is a date. -/
structure ExpiryWithinDates (url : JsString) : Prop where
  exact : ∀ record, parse hosts url = some record → ∀ value, Holds record.searchParams amzDateName value →
    CarriedOver value → ∀ expires, record.searchParams.lookup amzExpiresName = some expires →
    ∀ seconds, numberOf expires ≠ .finite seconds
  within : ∀ t e, SignedWith hosts url t e → t + e ≤ 8640000000000

theorem parseAmzDate_basicText {d : DateTime} (h : d.Narrow) :
    parseAmzDate (basicText d) = if d.Accepted then some (1000 * d.seconds) else none := by
  rw [parseAmzDate, basicText, Layout.read_fill (groups_fits d), Option.bind_some, dateParse_fill h]

/-- What is read has the right layout, and fields that are accepted. -/
theorem fields_of_parseAmzDate {value : JsString} {time : Int} (h : parseAmzDate value = some time) :
    ∃ d : DateTime, d.Narrow ∧ d.Accepted ∧ value = basicText d ∧ time = 1000 * d.seconds := by
  obtain ⟨groups, hread, htime⟩ := Option.bind_eq_some_iff.mp h
  obtain ⟨hfits, rfl⟩ := Layout.of_read hread
  obtain ⟨d, -, hnarrow, rfl⟩ := readFields_of_fits hfits
  rw [dateParse_fill hnarrow] at htime
  split at htime
  · exact ⟨d, hnarrow, ‹_›, rfl, (Option.some.inj htime).symm⟩
  · cases htime

theorem FourDigitYear.narrow {t : ℤ} (h : FourDigitYear t) : (dateTimeOf t).Narrow := (dateTimeOf_valid t).narrow h

theorem parseAmzDate_instant {t : ℤ} (h : FourDigitYear t) :
    parseAmzDate (basicText (dateTimeOf t)) = some (1000 * t) := by
  rw [parseAmzDate_basicText h.narrow, if_pos (dateTimeOf_valid t).accepted, seconds_dateTimeOf]

/-- A date that is read is some instant's, or carried over. -/
theorem instant_or_carriedOver {value : JsString} {time : Int} (h : parseAmzDate value = some time) :
    (∃ t, FourDigitYear t ∧ value = basicText (dateTimeOf t)) ∨ CarriedOver value := by
  obtain ⟨d, hnarrow, haccepted, rfl, -⟩ := fields_of_parseAmzDate h
  by_cases hpast : daysInMonth d.date.year d.date.month < d.date.day ∨ d.hour = 24
  · exact Or.inr ⟨d, hnarrow, haccepted, hpast, rfl⟩
  · have hvalid := (valid_iff_of_accepted haccepted).mpr hpast
    have hyear := hnarrow.year
    refine Or.inl ⟨d.seconds, ?_, ?_⟩
    · rw [FourDigitYear, dateTimeOf_seconds hvalid]
      omega
    · rw [dateTimeOf_seconds hvalid]

theorem CarriedOver.parses {value : JsString} (h : CarriedOver value) : ∃ time, parseAmzDate value = some time := by
  obtain ⟨d, hnarrow, haccepted, -, rfl⟩ := h
  exact ⟨_, by rw [parseAmzDate_basicText hnarrow, if_pos haccepted]⟩

/-- It is no instant's date. -/
theorem CarriedOver.foreign {value : JsString} (h : CarriedOver value) {t : ℤ} (ht : FourDigitYear t) :
    value ≠ basicText (dateTimeOf t) := by
  obtain ⟨d, hnarrow, haccepted, hpast, rfl⟩ := h
  intro heq
  obtain rfl := basicText_injective hnarrow ht.narrow heq
  exact (valid_iff_of_accepted haccepted).mp (dateTimeOf_valid t) hpast

/-- Whole seconds between the years 0 and 275760 are exact. -/
theorem newDate_exact {t : ℤ} {e : ℕ} (ht : -62167219200 ≤ t) (h : t + e ≤ 8640000000000) :
    newDate (Double.add ((1000 * t : ℤ) : ℚ) (Double.mul e msPerSecond)) = some (1000 * (t + e)) := by
  have hmul : Double.mul e msPerSecond = ((e * 1000 : ℕ) : ℚ) := by
    rw [Double.mul, msPerSecond, ← toDouble_natCast (show e * 1000 ≤ 2 ^ 53 by omega)]
    push_cast
    rfl
  have hsum : ((1000 * t : ℤ) : ℚ) + ((e * 1000 : ℕ) : ℚ) = ((1000 * (t + e) : ℤ) : ℚ) := by
    push_cast
    ring
  have hdouble : toDouble ((1000 * (t + e) : ℤ) : ℚ) = ((1000 * (t + e) : ℤ) : ℚ) := by
    have hscaled := toDouble_scaled (m := 1000 * (t + e)) (by rw [abs_lt]; omega) 0
    rwa [pow_zero, mul_one] at hscaled
  rw [hmul, Double.add, hsum, hdouble, newDate_intCast (by unfold maxTime; omega)]

section Reading
variable {params : List (JsString × JsString)} {amzDate expires : JsString} {time : Int} {seconds : ℚ}

theorem readExpiry_of_finite (hdate : params.lookup amzDateName = some amzDate)
    (hexpires : params.lookup amzExpiresName = some expires) (htime : parseAmzDate amzDate = some time)
    (hseconds : numberOf expires = .finite seconds) :
    readExpiry params = .ok ⟨newDate (Double.add time (Double.mul seconds msPerSecond)), seconds⟩ := by
  simp only [readExpiry, hdate, hexpires, htime, hseconds]

/-- A missing parameter, a date that is not read and a lifetime that is no finite number are
all rejected with the same code. -/
theorem readExpiry_rejects (h : ∀ amzDate expires time seconds, params.lookup amzDateName = some amzDate →
    params.lookup amzExpiresName = some expires → parseAmzDate amzDate = some time →
    numberOf expires ≠ .finite seconds) : IsProviderError (readExpiry params) := by
  unfold readExpiry
  split
  · rename_i amzDate expires hdate hexpires
    split
    · rename_i time seconds htime hseconds
      exact absurd hseconds (h amzDate expires time seconds hdate hexpires htime)
    · exact ⟨_, rfl⟩
  · exact ⟨_, rfl⟩

end Reading

variable {hosts} {url : JsString} {t : ℤ} {e : ℕ}

theorem readSignedUrlExpiry_of_parse {record : UrlRecord α} (h : parse hosts url = some record) :
    readSignedUrlExpiry hosts url = readExpiry record.searchParams := by
  rw [readSignedUrlExpiry, h]

theorem SignedWith.lookups (h : SignedWith hosts url t e) : ∃ record, parse hosts url = some record ∧
    record.searchParams.lookup amzDateName = some (basicText (dateTimeOf t)) ∧
    record.searchParams.lookup amzExpiresName = some (decimal e) := by
  obtain ⟨-, ⟨record, hrecord, hdate⟩, ⟨record', hrecord', hexpires⟩⟩ := h
  obtain rfl := Option.some.inj (hrecord.symm.trans hrecord')
  exact ⟨record, hrecord, hdate.lookup, hexpires.lookup⟩

theorem SignedWith.read (h : SignedWith hosts url t e) (hrange : t + e ≤ 8640000000000) :
    readSignedUrlExpiry hosts url = .ok ⟨some (1000 * (t + e)), e⟩ := by
  obtain ⟨record, hrecord, hdate, hexpires⟩ := h.lookups
  have hstart := le_of_year_nonneg h.year.1
  rw [readSignedUrlExpiry_of_parse hrecord, readExpiry_of_finite hdate hexpires (parseAmzDate_instant h.year)
    (numberOf_decimal (by omega)), newDate_exact hstart hrange]

/-- An expiry that no date reaches is not read as one. -/
theorem SignedWith.within (h : SignedWith hosts url t e)
    (hread : readSignedUrlExpiry hosts url = .ok ⟨some (1000 * (t + e)), e⟩) : t + e ≤ 8640000000000 := by
  obtain ⟨record, hrecord, -, -⟩ := h.lookups
  rw [readSignedUrlExpiry_of_parse hrecord] at hread
  unfold readExpiry at hread
  split at hread
  · split at hread
    · injection hread with hexpiry
      injection hexpiry with hdate
      have hmax := le_maxTime_of_newDate hdate
      unfold maxTime at hmax
      omega
    · cases hread
  · cases hread

/-- The view repeats what was read, and compares it with what was asked for. -/
theorem buildTtlView_tells (hread : readSignedUrlExpiry hosts url = .ok ⟨some (1000 * (t + e)), e⟩)
    (options : SignedOptions) (requested : ℚ) : ∃ view,
      SignedService.buildTtlView hosts options requested url = .ok view ∧
      TellsTtl t e requested options.signedUrls.maxTtlSeconds view := by
  refine ⟨⟨isoText (1000 * (t + e)), requested, e, decide ((e : ℚ) < requested), options.signedUrls.maxTtlSeconds⟩, ?_,
    rfl, rfl, decide_eq_true_iff, ?_⟩
  · rw [SignedService.buildTtlView, hread]
    rfl
  · intro hcap
    rw [decide_eq_true_iff, hcap, min_lt_iff, or_iff_right (lt_irrefl requested)]

theorem downloads_tell (hread : readSignedUrlExpiry hosts url = .ok ⟨some (1000 * (t + e)), e⟩) {W : Type}
    (signedUrls : SignedUrlService W) (options : SignedOptions) (body : DownloadUrlBody) {w w' : W}
    {result : SignedUrlResult} (hcall : signedUrls.getDownloadUrl body w = (.ok result, w')) (hurl : result.url = url) :
    ∃ response, SignedService.createDownloadUrl hosts signedUrls options body w = (.ok response, w') ∧
      TellsTtl t e (body.ttlSeconds.getD options.signedUrls.defaultGetTtlSeconds) options.signedUrls.maxTtlSeconds
        response.toTtlView := by
  obtain ⟨view, hview, htells⟩ := buildTtlView_tells hread options
    (body.ttlSeconds.getD options.signedUrls.defaultGetTtlSeconds)
  refine ⟨⟨view, result.url, js "GET", result.requiredHeaders⟩, ?_, htells⟩
  rw [SignedService.createDownloadUrl, Async.bind_of_ok hcall, hurl, hview, Async.settled_bind_ok, Async.pure_apply]

theorem uploads_tell (hread : readSignedUrlExpiry hosts url = .ok ⟨some (1000 * (t + e)), e⟩) {W : Type}
    (signedUrls : SignedUrlService W) (options : SignedOptions) (body : UploadUrlBody) (uuid : Uuid) {w w' : W}
    {result : SignedUrlResult} (hcall : signedUrls.getUploadUrl ⟨uploadUrlKey body.category uuid, body.contentType,
      body.maxSizeBytes, body.ttlSeconds⟩ w = (.ok result, w')) (hurl : result.url = url) :
    ∃ response, SignedService.createUploadUrl hosts signedUrls options body uuid w = (.ok response, w') ∧
      TellsTtl t e (body.ttlSeconds.getD options.signedUrls.defaultPutTtlSeconds) options.signedUrls.maxTtlSeconds
        response.toTtlView := by
  obtain ⟨view, hview, htells⟩ := buildTtlView_tells hread options
    (body.ttlSeconds.getD options.signedUrls.defaultPutTtlSeconds)
  refine ⟨⟨view, result.url, js "PUT", uploadUrlKey body.category uuid, result.requiredHeaders,
    SignedService.buildContentLengthRange options body.maxSizeBytes, directPutNote⟩, ?_, htells⟩
  rw [SignedService.createUploadUrl, Async.bind_of_ok hcall, hurl, hview, Async.settled_bind_ok, Async.pure_apply]

/-- What reading the URL throws, issuing it rejects with. -/
theorem buildTtlView_error {e : Rejection} (hread : readSignedUrlExpiry hosts url = .error e) (options : SignedOptions)
    (requested : ℚ) : SignedService.buildTtlView hosts options requested url = .error e := by
  rw [SignedService.buildTtlView, hread]
  rfl

theorem downloads_reject {e : Rejection} (hread : readSignedUrlExpiry hosts url = .error e) {W : Type}
    (signedUrls : SignedUrlService W) (options : SignedOptions) (body : DownloadUrlBody) {w w' : W}
    {result : SignedUrlResult} (hcall : signedUrls.getDownloadUrl body w = (.ok result, w')) (hurl : result.url = url) :
    SignedService.createDownloadUrl hosts signedUrls options body w = (.error e, w') := by
  rw [SignedService.createDownloadUrl, Async.bind_of_ok hcall, hurl, buildTtlView_error hread, Async.settled_bind_error]

theorem uploads_reject {e : Rejection} (hread : readSignedUrlExpiry hosts url = .error e) {W : Type}
    (signedUrls : SignedUrlService W) (options : SignedOptions) (body : UploadUrlBody) (uuid : Uuid) {w w' : W}
    {result : SignedUrlResult} (hcall : signedUrls.getUploadUrl ⟨uploadUrlKey body.category uuid, body.contentType,
      body.maxSizeBytes, body.ttlSeconds⟩ w = (.ok result, w')) (hurl : result.url = url) :
    SignedService.createUploadUrl hosts signedUrls options body uuid w = (.error e, w') := by
  rw [SignedService.createUploadUrl, Async.bind_of_ok hcall, hurl, buildTtlView_error hread, Async.settled_bind_error]

theorem rejected_of_lacks (h : QueryLacks hosts url amzDateName ∨ QueryLacks hosts url amzExpiresName) :
    IsProviderError (readSignedUrlExpiry hosts url) := by
  rcases h with ⟨record, hrecord, hlacks⟩ | ⟨record, hrecord, hlacks⟩
  · rw [readSignedUrlExpiry_of_parse hrecord]
    refine readExpiry_rejects fun amzDate _ _ _ hdate => ?_
    exact absurd (mem_of_lookup hdate) (hlacks amzDate)
  · rw [readSignedUrlExpiry_of_parse hrecord]
    refine readExpiry_rejects fun _ expires _ _ _ hexpires => ?_
    exact absurd (mem_of_lookup hexpires) (hlacks expires)

theorem ExpiryWithinDates.rejects (h : ExpiryWithinDates hosts url) {value : JsString}
    (hvalue : QueryHolds hosts url amzDateName value)
    (hforeign : ∀ t, FourDigitYear t → value ≠ basicText (dateTimeOf t)) :
    IsProviderError (readSignedUrlExpiry hosts url) := by
  obtain ⟨record, hrecord, hholds⟩ := hvalue
  rw [readSignedUrlExpiry_of_parse hrecord]
  refine readExpiry_rejects fun amzDate expires time seconds hdate hexpires htime => ?_
  obtain rfl := Option.some.inj (hdate.symm.trans hholds.lookup)
  rcases instant_or_carriedOver htime with ⟨t, ht, hinstant⟩ | hcarried
  · exact absurd hinstant (hforeign t ht)
  · exact h.exact record hrecord amzDate hholds hcarried expires hexpires seconds

theorem ExpiryToldTruly.exact (h : ExpiryToldTruly hosts url) {record : UrlRecord α}
    (hrecord : parse hosts url = some record) {value : JsString} (hholds : Holds record.searchParams amzDateName value)
    (hcarried : CarriedOver value) {expires : JsString}
    (hexpires : record.searchParams.lookup amzExpiresName = some expires) (seconds : ℚ) :
    numberOf expires ≠ .finite seconds := by
  intro hseconds
  obtain ⟨time, htime⟩ := hcarried.parses
  obtain ⟨details, hrejected⟩ := h.foreign value ⟨record, hrecord, hholds⟩ fun _ ht => hcarried.foreign ht
  rw [readSignedUrlExpiry_of_parse hrecord, readExpiry_of_finite hholds.lookup hexpires htime hseconds] at hrejected
  cases hrejected

/-- The lifetime shown is the one signed unless the expiry lies beyond every date, and no date
stands for another one unless it lies past its month's or day's end. -/
theorem expiry_told_truly_iff (hosts : Hosts α) (url : JsString) :
    ExpiryToldTruly hosts url ↔ ExpiryWithinDates hosts url := by
  constructor
  · intro h
    refine ⟨fun record hrecord value hholds hcarried expires hexpires => ?_, fun t e hsigned => ?_⟩
    · exact h.exact hrecord hholds hcarried hexpires
    · exact hsigned.within (h.reads t e hsigned)
  · intro h
    refine ⟨fun t e hsigned => ?_, fun t e hsigned => ?_, fun t e hsigned => ?_, rejected_of_lacks, ?_⟩
    · exact hsigned.read (h.within t e hsigned)
    · exact downloads_tell (hsigned.read (h.within t e hsigned))
    · exact uploads_tell (hsigned.read (h.within t e hsigned))
    · exact fun value hvalue hforeign => h.rejects hvalue hforeign

/-- A presigned URL of 7 July 2026, 10:00, with that lifetime. -/
def lateUrl : JsString :=
  js "https://minio.local/vault/key?X-Amz-Date=20260707T100000Z&X-Amz-Expires=8640000000000"

/-- 30 February. -/
def carriedUrl : JsString := js "https://minio.local/vault/key?X-Amz-Date=20260230T100000Z&X-Amz-Expires=300"

theorem lateUrl_signed : SignedWith plainHosts lateUrl 1783418400 8640000000000 := by
  have hparams : (parse plainHosts lateUrl).map UrlRecord.searchParams =
      some [(amzDateName, basicText (dateTimeOf 1783418400)), (amzExpiresName, decimal 8640000000000)] := by
    decide +kernel
  obtain ⟨record, hrecord, hpairs⟩ := Option.map_eq_some_iff.mp hparams
  refine ⟨⟨by decide +kernel, by decide +kernel⟩, ⟨record, hrecord, ?_⟩, ⟨record, hrecord, ?_⟩⟩
  · rw [hpairs]
    decide +kernel
  · rw [hpairs]
    decide +kernel

theorem carriedOver_february : CarriedOver (js "20260230T100000Z") :=
  ⟨⟨⟨2026, 2, 30⟩, 10, 0, 0⟩, by constructor <;> decide, by decide, by decide, by decide +kernel⟩

/-- 30 February is read as 2 March, and an expiry past the last date cannot be shown. -/
theorem expiry_not_always_told :
    ¬ ExpiryToldTruly plainHosts lateUrl ∧ ¬ ExpiryToldTruly plainHosts carriedUrl ∧
      parseAmzDate (js "20260230T100000Z") = some (1000 * (⟨⟨2026, 3, 2⟩, 10, 0, 0⟩ : DateTime).seconds) := by
  refine ⟨fun h => ?_, fun h => ?_, by decide +kernel⟩
  · exact absurd (lateUrl_signed.within (h.reads _ _ lateUrl_signed)) (by decide)
  · have hparams : (parse plainHosts carriedUrl).map UrlRecord.searchParams =
        some [(amzDateName, js "20260230T100000Z"), (amzExpiresName, decimal 300)] := by
      decide +kernel
    obtain ⟨record, hrecord, hpairs⟩ := Option.map_eq_some_iff.mp hparams
    have hholds : Holds record.searchParams amzDateName (js "20260230T100000Z") := by
      rw [hpairs]
      decide +kernel
    have hexpires : record.searchParams.lookup amzExpiresName = some (decimal 300) := by
      rw [hpairs]
      decide +kernel
    exact h.exact hrecord hholds carriedOver_february hexpires _ (numberOf_decimal (by decide))

end NestStorageExample.Api
