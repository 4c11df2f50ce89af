import NestStorageExample.Web.TenantUpload
import NestStorageExample.Web.VaultQueries
import NestStorageExample.Web.Wire

/-! The requests of the tenants page: whom the router takes a tenant for, and what becomes of
an upload whose text the body parser has to take first. -/
namespace NestStorageExample.Web
open Text Url Effects Storage Validation Api ApiClient Wire
variable {α W : Type}

/-- The tenant of `/tenants/:t/{action}`. -/
def routedTenant (action pathname : JsString) : Option JsString :=
  match splitSlash pathname with
  | [root, controller, tenant, name] =>
    if root = [] ∧ controller = js "tenants" ∧ tenant ≠ [] ∧ name = action then some (percentDecode tenant) else none
  | _ => none

/-- What the pipe of the tenant makes of it. -/
def tenantParam (action : JsString) (received : ReceivedRequest) : Option (Except ValidationErrorBody (Option Json)) :=
  (routedTenant action received.pathname).map fun tenant =>
    ZodValidationPipe.transform tenantParamSchema (some (.string tenant))

/-- `/tenants/${encodeURIComponent(tenant)}/{action}` -/
def tenantPath (action tenant : JsString) : Option JsString :=
  (encodeURIComponent tenant).map fun written => slash :: joinSlash [js "tenants", written, action]

def useTenantObjects.path : JsString → Option JsString := tenantPath (js "objects")

def useTenantUpload.path : JsString → Option JsString := tenantPath (js "upload")

def useTenantClear.path : JsString → Option JsString := tenantPath (js "objects")

def tenantActions : List JsString := [js "objects", js "upload"]

/-- A request of the tenants page: its path, and the action it is meant for. -/
structure TenantRequest where
  path : JsString → Option JsString
  action : JsString

def tenantRequests : List TenantRequest :=
  [⟨useTenantObjects.path, js "objects"⟩, ⟨useTenantUpload.path, js "upload"⟩, ⟨useTenantClear.path, js "objects"⟩]

section Routes
variable {hosts : Hosts α} {readQuery : JsString → Json} {apiBaseUrl action tenant : JsString}

theorem tenantsName : RouteName (js "tenants") := isRouteName (by decide)

theorem actionName (h : action ∈ tenantActions) : RouteName action := by
  simp only [tenantActions, List.mem_cons, List.not_mem_nil, or_false] at h
  obtain rfl | rfl := h
  · exact isRouteName (by decide)
  · exact isRouteName (by decide)

/-- The segments of a path, as the router splits it. -/
theorem splitSlash_pathname {names : List JsString} (hne : names ≠ []) (h : ∀ name ∈ names, slash ∉ name) :
    splitSlash (UrlPath.segments names).pathname = [] :: names := by
  have hpathname : (UrlPath.segments names).pathname = slash :: joinSlash names := pathname_append [] hne
  have hsplit := splitSlash_append_slash (List.not_mem_nil : slash ∉ []) (joinSlash names)
  rw [List.nil_append, splitSlash_joinSlash h hne] at hsplit
  rw [hpathname, hsplit]

theorem routedTenant_segments {names : List JsString} (hne : names ≠ []) (h : ∀ name ∈ names, slash ∉ name)
    (hlength : names.length ≠ 3) (action : JsString) : routedTenant action (UrlPath.segments names).pathname = none := by
  rw [routedTenant, splitSlash_pathname hne h]
  split
  · rename_i hsegments
    rw [List.cons.injEq] at hsegments
    rw [hsegments.2] at hlength
    exact absurd rfl hlength
  · rfl

/-- Two dots take the name in front of them away. -/
theorem resolve_double_dots (front : Front α) (haction : RouteName action) :
    resolve front [] [js "tenants", js "..", action] = [action] := by
  have hopened : closeSegment front [] (js "tenants") true = [js "tenants"] := by
    rw [closeSegment_plain front [] tenantsName.plain, tenantsName.not_single]
    rfl
  have hdots : closeSegment front [js "tenants"] (js "..") true = [] := by
    have hdrive : isNormalizedDriveLetter (js "tenants") = false := by decide
    rw [closeSegment, if_pos (by decide), if_pos rfl, shorten, hdrive]
    exact if_neg fun h => Bool.false_ne_true h.2
  have hclosed : closeSegment front [] action false = [action] := by
    rw [closeSegment_plain front [] haction.plain, haction.not_single]
    rfl
  calc resolve front [] [js "tenants", js "..", action]
      = resolve front (closeSegment front (closeSegment front [] (js "tenants") true) (js "..") true) [action] := rfl
    _ = [action] := by rw [hopened, hdots, resolve, hclosed]

/-- Where a request for a tenant ends up: with a name that is dots, at no tenant. -/
theorem tenantPath_arrives (hbase : ApiBase hosts apiBaseUrl) (haction : action ∈ tenantActions) {path : JsString}
    (hpath : tenantPath action tenant = some path) : ∃ received,
      receivedRequest hosts readQuery (apiBaseUrl ++ path) = some received ∧
      routedTenant action received.pathname =
        if tenant = [] ∨ tenant = js "." ∨ tenant = js ".." then none else some tenant := by
  obtain ⟨written, hwritten, rfl⟩ := Option.map_eq_some_iff.mp hpath
  have hname := actionName haction
  have harrives {segments : List JsString} (hresolve : ∀ front : Front α,
      resolve front [] [js "tenants", written, action] = segments) (hplain : PlainText written) : ∃ received,
      receivedRequest hosts readQuery (apiBaseUrl ++ slash :: joinSlash [js "tenants", written, action]) = some received ∧
      received.pathname = (UrlPath.segments segments).pathname := by
    have htexts : ∀ text ∈ [js "tenants", written, action], PlainText text :=
      List.forall_mem_cons.mpr ⟨tenantsName.plain.plain, List.forall_mem_cons.mpr ⟨hplain,
        List.forall_mem_singleton.mpr hname.plain.plain⟩⟩
    obtain ⟨front, hparses⟩ := hbase.parses htexts tenantsName.ne_nil
    exact ⟨_, by rw [receivedRequest, hparses, Option.map_some, hresolve front], rfl⟩
  by_cases hdouble : tenant = js ".."
  · have hencoded : encodeURIComponent (js "..") = some (js "..") := by decide
    rw [hdouble, hencoded] at hwritten
    cases hwritten
    have hdots : PlainText (js "..") :=
      List.all_eq_true.mp (by decide : (js "..").all (fun c => isPlain c.toNat) = true)
    obtain ⟨received, hreceived, hpathname⟩ := harrives (fun front => resolve_double_dots front hname) hdots
    refine ⟨received, hreceived, ?_⟩
    rw [hpathname, if_pos (Or.inr (Or.inr hdouble))]
    exact routedTenant_segments (List.cons_ne_nil _ _) (List.forall_mem_singleton.mpr hname.plain.not_slash)
      (by decide : 1 ≠ 3) action
  · have hplain := plainName_of_encodeURIComponent hwritten hdouble
    have hnames : ∀ name ∈ [js "tenants", written, action], PlainName name :=
      List.forall_mem_cons.mpr ⟨tenantsName.plain, List.forall_mem_cons.mpr ⟨hplain,
        List.forall_mem_singleton.mpr hname.plain⟩⟩
    obtain ⟨received, hreceived, hpathname⟩ := harrives (fun front => resolve_eq front [] hnames) hplain.plain
    refine ⟨received, hreceived, ?_⟩
    rw [hpathname, List.nil_append]
    by_cases hsingle : tenant = js "."
    · have hdropped : withoutDots [js "tenants", written, action] = [js "tenants", action] := by
        rw [withoutDots_cons, tenantsName.not_single, if_neg Bool.false_ne_true, withoutDots_cons,
          (isSingleDot_iff hwritten).mpr hsingle, if_pos rfl, withoutDots, hname.not_single]
        rfl
      rw [if_pos (Or.inr (Or.inl hsingle)), hdropped]
      exact routedTenant_segments (List.cons_ne_nil _ _) (List.forall_mem_cons.mpr
        ⟨tenantsName.plain.not_slash, List.forall_mem_singleton.mpr hname.plain.not_slash⟩) (by decide : 2 ≠ 3) action
    · have hdotless : ∀ name ∈ [js "tenants", written, action], isSingleDot name = false :=
        List.forall_mem_cons.mpr ⟨tenantsName.not_single, List.forall_mem_cons.mpr
          ⟨Bool.eq_false_iff.mpr fun h => hsingle ((isSingleDot_iff hwritten).mp h),
            List.forall_mem_singleton.mpr hname.not_single⟩⟩
      have hempty : written = [] ↔ tenant = [] := by
        constructor
        · rintro rfl
          exact (percentDecode_encodeURIComponent hwritten).symm
        · rintro rfl
          exact (Option.some.inj hwritten).symm
      rw [withoutDots_eq_self hdotless, routedTenant,
        splitSlash_pathname (List.cons_ne_nil _ _) fun name h => (hnames name h).not_slash]
      dsimp only
      rw [percentDecode_encodeURIComponent hwritten]
      simp only [true_and, and_true, ne_eq, hempty, hsingle, hdouble, or_false, ite_not]

theorem tenantRequest_path {request : TenantRequest} (h : request ∈ tenantRequests) :
    request.path = tenantPath request.action ∧ request.action ∈ tenantActions := by
  simp only [tenantRequests, List.mem_cons, List.not_mem_nil, or_false] at h
  obtain rfl | rfl | rfl := h
  · exact ⟨rfl, by decide⟩
  · exact ⟨rfl, by decide⟩
  · exact ⟨rfl, by decide⟩

/-- A request of the tenants page is routed to its action with the tenant that the dashboard
names, or to none where the name is empty or dots, and the pipe takes it exactly where it is a
slug: no name makes the request one for another tenant. -/
theorem tenant_request_arrives (hbase : ApiBase hosts apiBaseUrl) {request : TenantRequest}
    (hrequest : request ∈ tenantRequests) (tenant : JsString) :
    ((request.path tenant).isSome = true ↔ WellFormed tenant) ∧
    ∀ path ∈ request.path tenant, ∃ received,
      receivedRequest hosts readQuery (apiBaseUrl ++ path) = some received ∧
      routedTenant request.action received.pathname =
        (if tenant = [] ∨ tenant = js "." ∨ tenant = js ".." then none else some tenant) ∧
      ∀ parsed, tenantParam request.action received = some (.ok parsed) ↔
        tenantSlugSchema.Accepts tenant ∧ parsed = some (.string tenant) := by
  obtain ⟨hpaths, haction⟩ := tenantRequest_path hrequest
  rw [hpaths]
  constructor
  · rw [tenantPath, Option.isSome_map, encodeURIComponent_isSome]
  · intro path hpath
    obtain ⟨received, hreceived, hrouted⟩ := @tenantPath_arrives _ _ readQuery _ _ _ hbase haction _ hpath
    refine ⟨received, hreceived, hrouted, fun parsed => ?_⟩
    rw [tenantParam, hrouted]
    split
    · rename_i hdots
      -- no slug is empty, and none has a dot
      have hrefused : ∀ name ∈ [[], js ".", js ".."], ¬ tenantSlugSchema.Accepts name := by decide
      exact iff_of_false (fun h => by cases h) fun h => hrefused tenant (by simpa using hdots) h.1
    · have haccepts : tenantParamSchema.Accepts (some (.string tenant)) ↔ tenantSlugSchema.Accepts tenant := by
        rw [tenantParamSchema, accepts_leaf_iff, stringLeaf_issues_eq_nil_iff]
        simp
      have hvalue : (tenantParamSchema.run (some (.string tenant))).value = some (.string tenant) := rfl
      rw [Option.map_some, Option.some.injEq, transform_ok_iff, haccepts, hvalue,
        eq_comm (a := some (Json.string tenant))]

end Routes

section Upload
variable (library : LibraryJson) (service : StorageService W) (keyPrefix : JsString) (uuid : Uuid)

/-- A parsed body, as the handler takes it. -/
def readTenantUpload (parsed : Option Json) : Option TenantUploadBody := do
  let entries ← asObject parsed
  let .string category ← Json.lookup (js "category") entries | none
  let .string content ← Json.lookup (js "content") entries | none
  if hcategory : tenantCategorySchema.Accepts category then
    if hcontent : tenantContentSchema.Accepts content then
      match Json.lookup (js "extension") entries with
      | none => some ⟨⟨category, hcategory⟩, content, none, hcontent⟩
      | some (.string extension) =>
        if hextension : extensionSchema.Accepts extension then
          some ⟨⟨category, hcategory⟩, content, some ⟨extension, hextension⟩, hcontent⟩
        else none
      | some _ => none
    else none
  else none

def TenantUploadView.toJson (view : TenantUploadView) : Json :=
  .object [(js "tenant", .string view.tenant), (js "key", .string view.key), (js "fullKey", .string view.fullKey),
    (js "result", library.result view.result), (js "note", .string (js view.note))]

/-- What becomes of the service's promise: its value with the status of the route, the
library's exception through the filter, any other error through the default handler. -/
def tenantOutcome : Except Rejection TenantUploadView → Wire.Outcome
  | .ok view => .value 201 (TenantUploadView.toJson library view)
  | .error (.storage exception) => .storageException (library.raised exception)
  | .error (.other _) => .otherError

/-- `TenantsController.upload`, once its two pipes have passed the tenant and the body. -/
def TenantsController.upload (tenant : TenantSlug) : Handler W := fun parsed w =>
  match readTenantUpload parsed with
  | some body =>
    let (result, w') := TenantsService.upload service keyPrefix tenant body uuid w
    (tenantOutcome library result, w')
  | none => (.otherError, w)

/-- The bytes of the body's text. -/
def tenantUploadBytes (content extension : JsString) : Nat :=
  48 + extension.length + byteLength content + ((codePoints content).map escapeCost).sum

theorem readTenantUpload_parsed (body : TenantUploadBody) :
    readTenantUpload (some (parsedTenantUpload body)) = some body := by
  obtain ⟨⟨category, hcategory⟩, content, extension, hcontent⟩ := body
  cases extension with
  | none =>
    change (if hcategory : _ then _ else _) = _
    rw [dif_pos hcategory, dif_pos hcontent]
    rfl
  | some extension =>
    change (if hcategory : _ then _ else _) = _
    rw [dif_pos hcategory, dif_pos hcontent]
    exact dif_pos extension.accepted

section Text
variable (toLowerCase : JsString → JsString) {file : TextFile}

theorem tenantUploadRequest_plain : Plain (tenantUploadRequest toLowerCase file) := by
  apply Plain.object
  · change [js "category", js "content", js "extension"].Nodup
    decide
  · intro entry hentry
    simp only [List.mem_cons, List.not_mem_nil, or_false] at hentry
    obtain rfl | rfl | rfl := hentry
    · exact .string _
    · exact .string _
    · exact .string _

/-- What is left of a text is whole, and no longer than the limit. -/
theorem truncateToByteLength_bytes {s : JsString} (h : WellFormed s) (maxBytes : Nat) :
    WellFormed (truncateToByteLength s maxBytes) ∧ byteLength (truncateToByteLength s maxBytes) ≤ maxBytes := by
  rw [truncateToByteLength]
  split
  · rename_i hread
    exact ⟨h, (read_eq_length_iff s maxBytes).mp hread⟩
  · have hscalars : ∀ cp ∈ fitting maxBytes (codePoints s), IsScalar cp :=
      fun cp hcp => h.scalar cp ((fitting_isPrefix maxBytes (codePoints s)).subset hcp)
    have hfits := fitting_length_le maxBytes (codePoints s)
    change WellFormed (decodeText ((fitting maxBytes (codePoints s)).flatMap encodedBytes)) ∧
      byteLength (decodeText ((fitting maxBytes (codePoints s)).flatMap encodedBytes)) ≤ maxBytes
    generalize fitting maxBytes (codePoints s) = taken at hscalars hfits
    have hlength (cps : List Nat) (hcps : ∀ cp ∈ cps, IsScalar cp) :
        byteLength (cps.flatMap utf16) = (cps.flatMap encodedBytes).length := by
      rw [byteLength, encodeUtf8, codePoints_flatMap_utf16 hcps]
      rfl
    rw [decodeText_encoded hscalars]
    split
    · have htail : ∀ cp ∈ taken.tail, IsScalar cp := fun cp hcp => hscalars cp (List.mem_of_mem_tail hcp)
      refine ⟨wellFormed_flatMap htail, ?_⟩
      rw [hlength _ htail]
      exact le_trans ((List.tail_sublist taken).flatMap encodedBytes).length_le hfits
    · exact ⟨wellFormed_flatMap hscalars, by rwa [hlength _ hscalars]⟩

/-- A segment of a key is quoted without escapes. -/
theorem byteLength_quote_plain {s : JsString} (h : PlainSegment s) : byteLength (quote s) = s.length + 2 := by
  have hcosts : ∀ cost ∈ (codePoints s).map escapeCost, cost = 0 := by
    rw [codePoints_ascii h.isAscii]
    intro cost hcost
    obtain ⟨cp, hcp, rfl⟩ := List.mem_map.mp hcost
    obtain ⟨u, hu, rfl⟩ := List.mem_map.mp hcp
    have hunit := h u hu
    simp only [isKeySeedUnit, isSlugUnit, isLowerAlnum, Bool.or_eq_true, Bool.and_eq_true, decide_eq_true_eq,
      beq_iff_eq] at hunit
    rw [escapeCost, List.lookup_eq_none_iff.mpr, Option.isSome_none, if_neg Bool.false_ne_true, if_neg (by omega)]
    simp only [letterEscapes, List.mem_cons, List.not_mem_nil, or_false, forall_eq_or_imp, forall_eq]
    simp only [bne_iff_ne]
    omega
  have hsum : ((codePoints s).map escapeCost).sum = 0 := List.sum_eq_zero hcosts
  rw [byteLength_quote h.isAscii.wellFormed, hsum, byteLength_ascii h.isAscii]

/-- The text of the body, and how many bytes it has. -/
theorem tenantUploadRequest_text (hcontent : WellFormed (tenantUploadContent file)) : ∃ text,
    stringify (tenantUploadRequest toLowerCase file) = some text ∧ byteLength text =
      tenantUploadBytes (tenantUploadContent file) (deriveExtension toLowerCase file.name) := by
  let extension : Extension := ⟨deriveExtension toLowerCase file.name, deriveExtension_accepted toLowerCase file.name⟩
  have htext : stringify (tenantUploadRequest toLowerCase file) = some (js "\x7b\"category\":\"files\",\"content\":" ++
      (quote (tenantUploadContent file) ++ 0x2C :: (js "\"extension\":" ++ (quote extension.text ++ [0x7D])))) := by
    simp only [tenantUploadRequest, stringify, stringifyEntries, Option.bind_some, Option.map_some, joinCommas,
      List.append_assoc, List.cons_append, Option.some.injEq]
    rfl
  refine ⟨_, htext, ?_⟩
  have hempty : byteLength [] = 0 := rfl
  have hopening : (js "\x7b\"category\":\"files\",\"content\":").length = 30 := by decide
  have hmiddle : (js "\"extension\":").length = 12 := by decide
  rw [byteLength_ascii_append (by decide : IsAscii (js "\x7b\"category\":\"files\",\"content\":")),
    byteLength_append_ascii (by decide), byteLength_ascii_append (by decide : IsAscii (js "\"extension\":")),
    byteLength_append_ascii (by decide), byteLength_quote hcontent, byteLength_quote_plain extension.plain, hempty,
    hopening,
    hmiddle, tenantUploadBytes]
  change _ = 48 + extension.text.length + _ + _
  omega

/-- The content is short enough for the body, unless it is full of what has to be escaped. -/
theorem tenantUploadContent_bytes (htext : WellFormed file.text) (hname : WellFormed file.name)
    (hshort : file.name.length ≤ 255) :
    WellFormed (tenantUploadContent file) ∧ byteLength (tenantUploadContent file) ≤ 65536 := by
  obtain ⟨hwellFormed, hbytes⟩ := truncateToByteLength_bytes htext maxTextUploadBytes
  have hsentence : IsAscii (js "demo upload ") := by decide
  have hlength : (js "demo upload ").length = 12 := by decide
  rw [tenantUploadContent]
  split
  · exact ⟨hwellFormed, hbytes⟩
  · refine ⟨hsentence.wellFormed.append hname, ?_⟩
    have hfit := byteLength_le_length file.name
    rw [byteLength_ascii_append hsentence, hlength]
    omega

theorem tenantUploadBytes_le (htext : WellFormed file.text) (hname : WellFormed file.name)
    (hshort : file.name.length ≤ 255)
    (hescapes : ((codePoints (tenantUploadContent file)).map escapeCost).sum ≤ 36808) :
    tenantUploadBytes (tenantUploadContent file) (deriveExtension toLowerCase file.name) ≤ bodyLimit := by
  have hbytes := (tenantUploadContent_bytes htext hname hshort).2
  have hextension := ((accepts_boundedClass_iff _ _ _ _ _).mp (deriveExtension_accepted toLowerCase file.name)).2.1
  rw [tenantUploadBytes, bodyLimit]
  omega

end Text

section Remote

variable {library} in
theorem tenantOutcome_writable (hlibrary : library.Documented) (result : Except Rejection TenantUploadView) :
    (tenantOutcome library result).Writable := by
  cases result with
  | ok view =>
    refine .value (by decide) (by decide) (.object _) (.object ?_ ?_)
    · change [js "tenant", js "key", js "fullKey", js "result", js "note"].Nodup
      decide
    · intro entry hentry
      simp only [List.mem_cons, List.not_mem_nil, or_false] at hentry
      obtain rfl | rfl | rfl | rfl | rfl := hentry
      · exact .string _
      · exact .string _
      · exact .string _
      · exact hlibrary.result view.result
      · exact .string _
  | error rejection =>
    cases rejection with
    | storage exception => exact .storageException (hlibrary.status exception) (hlibrary.details exception)
    | other message => exact .otherError

/-- Behind the pipe the handler is the service, with the body that was posted. -/
theorem direct_tenantUpload (toLowerCase : JsString → JsString) {file : TextFile} (slug : TenantSlug)
    (htext : WellFormed file.text) (hshort : file.name.length ≤ 255) (w : W) :
    direct tenantUploadBodySchema (TenantsController.upload library service keyPrefix uuid slug)
      (some (tenantUploadRequest toLowerCase file)) w =
        (tenantOutcome library
            (TenantsService.upload service keyPrefix slug (tenantUploadBody toLowerCase file htext hshort) uuid w).1,
          (TenantsService.upload service keyPrefix slug (tenantUploadBody toLowerCase file htext hshort) uuid w).2) := by
  rw [direct, tenantUploadRequest_parsed toLowerCase file htext hshort]
  dsimp only
  rw [TenantsController.upload, readTenantUpload_parsed]

/-- An upload from the dashboard is the service's own upload, and its answer is what the
dashboard has of it, as long as the text of the body is within the parser's limit; a body that
is over it never reaches the pipe. Up to 36808 bytes of escapes fit beside any content. -/
theorem tenant_upload_remote {library : LibraryJson} {platform : Platform} {parseUrl : JsString → Option ParsedUrl}
    (hplatform : platform.Documented)
    (hlibrary : library.Documented) (toLowerCase : JsString → JsString) {file : TextFile} (slug : TenantSlug)
    (htext : WellFormed file.text) (hname : WellFormed file.name) (hshort : file.name.length ≤ 255)
    (apiBaseUrl path : JsString) (w : W) :
    (((codePoints (tenantUploadContent file)).map escapeCost).sum ≤ 36808 →
      tenantUploadBytes (tenantUploadContent file) (deriveExtension toLowerCase file.name) ≤ bodyLimit) ∧
    exchange parseUrl platform tenantUploadBodySchema (TenantsController.upload library service keyPrefix uuid slug)
      apiBaseUrl path (.post (some (tenantUploadRequest toLowerCase file))) w =
        if tenantUploadBytes (tenantUploadContent file) (deriveExtension toLowerCase file.name) ≤ bodyLimit then
          ((tenantOutcome library (TenantsService.upload service keyPrefix slug
              (tenantUploadBody toLowerCase file htext hshort) uuid w).1).seen parseUrl (apiBaseUrl ++ path),
            (TenantsService.upload service keyPrefix slug (tenantUploadBody toLowerCase file htext hshort) uuid w).2)
        else (.error (.api (unreadError parseUrl 413 (apiBaseUrl ++ path))), w) := by
  refine ⟨tenantUploadBytes_le toLowerCase htext hname hshort, ?_⟩
  obtain ⟨text, hwritten, hbytes⟩ :=
    tenantUploadRequest_text toLowerCase (tenantUploadContent_bytes htext hname hshort).1
  have hserve := serve_text hplatform tenantUploadBodySchema
    (TenantsController.upload library service keyPrefix uuid slug) (.object _) (tenantUploadRequest_plain toLowerCase)
    hwritten w
  have hdirect := direct_tenantUpload library service keyPrefix uuid toLowerCase slug htext hshort w
  rw [tenantUploadRequest] at hdirect
  rw [hdirect, hbytes] at hserve
  have hwritable : (serve platform tenantUploadBodySchema (TenantsController.upload library service keyPrefix uuid slug)
      (some (encodeUtf8 text)) w).1.Writable := by
    rw [hserve]
    split
    · exact tenantOutcome_writable hlibrary _
    · exact payloadTooLarge_writable
  rw [exchange_serve hplatform (Or.inl rfl) hwritten hwritable, hserve]
  split <;> rfl

end Remote

end Upload

/-! A tenant and a name that is no slug; a service that counts what it stores, and a file of
line feeds, each of which is escaped. -/

theorem two_tenants_arrive : ∃ alpha escaping,
    receivedRequest plainHosts formQuery (defaultBase ++ js "/tenants/alpha/objects") = some alpha ∧
    tenantParam (js "objects") alpha = some (.ok (some (.string (js "alpha")))) ∧
    receivedRequest plainHosts formQuery (defaultBase ++ js "/tenants/..%2Falpha/objects") = some escaping ∧
    routedTenant (js "objects") escaping.pathname = some (js "../alpha") ∧
    ∀ parsed, tenantParam (js "objects") escaping ≠ some (.ok parsed) := by
  have harrives (tenant : JsString) := (@tenant_request_arrives _ _ formQuery _ defaultBase_api _
    (List.mem_cons_self : _ ∈ tenantRequests) tenant).2
  obtain ⟨alpha, halpha, -, hparsed⟩ := harrives (js "alpha") (js "/tenants/alpha/objects") rfl
  obtain ⟨escaping, hescaping, hrouted, hrefused⟩ := harrives (js "../alpha") (js "/tenants/..%2Falpha/objects") rfl
  refine ⟨alpha, escaping, halpha, (hparsed _).mpr ⟨by decide, rfl⟩, hescaping, hrouted, fun parsed heq => ?_⟩
  exact absurd ((hrefused parsed).mp heq).1 (by decide)

def countingStorage : StorageService Nat where
  upload _ := fun stored => (.ok ⟨false⟩, stored + 1)
  head _ _ := throw (.storage ⟨.objectNotFound, []⟩)
  download _ := throw (.storage ⟨.objectNotFound, []⟩)
  list _ := throw (.storage ⟨.providerError, []⟩)
  delete _ _ := throw (.storage ⟨.providerError, []⟩)
  deleteMany _ := throw (.storage ⟨.providerError, []⟩)
  copy _ := throw (.storage ⟨.objectNotFound, []⟩)

theorem alpha_accepted : tenantSlugSchema.Accepts (js "alpha") := by decide

theorem firstUuid_shape : isUuid (js "00000000-0000-4000-8000-000000000000") = true := by decide

def alphaUpload : Handler Nat :=
  TenantsController.upload plainLibrary countingStorage [] ⟨_, firstUuid_shape⟩ ⟨js "alpha", alpha_accepted⟩

def hello : TextFile := ⟨js "a.txt", js "hello"⟩

def lineFeeds : TextFile := ⟨js "log.txt", List.replicate 65536 0x0A⟩

theorem lineFeeds_ascii : IsAscii lineFeeds.text := by
  intro u hu
  rw [List.eq_of_mem_replicate hu]
  decide

/-- The dashboard sends them all, in two bytes each. -/
theorem lineFeeds_bytes :
    bodyLimit < tenantUploadBytes (tenantUploadContent lineFeeds) (deriveExtension id lineFeeds.name) := by
  have hextension : deriveExtension id lineFeeds.name = js "txt" := by decide
  have hbytes : byteLength lineFeeds.text = 65536 := byteLength_replicate (by decide) 65536
  have htext : truncateToByteLength lineFeeds.text maxTextUploadBytes = lineFeeds.text :=
    (truncateToByteLength_eq_self_iff lineFeeds_ascii.wellFormed _).mpr (Nat.le_of_eq hbytes)
  have hlength : lineFeeds.text.length = 65536 := List.length_replicate
  have hcontent : tenantUploadContent lineFeeds = lineFeeds.text := by
    rw [tenantUploadContent, htext, if_pos (by rw [hlength]; decide)]
  have hcost : ((codePoints lineFeeds.text).map escapeCost).sum = 65536 := by
    rw [codePoints_ascii lineFeeds_ascii, lineFeeds, List.map_replicate, List.map_replicate, List.sum_replicate]
    rfl
  rw [hcontent, hextension, tenantUploadBytes, hbytes, hcost]
  decide

theorem line_feeds_refused :
    (exchange (fun _ => none) expressPlatform tenantUploadBodySchema alphaUpload [] (js "/tenants/alpha/upload")
      (.post (some (tenantUploadRequest id hello))) 0).2 = 1 ∧
    exchange (fun _ => none) expressPlatform tenantUploadBodySchema alphaUpload [] (js "/tenants/alpha/upload")
      (.post (some (tenantUploadRequest id lineFeeds))) 0 =
        (.error (.api ⟨.unknown, js "HTTP 413 from [url-redacted]", 413, none⟩), 0) := by
  constructor
  · rw [alphaUpload, (tenant_upload_remote countingStorage [] ⟨_, firstUuid_shape⟩ expressPlatform_documented
      plainLibrary_documented id ⟨js "alpha", alpha_accepted⟩ (by decide : WellFormed hello.text) (by decide)
      (by decide) [] (js "/tenants/alpha/upload") 0).2, if_pos (by decide)]
    rfl
  · have hmessage : unreadError (fun _ => none) 413 ([] ++ js "/tenants/alpha/upload") =
        ⟨.unknown, js "HTTP 413 from [url-redacted]", 413, none⟩ := rfl
    rw [← hmessage, alphaUpload, (tenant_upload_remote countingStorage [] ⟨_, firstUuid_shape⟩ expressPlatform_documented
      plainLibrary_documented id ⟨js "alpha", alpha_accepted⟩ lineFeeds_ascii.wellFormed (by decide) (by decide) []
      (js "/tenants/alpha/upload") 0).2, if_neg (Nat.not_le.mpr lineFeeds_bytes)]

end NestStorageExample.Web
