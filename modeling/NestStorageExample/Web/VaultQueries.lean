import NestStorageExample.Api.PublicUrls
import NestStorageExample.Api.RequestAcceptance
import NestStorageExample.Numbers.NumberText
import NestStorageExample.Url.FormText
import NestStorageExample.Url.WebBase

/-! The requests that the dashboard makes with a query, from the hook that writes the URL to
the pipe that is given what the server reads of it. -/
namespace NestStorageExample.Web
open Text Url Validation Api Numbers
variable {α : Type}

/-- The parameters that the routes of the vault know. -/
def parameterNames : List JsString :=
  [js "key", js "start", js "end", js "prefix", js "maxKeys", js "cursor", js "delimiter"]

def paramsJson (params : List (JsString × JsString)) : Json :=
  .object (params.map fun param => (param.1, .string param.2))

/-- `req.query` of a query whose names are known and stand in it once. -/
def ReadsQueries (readQuery : JsString → Json) : Prop :=
  ∀ params query, QueryText params query → (params.map Prod.fst).Nodup →
    (∀ param ∈ params, param.1 ∈ parameterNames) → readQuery query = paramsJson params

/-- What the router and the pipe are given. -/
structure ReceivedRequest where
  pathname : JsString
  query : Json

/-- A URL is parsed before it is sent, and the server reads its query. -/
def receivedRequest (hosts : Hosts α) (readQuery : JsString → Json) (url : JsString) : Option ReceivedRequest :=
  (parse hosts url).map fun record => ⟨record.path.pathname, readQuery (record.query.getD [])⟩

/-- A route of the API: behind the base it makes a URL with a path and nothing behind it. -/
structure RouteUrl (hosts : Hosts α) (apiBaseUrl route pathname : JsString) : Prop where
  seen : ∃ front u, apiBaseUrl ++ route = front ++ [u] ∧ 0x20 < u.toNat ∧ u.toNat < 0x7F
  parses : ∃ front segments, parse hosts (apiBaseUrl ++ route) = some ⟨front, .segments segments, none, none⟩ ∧
    pathname = (UrlPath.segments segments).pathname

/-- `API_BASE_URL`: a web URL without a path, and no slash behind it. A special URL has a host. -/
structure ApiBase (hosts : Hosts α) (apiBaseUrl : JsString) : Prop where
  hostless : hosts.authority true [] = none
  web : WebBase hosts apiBaseUrl
  slashless : apiBaseUrl.getLast? ≠ some slash
  root : ∃ front, parse hosts (apiBaseUrl ++ [slash]) = some ⟨front, .segments [[]], none, none⟩

/-- A segment that a path takes as it is. -/
structure RouteName (name : JsString) : Prop where
  plain : PlainName name
  not_single : isSingleDot name = false
  ne_nil : name ≠ []

/-! One object: its key in the query. -/

/-- `${route}?key=${encodeURIComponent(key)}`; `none` where the encoder throws. -/
def keyPath (route key : JsString) : Option JsString :=
  (encodeURIComponent key).map fun written => route ++ 0x3F :: (js "key=" ++ written)

def useObjectMeta.path : JsString → Option JsString := keyPath (js "/vault/object")

def useDeleteObject.path : JsString → Option JsString := keyPath (js "/vault/object")

def usePublicUrl.path : JsString → Option JsString := keyPath (js "/vault/object/public-url")

def KeyDetailDrawer.previewPath : JsString → Option JsString := keyPath (js "/vault/object/preview")

def ScannerContent.existsPath : JsString → Option JsString := keyPath (js "/scanner/exists")

/-- The first kibibyte. -/
def KeyDetailDrawer.rangePath (key : JsString) : Option JsString :=
  (keyPath (js "/vault/object/range") key).map fun path => path ++ js "&start=0&end=1023"

/-! One page of a folder. -/

/-- `maxKeys` is a whole number wherever the dashboard sets it. -/
structure VaultListParams where
  pathPrefix : Option JsString
  maxKeys : Option Nat
  cursor : Option JsString
  delimiter : Option JsString

namespace VaultListParams

/-- An empty text and a zero are passed over. -/
def given (text : Option JsString) : Option JsString := text.filter (· ≠ [])

def param (name : String) (text : Option JsString) : List (JsString × JsString) :=
  text.toList.map fun value => (js name, value)

def searchParams (params : VaultListParams) : List (JsString × JsString) :=
  param "prefix" (given params.pathPrefix) ++ param "maxKeys" ((params.maxKeys.filter (· ≠ 0)).map decimal) ++
    param "cursor" (given params.cursor) ++ param "delimiter" (given params.delimiter)

/-- The path of the request: `/vault`, with a query unless it is empty. -/
def path (params : VaultListParams) : JsString :=
  js "/vault" ++ if searchParamsText params.searchParams = [] then [] else 0x3F :: searchParamsText params.searchParams

/-- What the route documents. -/
structure WithinBounds (params : VaultListParams) : Prop where
  pathPrefix : ∀ text ∈ params.pathPrefix, byteLength text ≤ maxKeyBytes
  maxKeys : ∀ n ∈ params.maxKeys, n ≤ 1000
  cursor : ∀ text ∈ params.cursor, byteLength text ≤ maxKeyBytes
  delimiter : ∀ text ∈ params.delimiter, text = [] ∨ text = js "/"

/-- Texts without lone surrogates, and a number that is written digit by digit. -/
structure Sendable (params : VaultListParams) : Prop where
  pathPrefix : ∀ text ∈ params.pathPrefix, WellFormed text
  maxKeys : ∀ n ∈ params.maxKeys, n ≤ 2 ^ 53
  cursor : ∀ text ∈ params.cursor, WellFormed text
  delimiter : ∀ text ∈ params.delimiter, WellFormed text

/-- The query as the handler has it. -/
def listQuery (params : VaultListParams) : Json :=
  .object (Json.optionalField "prefix" ((given params.pathPrefix).map .string) ++
    [(js "maxKeys", .number (.finite (((params.maxKeys.filter (· ≠ 0)).getD 50 : Nat) : Rat)))] ++
    Json.optionalField "cursor" ((given params.cursor).map .string) ++
    Json.optionalField "delimiter" ((given params.delimiter).map .string))

end VaultListParams

/-- The browser's own request. -/
def VaultContent.listParams (folder cursor : JsString) : VaultListParams :=
  ⟨VaultListParams.given (some folder), some 50, VaultListParams.given (some cursor), some (js "/")⟩

section Arrival
variable {hosts : Hosts α} {readQuery : JsString → Json}

/-! The routes. -/

theorem isRouteName {name : JsString} (h : (name.all (fun c => isPlain c.toNat) && !isDoubleDot name &&
    !isDriveSegment name && !isSingleDot name && !name.isEmpty) = true) : RouteName name := by
  simp only [Bool.and_eq_true, Bool.not_eq_true', List.all_eq_true, List.isEmpty_eq_false_iff] at h
  obtain ⟨⟨⟨⟨hplain, hdouble⟩, hdrive⟩, hsingle⟩, hne⟩ := h
  exact ⟨⟨hplain, hdouble, hdrive⟩, hsingle, hne⟩

/-- Behind the base there is nothing but the texts. -/
theorem ApiBase.parses {apiBaseUrl : JsString} (hbase : ApiBase hosts apiBaseUrl) {first : JsString}
    {rest : List JsString}
    (hplain : ∀ text ∈ first :: rest, PlainText text) (hne : first ≠ []) : ∃ front,
    parse hosts (apiBaseUrl ++ slash :: joinSlash (first :: rest)) =
      some ⟨front, .segments (resolve front [] (first :: rest)), none, none⟩ := by
  have hplace := place_webBase hosts hbase.hostless hbase.web
  rw [stripTrailingSlash, if_neg hbase.slashless] at hplace
  obtain ⟨front, segments, hfolder, hparses⟩ := parse_resolved hosts hplain hne hplace
  obtain ⟨front', hroot⟩ := hbase.root
  have hsegments : segments = [] := by
    rw [hfolder, Option.some.injEq, UrlRecord.mk.injEq, UrlPath.segments.injEq] at hroot
    simpa using hroot.2.1
  rw [hsegments] at hparses
  exact ⟨front, hparses⟩

theorem withoutDots_eq_self {names : List JsString} (h : ∀ name ∈ names, isSingleDot name = false) :
    withoutDots names = names := by
  have hread : ∀ s, isSingleDot s = true → id s ≠ id [] := by
    rintro s hs rfl
    exact absurd hs (by decide)
  simpa using (map_withoutDots_eq_iff hread names).mpr h

/-- Behind the base a route of such names is the whole path. -/
theorem ApiBase.route {apiBaseUrl : JsString} (hbase : ApiBase hosts apiBaseUrl) {first : JsString}
    {rest : List JsString}
    (h : ∀ name ∈ first :: rest, RouteName name) :
    RouteUrl hosts apiBaseUrl (slash :: joinSlash (first :: rest)) (slash :: joinSlash (first :: rest)) := by
  have hnames : ∀ name ∈ first :: rest, PlainName name := fun name hname => (h name hname).plain
  obtain ⟨front, hparses⟩ :=
    hbase.parses (fun name hname => (hnames name hname).plain) (h first List.mem_cons_self).ne_nil
  rw [resolve_eq front [] hnames, List.nil_append,
    withoutDots_eq_self fun name hname => (h name hname).not_single] at hparses
  have hpathname : (UrlPath.segments (first :: rest)).pathname = slash :: joinSlash (first :: rest) :=
    pathname_append [] (List.cons_ne_nil first rest)
  refine ⟨?_, front, first :: rest, hparses, hpathname.symm⟩
  have hjoined : ∀ c ∈ slash :: joinSlash (first :: rest), 0x20 < c.toNat ∧ c.toNat < 0x7F :=
    List.forall_mem_cons.mpr ⟨by decide, fun c hc => (joined_of_names hnames).bounds hc⟩
  have hne : slash :: joinSlash (first :: rest) ≠ [] := List.cons_ne_nil _ _
  refine ⟨apiBaseUrl ++ (slash :: joinSlash (first :: rest)).dropLast,
    (slash :: joinSlash (first :: rest)).getLast hne, ?_, hjoined _ (List.getLast_mem hne)⟩
  rw [List.append_assoc, List.dropLast_append_getLast]

/-- A query behind a route arrives: the router has the route, and the pipe the parameters. -/
theorem request_arrives (hread : ReadsQueries readQuery) {apiBaseUrl route pathname : JsString}
    (hroute : RouteUrl hosts apiBaseUrl route pathname) {params : List (JsString × JsString)} {query : JsString}
    (hquery : QueryText params query) (hnames : (params.map Prod.fst).Nodup)
    (hknown : ∀ param ∈ params, param.1 ∈ parameterNames) :
    receivedRequest hosts readQuery (apiBaseUrl ++ (route ++ 0x3F :: query)) = some ⟨pathname, paramsJson params⟩ := by
  obtain ⟨last, u, hlast, hu⟩ := hroute.seen
  obtain ⟨front, segments, hparses, rfl⟩ := hroute.parses
  rw [hlast] at hparses
  have hescaped := hread params _ (hquery.escaped_query (isSpecial front.scheme)) hnames hknown
  rw [← List.append_assoc, hlast, receivedRequest, parse_with_query hosts hu hparses hquery.units, Option.map_some,
    Option.getD_some, hescaped]

/-- A route without a query. -/
theorem route_arrives (hread : ReadsQueries readQuery) {apiBaseUrl route pathname : JsString}
    (hroute : RouteUrl hosts apiBaseUrl route pathname) :
    receivedRequest hosts readQuery (apiBaseUrl ++ route) = some ⟨pathname, paramsJson []⟩ := by
  obtain ⟨front, segments, hparses, rfl⟩ := hroute.parses
  rw [receivedRequest, hparses, Option.map_some, Option.getD_none,
    hread [] [] .nil List.nodup_nil (fun _ h => absurd h List.not_mem_nil)]

theorem isName_of_parameterNames {name : JsString} (h : name ∈ parameterNames) : IsName name := by
  have hall : parameterNames.all (fun name => name.all fun u => isAlpha u.toNat) = true := by decide
  exact List.all_eq_true.mp (List.all_eq_true.mp hall name h)

end Arrival

section Keys
variable {hosts : Hosts α} {readQuery : JsString → Json} {apiBaseUrl route pathname key : JsString}

theorem keyParam_written {written : JsString} (h : encodeURIComponent key = some written) :
    ParamText (js "key", key) (js "key=" ++ written) :=
  .mk (isName_of_parameterNames (by decide)) ((encodeURIComponent_isSome key).mp (by rw [h]; rfl))
    (encodeURIComponent_written h)

theorem keyPath_isSome (route key : JsString) : (keyPath route key).isSome = true ↔ WellFormed key := by
  rw [keyPath, Option.isSome_map, encodeURIComponent_isSome]

/-- The route is given the very key that the dashboard names. -/
theorem keyPath_arrives (hread : ReadsQueries readQuery) (hroute : RouteUrl hosts apiBaseUrl route pathname)
    {path : JsString} (hpath : keyPath route key = some path) :
    receivedRequest hosts readQuery (apiBaseUrl ++ path) = some ⟨pathname, paramsJson [(js "key", key)]⟩ := by
  obtain ⟨written, hwritten, rfl⟩ := Option.map_eq_some_iff.mp hpath
  apply request_arrives hread hroute (.single (keyParam_written hwritten)) (List.nodup_singleton _)
  intro param hparam
  rw [List.mem_singleton.mp hparam]
  change js "key" ∈ parameterNames
  decide

theorem key_accepts_iff (key : JsString) :
    (Schema.leaf (stringLeaf objectKeySchema)).Accepts (some (.string key)) ↔ objectKeySchema.Accepts key := by
  rw [accepts_leaf_iff, stringLeaf_issues_eq_nil_iff]
  simp

theorem transform_keyParam (key : JsString) (parsed : Option Json) :
    ZodValidationPipe.transform downloadQuerySchema (some (paramsJson [(js "key", key)])) = .ok parsed ↔
      objectKeySchema.Accepts key ∧ parsed = some (paramsJson [(js "key", key)]) := by
  have hlookup : Json.lookup (js "key") [(js "key", .string key)] = some (.string key) := rfl
  have haccepts : downloadQuerySchema.Accepts (some (paramsJson [(js "key", key)])) ↔ objectKeySchema.Accepts key := by
    rw [downloadQuerySchema, paramsJson, accepts_entries_iff, keyShape, Shape.accepts_field_iff, List.map_singleton,
      hlookup, key_accepts_iff]
    exact and_iff_left (Shape.accepts_nil _)
  have hvalue : (downloadQuerySchema.run (some (paramsJson [(js "key", key)]))).value =
      some (paramsJson [(js "key", key)]) := rfl
  rw [transform_ok_iff, haccepts, hvalue, eq_comm (a := some (paramsJson [(js "key", key)]))]

theorem decimal_written (n : Nat) : FormText (codePoints (decimal n)) (decimal n) := by
  apply plain_written
  intro u hu
  have hdigit := decimal_digits n u hu
  rw [isDigit, Bool.and_eq_true, decide_eq_true_eq, decide_eq_true_eq] at hdigit
  simp only [isQueryPlain, Bool.and_eq_true, decide_eq_true_eq, Bool.not_eq_true', List.contains_eq_mem,
    decide_eq_false_iff_not, List.mem_cons, List.not_mem_nil, or_false, not_or]
  omega

/-- The range query of the drawer, as its route is given it. -/
def rangeParams (key : JsString) : List (JsString × JsString) :=
  [(js "key", key), (js "start", decimal 0), (js "end", decimal 1023)]

def rangeQuery (key : JsString) : Json :=
  .object [(js "key", .string key), (js "start", .number (.finite 0)), (js "end", .number (.finite 1023))]

theorem rangePath_arrives (hread : ReadsQueries readQuery)
    (hroute : RouteUrl hosts apiBaseUrl (js "/vault/object/range") pathname) {path : JsString}
    (hpath : KeyDetailDrawer.rangePath key = some path) :
    receivedRequest hosts readQuery (apiBaseUrl ++ path) = some ⟨pathname, paramsJson (rangeParams key)⟩ := by
  obtain ⟨front, hfront, rfl⟩ := Option.map_eq_some_iff.mp hpath
  obtain ⟨written, hwritten, rfl⟩ := Option.map_eq_some_iff.mp hfront
  have hnumber (name : JsString) (n : Nat) (hname : name ∈ parameterNames) :
      ParamText (name, decimal n) (name ++ equalsSign :: decimal n) :=
    .mk (isName_of_parameterNames hname) (isAscii_decimal n).wellFormed (decimal_written n)
  have hquery : QueryText (rangeParams key) (js "key=" ++ written ++ js "&start=0&end=1023") :=
    .cons (keyParam_written hwritten) (.cons (hnumber (js "start") 0 (by decide))
      (.single (hnumber (js "end") 1023 (by decide))))
  have hknown : ∀ param ∈ rangeParams key, param.1 ∈ parameterNames := by
    intro param hparam
    simp only [rangeParams, List.mem_cons, List.not_mem_nil, or_false] at hparam
    obtain rfl | rfl | rfl := hparam
    · change js "key" ∈ parameterNames
      decide
    · change js "start" ∈ parameterNames
      decide
    · change js "end" ∈ parameterNames
      decide
  have harrives := request_arrives hread hroute hquery (show [js "key", js "start", js "end"].Nodup by decide) hknown
  rw [List.append_assoc, List.cons_append]
  exact harrives

theorem transform_rangeParams {toNumber : Option Json → JsNumber}
    (hnumber : ∀ s, toNumber (some (.string s)) = numberOf s)
    (key : JsString) (parsed : Option Json) :
    ZodValidationPipe.transform (rangeQuerySchema toNumber) (some (paramsJson (rangeParams key))) = .ok parsed ↔
      objectKeySchema.Accepts key ∧ parsed = some (rangeQuery key) := by
  have hoffset (n : Nat) (hn : n ≤ 1023) :
      (Schema.leaf (coercedLeaf toNumber (integer ++ [minNumber 0]))).run (some (.string (decimal n))) =
        ⟨some (.number (.finite n)), []⟩ := by
    have hadmitted : Admitted n := (admitted_iff _).mpr ⟨n, rfl, by omega⟩
    rw [Schema.run, coercedLeaf, hnumber, numberOf_decimal (by omega), numberOutcome, hadmitted]
    rfl
  have hkey : Json.lookup (js "key") ((rangeParams key).map fun param => (param.1, .string param.2)) =
      some (.string key) := rfl
  have hstart : Json.lookup (js "start") ((rangeParams key).map fun param => (param.1, .string param.2)) =
      some (.string (decimal 0)) := rfl
  have hend : Json.lookup (js "end") ((rangeParams key).map fun param => (param.1, .string param.2)) =
      some (.string (decimal 1023)) := rfl
  have haccepts : (rangeQuerySchema toNumber).Accepts (some (paramsJson (rangeParams key))) ↔
      objectKeySchema.Accepts key := by
    rw [rangeQuerySchema, paramsJson, accepts_entries_iff, keyShape, Shape.extend, Shape.extend, Shape.accepts_field_iff,
      Shape.accepts_field_iff, Shape.accepts_field_iff, hkey, hstart, hend, key_accepts_iff]
    refine and_iff_left ⟨?_, ?_, Shape.accepts_nil _⟩
    · rw [Schema.Accepts, hoffset 0 (by decide)]
    · rw [Schema.Accepts, hoffset 1023 (by decide)]
  have hvalue : ((rangeQuerySchema toNumber).run (some (paramsJson (rangeParams key)))).value =
      some (rangeQuery key) := by
    rw [rangeQuerySchema, paramsJson, Schema.run]
    dsimp only [asObject]
    rw [keyShape, Shape.extend, Shape.extend, Shape.values, Shape.values, Shape.values, Shape.values, hkey, hstart, hend,
      hoffset 0 (by decide), hoffset 1023 (by decide)]
    rfl
  rw [transform_ok_iff, haccepts, hvalue, eq_comm (a := some (rangeQuery key))]

end Keys

section Listing
open VaultListParams

theorem param_names (name : String) (text : Option JsString) : ((param name text).map Prod.fst).Sublist [js name] := by
  cases text with
  | none => exact List.nil_sublist _
  | some text => exact List.Sublist.refl _

theorem searchParams_names (params : VaultListParams) :
    (params.searchParams.map Prod.fst).Nodup ∧ ∀ param ∈ params.searchParams, param.1 ∈ parameterNames := by
  have hnames : (params.searchParams.map Prod.fst).Sublist [js "prefix", js "maxKeys", js "cursor", js "delimiter"] := by
    rw [searchParams, List.map_append, List.map_append, List.map_append]
    exact (((param_names _ _).append (param_names _ _)).append (param_names _ _)).append (param_names _ _)
  have hknown : ∀ name ∈ [js "prefix", js "maxKeys", js "cursor", js "delimiter"], name ∈ parameterNames := by decide
  refine ⟨hnames.nodup (by decide), ?_⟩
  intro param hparam
  exact hknown _ (hnames.subset (List.mem_map_of_mem hparam))

theorem mem_of_given {text : Option JsString} {value : JsString} (h : value ∈ given text) : value ∈ text :=
  (Option.mem_filter_iff.mp h).1

theorem searchParams_values {params : VaultListParams} (h : params.Sendable) :
    ∀ param ∈ params.searchParams, IsName param.1 ∧ WellFormed param.2 := by
  intro param hparam
  refine ⟨isName_of_parameterNames ((searchParams_names params).2 param hparam), ?_⟩
  have hvalue {name : String} {text : Option JsString} (htext : ∀ value ∈ text, WellFormed value)
      (hmem : param ∈ VaultListParams.param name text) : WellFormed param.2 := by
    obtain ⟨value, hvalue, rfl⟩ := List.mem_map.mp hmem
    exact htext value (Option.mem_toList.mp hvalue)
  rw [searchParams, List.mem_append, List.mem_append, List.mem_append] at hparam
  obtain ((hparam | hparam) | hparam) | hparam := hparam
  · exact hvalue (fun _ hv => h.pathPrefix _ (mem_of_given hv)) hparam
  · refine hvalue (fun _ hv => ?_) hparam
    obtain ⟨n, -, rfl⟩ := Option.map_eq_some_iff.mp hv
    exact (isAscii_decimal n).wellFormed
  · exact hvalue (fun _ hv => h.cursor _ (mem_of_given hv)) hparam
  · exact hvalue (fun _ hv => h.delimiter _ (mem_of_given hv)) hparam

theorem searchParams_lookups (params : VaultListParams) : ∃ entries, paramsJson params.searchParams = .object entries ∧
    Json.lookup (js "prefix") entries = (given params.pathPrefix).map .string ∧
    Json.lookup (js "maxKeys") entries = (params.maxKeys.filter (· ≠ 0)).map (fun n => .string (decimal n)) ∧
    Json.lookup (js "cursor") entries = (given params.cursor).map .string ∧
    Json.lookup (js "delimiter") entries = (given params.delimiter).map .string := by
  rw [searchParams]
  cases given params.pathPrefix <;> cases params.maxKeys.filter (· ≠ 0) <;> cases given params.cursor <;>
    cases given params.delimiter <;> exact ⟨_, rfl, rfl, rfl, rfl, rfl⟩

variable {toNumber : Option Json → JsNumber} (hnumber : ∀ s, toNumber (some (.string s)) = numberOf s)

theorem optionalText_value (schema : StringSchema) (text : Option JsString) :
    ((Schema.optional (.leaf (stringLeaf schema))).run (text.map .string)).value = text.map .string := by
  cases text <;> rfl

theorem optionalText_accepts_iff (text : Option JsString) :
    (Schema.optional (.leaf (stringLeaf listTextSchema))).Accepts ((given text).map .string) ↔
      ∀ value ∈ text, byteLength value ≤ maxKeyBytes := by
  cases text with
  | none => exact iff_of_true rfl (by simp)
  | some value =>
    by_cases hempty : value = []
    · rw [hempty]
      exact iff_of_true rfl (by simp; decide)
    · have hgiven : given (some value) = some value := by simpa [given] using hempty
      rw [hgiven, Option.map_some, accepts_optional_iff, or_iff_right (Option.some_ne_none _), accepts_leaf_iff,
        stringLeaf_issues_eq_nil_iff]
      simp [listTextSchema_accepts_iff]

theorem delimiter_value (text : Option JsString) :
    ((Schema.optional (.leaf (literalLeaf (js "/")))).run (text.map .string)).value = text.map .string := by
  cases text with
  | none => rfl
  | some value =>
    change (literalLeaf (js "/") (some (.string value))).value = some (.string value)
    rw [literalLeaf, memberLeaf]
    split <;> rfl

theorem delimiter_accepts_iff (text : Option JsString) :
    (Schema.optional (.leaf (literalLeaf (js "/")))).Accepts ((given text).map .string) ↔
      ∀ value ∈ text, value = [] ∨ value = js "/" := by
  cases text with
  | none => exact iff_of_true rfl (by simp)
  | some value =>
    by_cases hempty : value = []
    · rw [hempty]
      exact iff_of_true rfl (by simp)
    · have hgiven : given (some value) = some value := by simpa [given] using hempty
      rw [hgiven, Option.map_some, accepts_optional_iff, or_iff_right (Option.some_ne_none _), accepts_leaf_iff,
        literalLeaf, memberLeaf_issues_eq_nil_iff]
      simp [hempty]

/-- The checks of `maxKeys` on a whole number. -/
theorem maxKeys_issues_iff (n : Nat) :
    numberIssues (integer ++ [minNumber 1, maxNumber 1000]) n = [] ↔ 1 ≤ n ∧ n ≤ 1000 := by
  have hlast : (∀ check ∈ [minNumber 1, maxNumber 1000], check.holds (n : Rat) = true) ↔ 1 ≤ n ∧ n ≤ 1000 := by
    simp [minNumber, maxNumber]
  rw [numberIssues_eq_nil_iff, List.forall_mem_append, ← numberIssues_eq_nil_iff, integer_issues_eq_nil_iff, hlast,
    and_iff_right_iff_imp]
  rintro ⟨-, hn⟩
  exact ⟨n, by simp, by omega, by omega⟩

include hnumber

theorem maxKeys_run {n : Nat} (h : n ≤ 2 ^ 53) :
    (Schema.leaf (coercedLeaf toNumber (integer ++ [minNumber 1, maxNumber 1000]))).run (some (.string (decimal n))) =
      ⟨some (.number (.finite n)),
        LeafOutcome.report ⟨none, numberIssues (integer ++ [minNumber 1, maxNumber 1000]) n⟩⟩ := by
  rw [Schema.run, coercedLeaf, hnumber, numberOf_decimal h]
  rfl

/-- A zero is not sent, so the number is at least one wherever it is checked. -/
theorem maxKeys_accepts_iff {maxKeys : Option Nat} (h : ∀ n ∈ maxKeys, n ≤ 2 ^ 53) :
    (Schema.default (.number (.finite 50))
        (.leaf (coercedLeaf toNumber (integer ++ [minNumber 1, maxNumber 1000])))).Accepts
      ((maxKeys.filter (· ≠ 0)).map fun n => .string (decimal n)) ↔ ∀ n ∈ maxKeys, n ≤ 1000 := by
  cases maxKeys with
  | none => exact iff_of_true rfl (by simp)
  | some n =>
    by_cases hzero : n = 0
    · rw [hzero]
      exact iff_of_true rfl (by simp)
    · have hsent : (some n).filter (· ≠ 0) = some n := by simpa using hzero
      rw [hsent, Option.map_some, accepts_default_iff, or_iff_right (Option.some_ne_none _), Schema.Accepts,
        maxKeys_run hnumber (h n rfl), LeafOutcome.report, List.map_eq_nil_iff, maxKeys_issues_iff]
      simp
      omega

theorem maxKeys_value {maxKeys : Option Nat} (h : ∀ n ∈ maxKeys, n ≤ 2 ^ 53) :
    ((Schema.default (.number (.finite 50))
        (.leaf (coercedLeaf toNumber (integer ++ [minNumber 1, maxNumber 1000])))).run
      ((maxKeys.filter (· ≠ 0)).map fun n => .string (decimal n))).value =
        some (.number (.finite (((maxKeys.filter (· ≠ 0)).getD 50 : Nat) : Rat))) := by
  cases hsent : maxKeys.filter (· ≠ 0) with
  | none => rfl
  | some n =>
    have hn : n ≤ 2 ^ 53 := h n (Option.mem_filter_iff.mp hsent).1
    have hrun := maxKeys_run hnumber hn
    rw [Option.map_some, Schema.run, Option.isNone_some, if_neg Bool.false_ne_true, hrun, Option.getD_some]

/-- The pipe lets the parameters through exactly within the route's bounds, and as they were set. -/
theorem transform_listParams {params : VaultListParams} (h : params.Sendable) (parsed : Option Json) :
    ZodValidationPipe.transform (listQuerySchema toNumber) (some (paramsJson params.searchParams)) = .ok parsed ↔
      params.WithinBounds ∧ parsed = some params.listQuery := by
  obtain ⟨entries, hentries, hfolder, hmaxKeys, hcursor, hdelimiter⟩ := searchParams_lookups params
  have haccepts : (listQuerySchema toNumber).Accepts (some (.object entries)) ↔ params.WithinBounds := by
    rw [listQuerySchema, accepts_entries_iff, Shape.accepts_field_iff, Shape.accepts_field_iff, Shape.accepts_field_iff,
      Shape.accepts_field_iff, hfolder, hmaxKeys, hcursor, hdelimiter, optionalText_accepts_iff,
      maxKeys_accepts_iff hnumber h.maxKeys, optionalText_accepts_iff, delimiter_accepts_iff]
    constructor
    · rintro ⟨hfolder, hmaxKeys, hcursor, hdelimiter, -⟩
      exact ⟨hfolder, hmaxKeys, hcursor, hdelimiter⟩
    · exact fun hbounds =>
        ⟨hbounds.pathPrefix, hbounds.maxKeys, hbounds.cursor, hbounds.delimiter, Shape.accepts_nil _⟩
  have hvalue : ((listQuerySchema toNumber).run (some (.object entries))).value = some params.listQuery := by
    have hnumbers := maxKeys_value hnumber h.maxKeys
    rw [listQuerySchema, Schema.run]
    dsimp only [asObject]
    rw [Shape.values, Shape.values, Shape.values, Shape.values, Shape.values, hfolder, hmaxKeys, hcursor, hdelimiter,
      optionalText_value, hnumbers, optionalText_value, delimiter_value, listQuery]
    cases given params.pathPrefix <;> cases given params.cursor <;> cases given params.delimiter <;> rfl
  rw [hentries, transform_ok_iff, haccepts, hvalue, eq_comm (a := some params.listQuery)]

end Listing

section Requests
variable {hosts : Hosts α} {readQuery : JsString → Json} {toNumber : Option Json → JsNumber} {apiBaseUrl : JsString}

/-- A request of a key and nothing else: its path, and the route and the pipe it is meant for. -/
structure KeyRequest where
  path : JsString → Option JsString
  route : JsString
  schema : Schema

def keyRequests : List KeyRequest :=
  [⟨useObjectMeta.path, js "/vault/object", downloadQuerySchema⟩,
    ⟨useDeleteObject.path, js "/vault/object", downloadQuerySchema⟩,
    ⟨usePublicUrl.path, js "/vault/object/public-url", downloadQuerySchema⟩,
    ⟨KeyDetailDrawer.previewPath, js "/vault/object/preview", downloadQuerySchema⟩,
    ⟨ScannerContent.existsPath, js "/scanner/exists", scannerExistsQuerySchema⟩]

/-- A route whose names are looked at one by one. -/
theorem ApiBase.namedRoute (hbase : ApiBase hosts apiBaseUrl) (first : JsString) (rest : List JsString)
    (hnames : (first :: rest).all (fun name => name.all (fun c => isPlain c.toNat) && !isDoubleDot name &&
      !isDriveSegment name && !isSingleDot name && !name.isEmpty) = true) :
    RouteUrl hosts apiBaseUrl (slash :: joinSlash (first :: rest)) (slash :: joinSlash (first :: rest)) :=
  hbase.route fun name hname => isRouteName (List.all_eq_true.mp hnames name hname)

/-- Each is the key in the query of its route, and each pipe asks for the key alone. -/
theorem ApiBase.keyRequest (hbase : ApiBase hosts apiBaseUrl) {request : KeyRequest} (h : request ∈ keyRequests) :
    request.path = keyPath request.route ∧ request.schema = downloadQuerySchema ∧
      RouteUrl hosts apiBaseUrl request.route request.route := by
  have hobject := hbase.namedRoute (js "vault") [js "object"] (by decide)
  simp only [keyRequests, List.mem_cons, List.not_mem_nil, or_false] at h
  obtain rfl | rfl | rfl | rfl | rfl := h
  · exact ⟨rfl, rfl, hobject⟩
  · exact ⟨rfl, rfl, hobject⟩
  · exact ⟨rfl, rfl, hbase.namedRoute (js "vault") [js "object", js "public-url"] (by decide)⟩
  · exact ⟨rfl, rfl, hbase.namedRoute (js "vault") [js "object", js "preview"] (by decide)⟩
  · exact ⟨rfl, rfl, hbase.namedRoute (js "scanner") [js "exists"] (by decide)⟩

/-- Whatever the dashboard asks of an object, it asks of every key that can be written at all,
and the pipe of the route is given that key. -/
theorem object_requests_arrive (hread : ReadsQueries readQuery)
    (hnumber : ∀ s, toNumber (some (.string s)) = numberOf s)
    (hbase : ApiBase hosts apiBaseUrl) {request : KeyRequest} (hrequest : request ∈ keyRequests) (key : JsString) :
    ((request.path key).isSome = true ↔ WellFormed key) ∧
    (∀ path ∈ request.path key, ∃ query,
      receivedRequest hosts readQuery (apiBaseUrl ++ path) = some ⟨request.route, query⟩ ∧
      ∀ parsed, ZodValidationPipe.transform request.schema (some query) = .ok parsed ↔
        objectKeySchema.Accepts key ∧ parsed = some (paramsJson [(js "key", key)])) ∧
    ∀ path ∈ KeyDetailDrawer.rangePath key, ∃ query,
      receivedRequest hosts readQuery (apiBaseUrl ++ path) = some ⟨js "/vault/object/range", query⟩ ∧
      ∀ parsed, ZodValidationPipe.transform (rangeQuerySchema toNumber) (some query) = .ok parsed ↔
        objectKeySchema.Accepts key ∧ parsed = some (rangeQuery key) := by
  obtain ⟨hpaths, hschema, hroute⟩ := hbase.keyRequest hrequest
  rw [hpaths, hschema]
  refine ⟨keyPath_isSome request.route key, ?_, ?_⟩
  · intro path hpath
    exact ⟨_, keyPath_arrives hread hroute hpath, transform_keyParam key⟩
  · intro path hpath
    have hrange : RouteUrl hosts apiBaseUrl (js "/vault/object/range") (js "/vault/object/range") :=
      hbase.namedRoute (js "vault") [js "object", js "range"] (by decide)
    exact ⟨_, rangePath_arrives hread hrange hpath, transform_rangeParams hnumber key⟩

theorem listPath_arrives (hread : ReadsQueries readQuery) {pathname : JsString}
    (hroute : RouteUrl hosts apiBaseUrl (js "/vault") pathname) {params : VaultListParams} (h : params.Sendable) :
    receivedRequest hosts readQuery (apiBaseUrl ++ params.path) = some ⟨pathname, paramsJson params.searchParams⟩ := by
  have hquery := searchParamsText_written (searchParams_values h)
  obtain ⟨hnames, hknown⟩ := searchParams_names params
  rw [VaultListParams.path]
  split
  · rename_i hempty
    -- only a request without parameters has an empty query
    rw [hempty] at hquery
    have hnone : params.searchParams = [] := (parseForm_written hquery).symm
    rw [List.append_nil, hnone]
    exact route_arrives hread hroute
  · exact request_arrives hread hroute hquery hnames hknown

/-- The page that the browser asks for is the page that the handler is asked for, and it is
turned away exactly when it is out of the route's bounds. -/
theorem listing_request_arrives (hread : ReadsQueries readQuery)
    (hnumber : ∀ s, toNumber (some (.string s)) = numberOf s)
    (hbase : ApiBase hosts apiBaseUrl) {params : VaultListParams} (h : params.Sendable) :
    ∃ query, receivedRequest hosts readQuery (apiBaseUrl ++ params.path) = some ⟨js "/vault", query⟩ ∧
      ∀ parsed, ZodValidationPipe.transform (listQuerySchema toNumber) (some query) = .ok parsed ↔
        params.WithinBounds ∧ parsed = some params.listQuery := by
  have hroute : RouteUrl hosts apiBaseUrl (js "/vault") (js "/vault") := hbase.namedRoute (js "vault") [] (by decide)
  exact ⟨_, listPath_arrives hread hroute h, transform_listParams hnumber h⟩

/-! A server, and requests for names with a space, an accent and an apostrophe. -/

def formQuery (query : JsString) : Json := paramsJson (parseForm query)

theorem formQuery_reads : ReadsQueries formQuery := by
  intro params query hquery _ _
  rw [formQuery, parseForm_written hquery]

def queryNumber : Option Json → JsNumber
  | some (.string s) => numberOf s
  | _ => .nan

def defaultBase : JsString := js "http://localhost:3001"

theorem defaultBase_api : ApiBase plainHosts defaultBase where
  hostless := rfl
  web := by
    refine ⟨⟨_, rfl, ⟨by decide, by decide, rfl, rfl⟩⟩, ?_⟩
    intro c hc
    have hlast : defaultBase.getLast? = some 0x31 := by decide
    rw [hlast] at hc
    cases hc
    decide
  slashless := by decide
  root := ⟨⟨js "http", some ((js "localhost:3001").map UInt16.toNat)⟩, by decide +kernel⟩

def awkwardKey : JsString := js "fotos/é o gato's.png"

theorem awkward_key_arrives : ∃ path query, useObjectMeta.path awkwardKey = some path ∧
    receivedRequest plainHosts formQuery (defaultBase ++ path) = some ⟨js "/vault/object", query⟩ ∧
    ZodValidationPipe.transform downloadQuerySchema (some query) =
      .ok (some (paramsJson [(js "key", awkwardKey)])) := by
  obtain ⟨hsome, harrives, -⟩ := object_requests_arrive formQuery_reads (fun _ => rfl : ∀ s, queryNumber _ = _)
    defaultBase_api (List.mem_cons_self : _ ∈ keyRequests) awkwardKey
  obtain ⟨path, hpath⟩ := Option.isSome_iff_exists.mp (hsome.mpr (by decide))
  obtain ⟨query, hquery, hparsed⟩ := harrives path hpath
  exact ⟨path, query, hpath, hquery, (hparsed _).mpr ⟨by decide, rfl⟩⟩

theorem browser_page_arrives : ∃ query,
    receivedRequest plainHosts formQuery (defaultBase ++ (VaultContent.listParams (js "a b/") []).path) =
      some ⟨js "/vault", query⟩ ∧
    ZodValidationPipe.transform (listQuerySchema queryNumber) (some query) =
      .ok (some (VaultContent.listParams (js "a b/") []).listQuery) := by
  have hsendable : (VaultContent.listParams (js "a b/") []).Sendable := ⟨by decide, by decide, by decide, by decide⟩
  obtain ⟨query, hquery, hparsed⟩ :=
    listing_request_arrives formQuery_reads (fun _ => rfl : ∀ s, queryNumber _ = _) defaultBase_api hsendable
  exact ⟨query, hquery, (hparsed _).mpr ⟨⟨by decide, by decide, by decide, by decide⟩, rfl⟩⟩

end Requests

end NestStorageExample.Web
