import NestStorageExample.Api.RangeReads
import NestStorageExample.Web.HexPreview
import NestStorageExample.Web.VaultQueries
import NestStorageExample.Web.Wire

/-! The hex tab of the detail drawer, all the way: the URL of the range request, the route, the
bytes of the stored object, their text in the answer, and the dump that is drawn of it. -/
namespace NestStorageExample.Web
open Text Url Effects Storage Validation Api ApiClient Wire Numbers
variable {α W : Type}

section Route
variable (library : LibraryJson)

def downloadJson (result : BufferedDownloadResult) : Json :=
  .object [(js "base64", .string result.base64), (js "metadata", library.metadata result.metadata)]

def downloadOutcome : Except VaultRejection BufferedDownloadResult → Wire.Outcome
  | .ok result => .value 200 (downloadJson library result)
  | .error (.library (.storage exception)) => .storageException (library.raised exception)
  | .error (.library (.other _)) => .otherError
  | .error (.badRequest error) => .httpException ⟨400, envelopeJson error⟩
  | .error (.payloadTooLarge error) => .httpException ⟨413, envelopeJson error⟩

/-- A parsed range query, as the handler takes it. -/
def readRangeQuery (parsed : Option Json) : Option (JsString × Rat × Rat) := do
  let entries ← asObject parsed
  let .string key ← Json.lookup (js "key") entries | none
  let .number (.finite start) ← Json.lookup (js "start") entries | none
  let .number (.finite stop) ← Json.lookup (js "end") entries | none
  return (key, start, stop)

variable (toNumber : Option Json → JsNumber) (storage : BufferedStorage W)

/-- `VaultController.downloadRange` behind its pipe. -/
def VaultController.downloadRange (query : Json) (w : W) : Wire.Outcome × W :=
  match ZodValidationPipe.transform (rangeQuerySchema toNumber) (some query) with
  | .error rejected => (.httpException (badRequest rejected), w)
  | .ok parsed => match readRangeQuery parsed with
    | some (key, start, stop) =>
      let (result, w') := VaultService.downloadRange storage key start stop w
      (downloadOutcome library result, w')
    | none => (.otherError, w)

/-- The range query of the drawer: what `useQuery` has of it, `none` where the path cannot be
written or is no path of the route. -/
def KeyDetailDrawer.range (hosts : Hosts α) (readQuery : JsString → Json) (platform : Platform)
    (parseUrl : JsString → Option ParsedUrl) (apiBaseUrl key : JsString) (w : W) :
    Option (Except ApiRejection (Option Json) × W) := do
  let path ← KeyDetailDrawer.rangePath key
  let received ← receivedRequest hosts readQuery (apiBaseUrl ++ path)
  if received.pathname = js "/vault/object/range" then
    let (outcome, w') := VaultController.downloadRange library toNumber storage received.query w
    let fetch := fun _ (_ : RequestInit Empty) => .ok (receive (platform.respond outcome))
    some (apiGet parseUrl fetch apiBaseUrl path, w')
  else none

end Route

/-- What the tab renders of the data. -/
def KeyDetailDrawer.hexTab (data : Option Json) : Option HexView := do
  let entries ← asObject data
  let .string text ← Json.lookup (js "base64") entries | none
  hexPreview text 256

/-- What the tab has to show of an object's bytes. -/
structure ShowsFirstBytes (body : List Byte) (rows : List HexRow) (notice : Option JsString) : Prop where
  offsets : ∀ i row, rows[i]? = some row → readHex row.offset = some (16 * i)
  widths : ∀ row ∈ rows, 1 ≤ (hexEntries row.hex).length ∧ (hexEntries row.hex).length ≤ 16
  readBack : (rows.flatMap fun row => hexEntries row.hex).mapM readHex = some ((body.take 256).map UInt8.toNat)
  noticed : notice ≠ none ↔ 256 ≤ body.length

section Outcomes
variable {library : LibraryJson}

theorem rangeInvalid_writable (start stop : Rat) :
    (downloadOutcome library (.error (.badRequest (VaultService.rangeInvalid start stop)))).Writable :=
  (HttpException.Thrown.rangeInvalid start stop).writable
    (plain_single _ (plain_pair code_ne_message (.string _) (.string _)))

theorem rangeTooLarge_writable (rawBytes base64Bytes : Rat) :
    (downloadOutcome library (.error (.payloadTooLarge (VaultService.rangeTooLarge rawBytes base64Bytes)))).Writable := by
  have hlimit : Plain (.number (.finite ((VaultService.maxRangeBase64Bytes : Nat) : Rat))) := by
    have hnumber := @Plain.number (VaultService.maxRangeBase64Bytes : Nat) (by decide)
    rwa [Int.cast_natCast] at hnumber
  apply (HttpException.Thrown.rangeTooLarge rawBytes base64Bytes).writable
  refine plain_single _ (.object ?_ ?_)
  · change [js "code", js "message", js "maxBase64Bytes"].Nodup
    decide
  · intro entry hentry
    change entry ∈ [_, _, _] at hentry
    simp only [List.mem_cons, List.not_mem_nil, or_false] at hentry
    obtain rfl | rfl | rfl := hentry
    · exact .string _
    · exact .string _
    · exact hlimit

theorem downloaded_writable (hlibrary : library.Documented) (result : BufferedDownloadResult) :
    (downloadOutcome library (.ok result)).Writable :=
  .value (by decide) (by decide) (.object _) (plain_pair (by decide) (.string _) (hlibrary.metadata _))

theorem library_writable (hlibrary : library.Documented) (rejection : Rejection) :
    (downloadOutcome library (.error (.library rejection))).Writable := by
  cases rejection with
  | storage exception => exact .storageException (hlibrary.status exception) (hlibrary.details exception)
  | other message => exact .otherError

/-- Whatever range is asked for. -/
theorem downloadRange_writable (hlibrary : library.Documented) (storage : BufferedStorage W) (key : JsString)
    (start stop : Rat) (w : W) :
    (downloadOutcome library (VaultService.downloadRange storage key start stop w).1).Writable := by
  rw [VaultService.downloadRange]
  split
  · exact rangeInvalid_writable start stop
  · dsimp only
    split
    · exact rangeTooLarge_writable _ _
    · rw [Async.bind_apply, Async.mapError]
      rcases storage.downloadBuffer _ w with ⟨rejection | download, w'⟩
      · exact library_writable hlibrary rejection
      · exact downloaded_writable hlibrary _

end Outcomes

section Drawer
variable {library : LibraryJson} {hosts : Hosts α} {readQuery : JsString → Json} {toNumber : Option Json → JsNumber}
  {platform : Platform} {parseUrl : JsString → Option ParsedUrl} {apiBaseUrl key : JsString}

/-- For a key that its schema takes, the route is the service's range of the first kibibyte. -/
theorem controller_rangeQuery (hnumber : ∀ s, toNumber (some (.string s)) = numberOf s)
    (hkey : objectKeySchema.Accepts key)
    (storage : BufferedStorage W) (w : W) :
    VaultController.downloadRange library toNumber storage (paramsJson (rangeParams key)) w =
      (downloadOutcome library (VaultService.downloadRange storage key 0 1023 w).1,
        (VaultService.downloadRange storage key 0 1023 w).2) := by
  rw [VaultController.downloadRange, (transform_rangeParams hnumber key _).mpr ⟨hkey, rfl⟩]
  rfl

/-- What the drawer's query settles to is what the service made of it. -/
theorem range_seen (hread : ReadsQueries readQuery) (hnumber : ∀ s, toNumber (some (.string s)) = numberOf s)
    (hbase : ApiBase hosts apiBaseUrl) (hplatform : platform.Documented) (hlibrary : library.Documented)
    (hwritten : WellFormed key) (hkey : objectKeySchema.Accepts key) (storage : BufferedStorage W) (w : W) : ∃ url,
    KeyDetailDrawer.range library toNumber storage hosts readQuery platform parseUrl apiBaseUrl key w =
      some ((downloadOutcome library (VaultService.downloadRange storage key 0 1023 w).1).seen parseUrl url,
        (VaultService.downloadRange storage key 0 1023 w).2) := by
  obtain ⟨front, hfront⟩ := Option.isSome_iff_exists.mp ((keyPath_isSome (js "/vault/object/range") key).mpr hwritten)
  have hpath : KeyDetailDrawer.rangePath key = some (front ++ js "&start=0&end=1023") := by
    rw [KeyDetailDrawer.rangePath, hfront, Option.map_some]
  have hroute : RouteUrl hosts apiBaseUrl (js "/vault/object/range") (js "/vault/object/range") :=
    hbase.namedRoute (js "vault") [js "object", js "range"] (by decide)
  have harrives := rangePath_arrives hread hroute hpath
  have hanswer := @answers_read platform parseUrl Empty hplatform .get apiBaseUrl (front ++ js "&start=0&end=1023") _
    (downloadRange_writable hlibrary storage key 0 1023 w)
  refine ⟨apiBaseUrl ++ (front ++ js "&start=0&end=1023"), ?_⟩
  rw [KeyDetailDrawer.range, hpath, Option.bind_eq_bind, Option.bind_some, harrives, Option.bind_eq_bind,
    Option.bind_some]
  dsimp only
  rw [if_pos rfl, controller_rangeQuery hnumber hkey]
  exact congrArg (fun answer => some (answer, _)) hanswer

variable {provider : BufferedProvider W} {slot : Slot} {object : StoredObject} {w : W}

/-- Without a provider fault the range is served where there is a byte at its start. -/
theorem downloadRange_settles (hrange : provider.RangeContract) (hslot : provider.slot none key = some slot)
    (hobject : (provider.store w).lookup slot = some object) :
    (VaultService.downloadRange provider.storage key 0 1023).Settles w
      (fun result _ => object.body ≠ [] ∧ result.base64 = base64 (object.body.take 1024))
      (fun rejection _ => object.body = [] ∧ ∃ e, rejection = .library e) := by
  have hserved := hrange.buffer 0 1023 (Nat.zero_le _) hslot hobject
  rw [downloadRange_first]
  apply Async.Settles.bind (Async.settles_mapError.mpr (hserved.mono (fun _ _ h => h) ?_)) ?_ (fun _ _ h => h)
  · rintro e w' ⟨hnone, -⟩
    refine ⟨?_, e, rfl⟩
    by_contra hbody
    rw [byteRange_zero hbody] at hnone
    cases hnone
  · rintro download w' ⟨hbytes, -⟩
    have hbody : object.body ≠ [] := by
      intro hempty
      rw [hempty, byteRange_nil] at hbytes
      cases hbytes
    rw [byteRange_zero hbody] at hbytes
    apply Async.settles_pure
    rw [← Option.some.inj hbytes]
    exact ⟨hbody, rfl⟩

theorem hexTab_of_bytes (bytes : List Byte) (metadata : Json) :
    KeyDetailDrawer.hexTab (some (.object [(js "base64", .string (base64 bytes)), (js "metadata", metadata)])) =
      some (.dump (dumpRows (bytes.take 256)) (dumpNotice (min bytes.length 256) 256)) :=
  hexPreview_base64 bytes 256

theorem dump_shows_first (body : List Byte) :
    ShowsFirstBytes body (dumpRows ((body.take 1024).take 256)) (dumpNotice (min (body.take 1024).length 256) 256) where
  offsets _ _ h := (dumpRows_offset h).2
  widths _ h := ⟨(dumpRows_entries h).1, (dumpRows_entries h).2.1⟩
  readBack := by
    rw [dumpRows_flatMap, mapM_readHex, List.take_take]
    rfl
  noticed := by
    rw [dumpNotice_ne_none_iff, List.length_take]
    omega

/-- Without a provider fault the hex tab of an object that has bytes shows its first 256, each
where its offset says, with a notice from 256 bytes on, and the drawer of one without bytes has
an error. -/
theorem hex_tab_shows_object (hread : ReadsQueries readQuery) (hnumber : ∀ s, toNumber (some (.string s)) = numberOf s)
    (hbase : ApiBase hosts apiBaseUrl) (hplatform : platform.Documented) (hlibrary : library.Documented)
    (hrange : provider.RangeContract) (hwritten : WellFormed key) (hkey : objectKeySchema.Accepts key)
    (hslot : provider.slot none key = some slot) (hobject : (provider.store w).lookup slot = some object) :
    ∃ answer w', KeyDetailDrawer.range library toNumber provider.storage hosts readQuery platform parseUrl apiBaseUrl
        key w = some (answer, w') ∧
      (object.body = [] → ∃ error, answer = .error error) ∧
      (object.body ≠ [] → ∃ data rows notice, answer = .ok data ∧
        KeyDetailDrawer.hexTab data = some (.dump rows notice) ∧ ShowsFirstBytes object.body rows notice) := by
  obtain ⟨url, hseen⟩ := range_seen hread hnumber hbase hplatform hlibrary hwritten hkey provider.storage w
  have hsettles := downloadRange_settles hrange hslot hobject
  refine ⟨_, _, hseen, ?_⟩
  cases hrun : VaultService.downloadRange provider.storage key 0 1023 w with
  | mk result w' =>
    cases result with
    | ok result =>
      obtain ⟨hbody, hbytes⟩ := hsettles.of_ok hrun
      refine ⟨fun hempty => absurd hempty hbody, fun _ => ⟨_, _, _, rfl, ?_, dump_shows_first object.body⟩⟩
      rw [downloadJson, hbytes]
      exact hexTab_of_bytes _ _
    | error rejection =>
      obtain ⟨hempty, e, rfl⟩ := hsettles.of_error hrun
      refine ⟨fun _ => ?_, fun hbody => absurd hempty hbody⟩
      cases e with
      | storage exception => exact ⟨_, rfl⟩
      | other message => exact ⟨_, rfl⟩

end Drawer

/-! An object of three hundred bytes, of which the tab shows 256. -/

def longObject : StoredObject := { emptyObject with body := List.replicate 300 104 }

theorem long_object_shown : ∃ data w' rows notice, KeyDetailDrawer.range plainLibrary queryNumber
      (Memory.bufferedProvider (js "vault")).storage plainHosts formQuery expressPlatform (fun _ => none) defaultBase
      (js "media/a") (vaultHolding longObject) = some (.ok data, w') ∧
    KeyDetailDrawer.hexTab data = some (.dump rows notice) ∧ notice ≠ none ∧
    (rows.flatMap fun row => hexEntries row.hex).mapM readHex = some (List.replicate 256 104) := by
  have hobject : ((Memory.bufferedProvider (js "vault")).store (vaultHolding longObject)).lookup landedSlot =
      some longObject := Finmap.lookup_insert _
  obtain ⟨answer, w', hanswer, -, hshown⟩ := hex_tab_shows_object formQuery_reads
    (fun _ => rfl : ∀ s, queryNumber _ = _) defaultBase_api expressPlatform_documented plainLibrary_documented
    (Memory.buffered_range_contract (js "vault"))
    (by decide : WellFormed (js "media/a")) (by decide) (by decide : _ = some landedSlot) hobject
  have hlength : longObject.body.length = 300 := List.length_replicate
  obtain ⟨data, rows, notice, rfl, hview, hbytes⟩ := hshown (List.ne_nil_of_length_pos (by omega))
  have hread := hbytes.readBack
  rw [longObject, List.take_replicate, List.map_replicate] at hread
  exact ⟨data, w', rows, notice, hanswer, hview, hbytes.noticed.mpr (by omega), hread⟩

end NestStorageExample.Web
