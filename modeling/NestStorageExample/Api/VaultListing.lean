import Mathlib.Logic.Relation
import NestStorageExample.Api.ProviderKey
import NestStorageExample.Effects.Async
import NestStorageExample.Text.Base64

/-! The vault's listing endpoint and its cursor: the tokens the provider hands out for a
bucket, and whether the endpoint takes them back. -/
namespace NestStorageExample.Api
open Text Effects Storage
variable {W : Type}

/-- What `StorageService.list` takes and gives; `delimiter` says whether it is there. -/
structure VaultListOptions where
  pathPrefix : Option JsString
  maxKeys : Nat
  continuationToken : Option JsString
  delimiter : Bool
  deriving DecidableEq

structure VaultListResult where
  objects : List ListedObject
  commonPrefixes : List JsString
  isTruncated : Bool
  nextContinuationToken : Option JsString

structure ListResponse where
  objects : List ListedObject
  commonPrefixes : List JsString
  isTruncated : Bool
  nextCursor : Option JsString

/-- The `prefix` and the `cursor` of `listQuerySchema`. -/
def listTextSchema : StringSchema := [⟨isWithinKeyByteLimit, keyByteLimitMessage⟩]

/-- The part of a listing request that stays the same from page to page. -/
structure ListRequest where
  pathPrefix : Option JsString
  maxKeys : Nat
  prefix_accepted : ∀ p ∈ pathPrefix, listTextSchema.Accepts p
  maxKeys_accepted : 1 ≤ maxKeys ∧ maxKeys ≤ 1000

/-- What `listQuerySchema` lets through. -/
structure ListQuery extends ListRequest where
  cursor : Option JsString
  cursor_accepted : ∀ c ∈ cursor, listTextSchema.Accepts c
  delimiter : Bool

def VaultService.list (list : VaultListOptions → Async Rejection W VaultListResult) (query : ListQuery) :
    Async Rejection W ListResponse := do
  let result ← list ⟨query.pathPrefix, query.maxKeys, query.cursor, query.delimiter⟩
  return ⟨result.objects, result.commonPrefixes, result.isTruncated, result.nextContinuationToken⟩

/-- The request with a cursor and no delimiter, as the validation pipe passes it on or turns it away. -/
def ListRequest.parse (request : ListRequest) (cursor : Option JsString) : Except (List Issue) ListQuery :=
  if h : ∀ c ∈ cursor, listTextSchema.Accepts c then
    .ok { request with cursor := cursor, cursor_accepted := h, delimiter := false }
  else .error (cursor.elim [] (listTextSchema.issues ["cursor"]))

/-- Why a client that follows the cursors gives up. -/
inductive FollowError where
  | refused (issues : List Issue)
  | rejected (rejection : Rejection)
  | outOfFuel

/-- A client that asks for page after page, handing each `nextCursor` back. -/
def followCursor (list : VaultListOptions → Async Rejection W VaultListResult) (request : ListRequest) :
    Nat → Option JsString → Async FollowError W (List JsString)
  | 0, _ => fun w => (.error .outOfFuel, w)
  | fuel + 1, cursor => fun w =>
    match request.parse cursor with
    | .error issues => (.error (.refused issues), w)
    | .ok query =>
      match VaultService.list list query w with
      | (.error rejection, w') => (.error (.rejected rejection), w')
      | (.ok page, w') =>
        match page.nextCursor with
        | none => (.ok (page.objects.map ListedObject.key), w')
        | some next =>
          match followCursor list request fuel (some next) w' with
          | (.ok keys, w'') => (.ok (page.objects.map ListedObject.key ++ keys), w'')
          | (.error error, w'') => (.error error, w'')

/-- The cursors a client meets: none at first, then what a page of an accepted one names. -/
inductive Followed (list : VaultListOptions → Async Rejection W VaultListResult) (request : ListRequest) :
    Option JsString → Prop where
  | first : Followed list request none
  | next {cursor : Option JsString} {query : ListQuery} {page : ListResponse} {w w' : W} {next : JsString} :
    Followed list request cursor → request.parse cursor = .ok query →
    VaultService.list list query w = (.ok page, w') → page.nextCursor = some next → Followed list request (some next)

/-- The keys of a bucket below the global prefix, in the provider's order: by UTF-8 bytes. -/
structure BucketKeys where
  keys : List JsString
  accepted : ∀ key ∈ keys, objectKeySchema.Accepts key
  ascending : (keys.map encodeUtf8).Pairwise (· < ·)

def BucketKeys.under (bucket : BucketKeys) (pathPrefix : Option JsString) : List JsString :=
  bucket.keys.filter (fun key => decide (pathPrefix.getD [] <+: key))

/-- The full key that the provider stores a key of the bucket under. -/
def storedKey (keyPrefix key : JsString) : JsString :=
  if 0 < (trimSlashes keyPrefix).length then trimSlashes keyPrefix ++ slash :: key else key

/-- The token that names a key as the last one listed. -/
def continuationToken (keyPrefix key : JsString) : JsString := base64 (encodeUtf8 (storedKey keyPrefix key))

section Listing
variable (keyPrefix : JsString) (under : List JsString) (pageLength : Nat → Nat)

/-- The token for going on after the first `c` keys. -/
def tokenAt (c : Nat) : Option JsString :=
  if c = 0 then none else (under[c - 1]?).map (continuationToken keyPrefix)

/-- A page ends before position `c'` and leaves something for the next. -/
def NextPage (c c' : Nat) : Prop := c' = c + pageLength c ∧ c' < under.length

/-- The positions where a page of the listing starts. -/
def PageStart : Nat → Prop := Relation.ReflTransGen (NextPage under pageLength) 0

/-- The provider answers the next `pageLength` keys in order, and while there are more a
token for the last key listed. -/
structure ListsInOrder (list : VaultListOptions → Async Rejection W VaultListResult) (request : ListRequest) :
    Prop where
  page : ∀ c w, c < max 1 under.length → ∃ page w',
    list ⟨request.pathPrefix, request.maxKeys, tokenAt keyPrefix under c, false⟩ w = (.ok page, w') ∧
    page.objects.map ListedObject.key = (under.drop c).take (pageLength c) ∧
    page.isTruncated = decide (c + pageLength c < under.length) ∧
    page.nextContinuationToken =
      if c + pageLength c < under.length then tokenAt keyPrefix under (c + pageLength c) else none
  length : ∀ c, 1 ≤ pageLength c ∧ pageLength c ≤ request.maxKeys

end Listing

/-- Every cursor a client meets is taken back, and following them ends with each object
under the prefix listed once. -/
structure CursorRoundTrips (list : VaultListOptions → Async Rejection W VaultListResult) (request : ListRequest)
    (under : List JsString) (w : W) : Prop where
  accepted : ∀ cursor, Followed list request cursor → ∀ c ∈ cursor, listTextSchema.Accepts c
  complete : ∃ fuel w', followCursor list request fuel none w = (.ok under, w') ∧ under.Nodup

section Tokens

theorem listTextSchema_accepts_iff (value : JsString) :
    listTextSchema.Accepts value ↔ byteLength value ≤ maxKeyBytes := by
  simp [listTextSchema, StringSchema.Accepts, isWithinKeyByteLimit]

/-- A token takes four bytes for each three of the full key it names. -/
theorem continuationToken_accepted_iff (keyPrefix key : JsString) :
    listTextSchema.Accepts (continuationToken keyPrefix key) ↔ byteLength (storedKey keyPrefix key) ≤ 768 := by
  rw [listTextSchema_accepts_iff, continuationToken, byteLength_ascii (base64_isAscii _), base64_length, maxKeyBytes]
  change 4 * ((byteLength (storedKey keyPrefix key) + 2) / 3) ≤ 1024 ↔ _
  omega

theorem parse_of_accepted (request : ListRequest) {cursor : Option JsString}
    (h : ∀ c ∈ cursor, listTextSchema.Accepts c) : request.parse cursor =
      .ok { request with cursor := cursor, cursor_accepted := h, delimiter := false } := dif_pos h

theorem accepted_of_parse {request : ListRequest} {cursor : Option JsString} {query : ListQuery}
    (h : request.parse cursor = .ok query) : (∀ c ∈ cursor, listTextSchema.Accepts c) ∧
      query.pathPrefix = request.pathPrefix ∧ query.maxKeys = request.maxKeys ∧ query.cursor = cursor ∧
      query.delimiter = false := by
  unfold ListRequest.parse at h
  split at h
  · rename_i haccepted
    cases h
    exact ⟨haccepted, rfl, rfl, rfl, rfl⟩
  · cases h

end Tokens

section Walk
variable {list : VaultListOptions → Async Rejection W VaultListResult} {request : ListRequest}
variable {keyPrefix : JsString} {under : List JsString} {pageLength : Nat → Nat}

theorem tokenAt_eq_some {c : Nat} (hpos : 0 < c) (hlt : c < under.length) :
    ∃ key, under[c - 1]? = some key ∧ tokenAt keyPrefix under c = some (continuationToken keyPrefix key) := by
  have hlt' : c - 1 < under.length := by omega
  refine ⟨under[c - 1], List.getElem?_eq_getElem hlt', ?_⟩
  rw [tokenAt, if_neg (Nat.ne_of_gt hpos), List.getElem?_eq_getElem hlt', Option.map_some]

/-- The endpoint's answer where a page starts. -/
theorem list_page (h : ListsInOrder keyPrefix under pageLength list request) {c : Nat} (hc : c < max 1 under.length)
    {query : ListQuery} (hquery : request.parse (tokenAt keyPrefix under c) = .ok query) (w : W) :
    ∃ page w', VaultService.list list query w = (.ok page, w') ∧
      page.objects.map ListedObject.key = (under.drop c).take (pageLength c) ∧
      page.nextCursor =
        if c + pageLength c < under.length then tokenAt keyPrefix under (c + pageLength c) else none := by
  obtain ⟨-, hprefix, hmax, hcursor, hdelimiter⟩ := accepted_of_parse hquery
  obtain ⟨page, w', hrun, hobjects, -, hnext⟩ := h.page c w hc
  refine ⟨⟨page.objects, page.commonPrefixes, page.isTruncated, page.nextContinuationToken⟩, w', ?_, hobjects, hnext⟩
  rw [VaultService.list, hprefix, hmax, hcursor, hdelimiter]
  exact Async.bind_of_ok hrun

theorem pageStart_lt {c : Nat} (h : PageStart under pageLength c) : c < max 1 under.length := by
  rcases Relation.ReflTransGen.cases_tail h with rfl | ⟨b, -, -, hlt⟩
  · omega
  · omega

/-- The client at the last page, and at a page with more behind it. -/
theorem followCursor_page (h : ListsInOrder keyPrefix under pageLength list request) {c : Nat}
    (hc : c < max 1 under.length) {query : ListQuery} (hquery : request.parse (tokenAt keyPrefix under c) = .ok query)
    (w : W) : ∃ w', ∀ fuel,
    (¬ c + pageLength c < under.length ∧
      followCursor list request (fuel + 1) (tokenAt keyPrefix under c) w = (.ok (under.drop c), w')) ∨
    (c + pageLength c < under.length ∧
      followCursor list request (fuel + 1) (tokenAt keyPrefix under c) w =
        match followCursor list request fuel (tokenAt keyPrefix under (c + pageLength c)) w' with
        | (.ok keys, w'') => (.ok ((under.drop c).take (pageLength c) ++ keys), w'')
        | (.error error, w'') => (.error error, w'')) := by
  obtain ⟨page, w', hrun, hobjects, hnext⟩ := list_page h hc hquery w
  refine ⟨w', fun fuel => ?_⟩
  rw [followCursor, hquery]
  simp only [hrun]
  by_cases hmore : c + pageLength c < under.length
  · rw [if_pos hmore] at hnext
    have hpos : 0 < c + pageLength c := Nat.add_pos_right c (h.length c).1
    obtain ⟨key, -, htoken⟩ := @tokenAt_eq_some keyPrefix under _ hpos hmore
    rw [htoken] at hnext ⊢
    rw [hnext, ← hobjects]
    exact Or.inr ⟨hmore, rfl⟩
  · rw [if_neg hmore] at hnext
    rw [hnext, hobjects, List.take_of_length_le (by rw [List.length_drop]; omega)]
    exact Or.inl ⟨hmore, rfl⟩

/-- From a page start on, a client whose cursors are all taken gets the rest of the keys. -/
theorem followCursor_rest (h : ListsInOrder keyPrefix under pageLength list request)
    (haccepted : ∀ c, PageStart under pageLength c → ∀ t ∈ tokenAt keyPrefix under c, listTextSchema.Accepts t)
    {c : Nat} (hc : PageStart under pageLength c) (w : W) :
    ∃ fuel w', followCursor list request fuel (tokenAt keyPrefix under c) w = (.ok (under.drop c), w') := by
  induction hn : under.length - c using Nat.strong_induction_on generalizing c w with
  | _ n ih =>
    obtain ⟨w', hpage⟩ := followCursor_page h (pageStart_lt hc) (parse_of_accepted request (haccepted c hc)) w
    by_cases hmore : c + pageLength c < under.length
    · have hlength := (h.length c).1
      obtain ⟨fuel, w'', hrest⟩ :=
        ih (under.length - (c + pageLength c)) (by omega) (hc.tail ⟨rfl, hmore⟩) w' rfl
      obtain ⟨hlast, -⟩ | ⟨-, hstep⟩ := hpage fuel
      · exact absurd hmore hlast
      · refine ⟨fuel + 1, w'', ?_⟩
        rw [hstep, hrest, ← List.drop_drop]
        simp only [List.take_append_drop]
    · obtain ⟨-, hlast⟩ | ⟨hmore', -⟩ := hpage 0
      · exact ⟨1, w', hlast⟩
      · exact absurd hmore' hmore

/-- A client that came to the end had every cursor on its way taken. -/
theorem accepted_of_followCursor (h : ListsInOrder keyPrefix under pageLength list request) {fuel c : Nat}
    (hc : c < max 1 under.length) {w w' : W} {keys : List JsString}
    (hfollow : followCursor list request fuel (tokenAt keyPrefix under c) w = (.ok keys, w')) {c' : Nat}
    (hreach : Relation.ReflTransGen (NextPage under pageLength) c c') :
    ∀ t ∈ tokenAt keyPrefix under c', listTextSchema.Accepts t := by
  induction fuel generalizing c w keys w' with
  | zero => cases hfollow
  | succ fuel ih =>
    have hparse : ∃ query, request.parse (tokenAt keyPrefix under c) = .ok query := by
      cases hparse : request.parse (tokenAt keyPrefix under c) with
      | ok query => exact ⟨query, rfl⟩
      | error issues =>
        rw [followCursor, hparse] at hfollow
        cases hfollow
    obtain ⟨query, hquery⟩ := hparse
    rcases Relation.ReflTransGen.cases_head hreach with rfl | ⟨c₁, ⟨rfl, hmore⟩, hreach⟩
    · exact (accepted_of_parse hquery).1
    · obtain ⟨w₁, hpage⟩ := followCursor_page h hc hquery w
      obtain ⟨hlast, -⟩ | ⟨-, hstep⟩ := hpage fuel
      · exact absurd hmore hlast
      · rw [hstep] at hfollow
        cases hrest : followCursor list request fuel (tokenAt keyPrefix under (c + pageLength c)) w₁ with
        | mk result w₂ =>
          cases result with
          | ok rest => exact ih (by omega) hrest hreach
          | error error =>
            rw [hrest] at hfollow
            cases hfollow

/-- The cursors a client meets are the tokens at page starts. -/
theorem followed_pageStart (h : ListsInOrder keyPrefix under pageLength list request) {cursor : Option JsString}
    (hcursor : Followed list request cursor) :
    ∃ c, PageStart under pageLength c ∧ cursor = tokenAt keyPrefix under c := by
  induction hcursor with
  | first => exact ⟨0, Relation.ReflTransGen.refl, rfl⟩
  | @next _ query page w w' next _ hquery hrun hnext ih =>
    obtain ⟨c, hc, rfl⟩ := ih
    obtain ⟨page', w'', hrun', -, hnext'⟩ := list_page h (pageStart_lt hc) hquery w
    rw [hrun'] at hrun
    cases hrun
    rw [hnext'] at hnext
    split at hnext
    · rename_i hmore
      exact ⟨c + pageLength c, hc.tail ⟨rfl, hmore⟩, hnext.symm⟩
    · cases hnext

end Walk

theorem BucketKeys.under_nodup (bucket : BucketKeys) (pathPrefix : Option JsString) :
    (bucket.under pathPrefix).Nodup := by
  have hkeys : bucket.keys.Nodup := by
    apply List.Nodup.of_map encodeUtf8
    refine bucket.ascending.imp ?_
    rintro bytes _ hlt rfl
    exact List.lt_irrefl _ hlt
  exact hkeys.filter _

/-- The tokens at page starts are all taken exactly when each key that ends a page with
more behind it is short enough under its full name. -/
theorem tokens_accepted_iff (keyPrefix : JsString) (under : List JsString) (pageLength : Nat → Nat) :
    (∀ c, PageStart under pageLength c → ∀ t ∈ tokenAt keyPrefix under c, listTextSchema.Accepts t) ↔
      ∀ c key, PageStart under pageLength c → 0 < c → under[c - 1]? = some key →
        byteLength (storedKey keyPrefix key) ≤ 768 := by
  constructor
  · intro h c key hc hpos hkey
    rw [← continuationToken_accepted_iff]
    apply h c hc
    rw [tokenAt, if_neg (Nat.ne_of_gt hpos), hkey]
    rfl
  · intro h c hc t ht
    rw [tokenAt] at ht
    split at ht
    · cases ht
    · rename_i hpos
      obtain ⟨key, hkey, rfl⟩ := Option.map_eq_some_iff.mp ht
      exact (continuationToken_accepted_iff keyPrefix key).mpr (h c key hc (Nat.pos_of_ne_zero hpos) hkey)

theorem roundTrips_iff_tokens_accepted {list : VaultListOptions → Async Rejection W VaultListResult}
    {request : ListRequest} {keyPrefix : JsString} {under : List JsString} {pageLength : Nat → Nat}
    (h : ListsInOrder keyPrefix under pageLength list request) (hnodup : under.Nodup) (w : W) :
    CursorRoundTrips list request under w ↔
      ∀ c, PageStart under pageLength c → ∀ t ∈ tokenAt keyPrefix under c, listTextSchema.Accepts t := by
  constructor
  · intro hround c hc
    obtain ⟨fuel, w', hfollow, -⟩ := hround.complete
    exact accepted_of_followCursor h (show 0 < max 1 under.length by omega) hfollow hc
  · intro haccepted
    constructor
    · intro cursor hcursor
      obtain ⟨c, hc, rfl⟩ := followed_pageStart h hcursor
      exact haccepted c hc
    · obtain ⟨fuel, w', hfollow⟩ := followCursor_rest h haccepted Relation.ReflTransGen.refl w
      exact ⟨fuel, w', hfollow, hnodup⟩

/-- The listing's cursors round-trip exactly when every key that ends a page, with more
keys behind it, has a full key of at most 768 bytes. -/
theorem cursor_round_trips_iff {list : VaultListOptions → Async Rejection W VaultListResult} {request : ListRequest}
    {keyPrefix : JsString} {pageLength : Nat → Nat} (bucket : BucketKeys)
    (h : ListsInOrder keyPrefix (bucket.under request.pathPrefix) pageLength list request) (w : W) :
    CursorRoundTrips list request (bucket.under request.pathPrefix) w ↔
      ∀ c key, PageStart (bucket.under request.pathPrefix) pageLength c → 0 < c →
        (bucket.under request.pathPrefix)[c - 1]? = some key → byteLength (storedKey keyPrefix key) ≤ 768 := by
  rw [roundTrips_iff_tokens_accepted h (bucket.under_nodup request.pathPrefix), tokens_accepted_iff]

/-- A provider that fills its pages starts one at every multiple of `maxKeys`. -/
theorem pageStart_filled_iff (under : List JsString) (maxKeys c : Nat) (hpos : 1 ≤ maxKeys) :
    PageStart under (fun _ => maxKeys) c ↔ maxKeys ∣ c ∧ (c = 0 ∨ c < under.length) := by
  constructor
  · intro h
    induction h with
    | refl => exact ⟨Nat.dvd_zero _, Or.inl rfl⟩
    | tail _ hstep ih =>
      obtain ⟨rfl, hlt⟩ := hstep
      exact ⟨(Nat.dvd_add_right ih.1).mpr (Nat.dvd_refl _), Or.inr hlt⟩
  · rintro ⟨⟨pages, rfl⟩, hc⟩
    induction pages with
    | zero => exact Relation.ReflTransGen.refl
    | succ pages ih =>
      have hlt : maxKeys * (pages + 1) < under.length := by
        rcases hc with hc | hc
        · exact absurd hc (Nat.mul_ne_zero (by omega) (by omega))
        · exact hc
      refine (ih (Or.inr ?_)).tail ⟨Nat.mul_succ maxKeys pages, hlt⟩
      exact (Nat.mul_le_mul_left maxKeys (Nat.le_succ pages)).trans_lt hlt

/-- A provider that finds its place by looking the token up among the keys. -/
def orderedList (keyPrefix : JsString) (bucket : BucketKeys) (options : VaultListOptions) :
    Async Rejection Unit VaultListResult :=
  let under := bucket.under options.pathPrefix
  let c := options.continuationToken.elim 0 (fun t => (under.map (continuationToken keyPrefix)).idxOf t + 1)
  return {
    objects := ((under.drop c).take options.maxKeys).map (fun key => ⟨key, 0, []⟩)
    commonPrefixes := []
    isTruncated := decide (c + options.maxKeys < under.length)
    nextContinuationToken :=
      if c + options.maxKeys < under.length then tokenAt keyPrefix under (c + options.maxKeys) else none }

theorem storedKey_bytes_injective {keyPrefix key key' : JsString}
    (h : encodeUtf8 (storedKey keyPrefix key) = encodeUtf8 (storedKey keyPrefix key')) :
    encodeUtf8 key = encodeUtf8 key' := by
  unfold storedKey at h
  split at h
  · rw [encodeUtf8_append_ascii slash_lt, encodeUtf8_append_ascii slash_lt] at h
    exact (List.cons.inj (List.append_cancel_left h)).2
  · exact h

theorem tokens_nodup (keyPrefix : JsString) (bucket : BucketKeys) (pathPrefix : Option JsString) :
    ((bucket.under pathPrefix).map (continuationToken keyPrefix)).Nodup := by
  have hsorted : (bucket.under pathPrefix).Pairwise (fun key key' => encodeUtf8 key < encodeUtf8 key') :=
    List.Pairwise.filter _ (List.pairwise_map.mp bucket.ascending)
  apply List.pairwise_map.mpr
  apply hsorted.imp
  intro key key' hlt he
  have hbytes := storedKey_bytes_injective (base64_injective he)
  exact List.lt_irrefl _ (hbytes ▸ hlt)

theorem orderedList_listsInOrder (keyPrefix : JsString) (bucket : BucketKeys) (request : ListRequest) :
    ListsInOrder keyPrefix (bucket.under request.pathPrefix) (fun _ => request.maxKeys)
      (orderedList keyPrefix bucket) request where
  page c w hc := by
    have hplace : (tokenAt keyPrefix (bucket.under request.pathPrefix) c).elim 0
        (fun t => ((bucket.under request.pathPrefix).map (continuationToken keyPrefix)).idxOf t + 1) = c := by
      by_cases hzero : c = 0
      · rw [hzero]
        rfl
      · have hlt : c - 1 < (bucket.under request.pathPrefix).length := by omega
        have hlt' : c - 1 < ((bucket.under request.pathPrefix).map (continuationToken keyPrefix)).length := by
          rwa [List.length_map]
        rw [tokenAt, if_neg hzero, List.getElem?_eq_getElem hlt, Option.map_some, Option.elim_some]
        have hidx := (tokens_nodup keyPrefix bucket request.pathPrefix).idxOf_getElem (c - 1) hlt'
        rw [List.getElem_map] at hidx
        omega
    refine ⟨⟨(((bucket.under request.pathPrefix).drop c).take request.maxKeys).map (fun key => ⟨key, 0, []⟩), [], _, _⟩,
      w, ?_, ?_, rfl, rfl⟩
    · rw [orderedList]
      simp only [hplace]
      rfl
    · rw [List.map_map]
      exact List.map_id _
  length _ := ⟨request.maxKeys_accepted.1, Nat.le_refl _⟩

def onePerPage : ListRequest := ⟨none, 1, fun _ h => (Option.not_mem_none _ h).elim, by decide⟩

/-- Two short keys behind the default prefix, one a page. -/
def shortKeys : BucketKeys := ⟨[js "a.png", js "b.png"], by decide, by decide⟩

theorem short_keys_round_trip :
    CursorRoundTrips (orderedList (js "storage-example") shortKeys) onePerPage (shortKeys.under none) () := by
  apply (cursor_round_trips_iff shortKeys (orderedList_listsInOrder (js "storage-example") shortKeys onePerPage) ()).mpr
  have hshort : ∀ key ∈ shortKeys.keys, byteLength (storedKey (js "storage-example") key) ≤ 768 := by decide
  intro c key _ _ hkey
  exact hshort key (List.mem_filter.mp (List.mem_of_getElem? hkey)).1

/-- A key of 760 letters in front of another one: 776 bytes under the default prefix. -/
def longKeys : BucketKeys where
  keys := [List.replicate 760 0x61, js "b"]
  accepted := by
    intro key hkey
    rcases List.mem_cons.mp hkey with rfl | hkey
    · exact replicate_accepted (by decide) (by decide)
    · rw [List.mem_singleton.mp hkey]
      decide
  ascending := by
    have hascii : IsAscii (List.replicate 760 0x61) := fun u hu => by
      rw [List.eq_of_mem_replicate hu]
      decide
    rw [List.map_cons, encodeUtf8_ascii hascii, List.map_replicate, List.replicate_succ]
    apply List.pairwise_pair.mpr
    exact List.cons_lt_cons_iff.mpr (Or.inl (by decide))

theorem long_key_cursor_refused :
    ¬ CursorRoundTrips (orderedList (js "storage-example") longKeys) onePerPage (longKeys.under none) () := by
  have hlists := orderedList_listsInOrder (js "storage-example") longKeys onePerPage
  have hunder : longKeys.under onePerPage.pathPrefix = [List.replicate 760 0x61, js "b"] := by
    exact List.filter_eq_self.mpr (fun key _ => decide_eq_true List.nil_prefix)
  rw [hunder] at hlists
  change ¬ CursorRoundTrips _ _ (longKeys.under onePerPage.pathPrefix) _
  rw [hunder, roundTrips_iff_tokens_accepted hlists (hunder ▸ longKeys.under_nodup _), tokens_accepted_iff]
  intro h
  have hlength := h 1 (List.replicate 760 0x61) (.tail .refl ⟨rfl, by decide⟩) (by decide) rfl
  rw [storedKey, if_pos (by decide), byteLength_append_ascii slash_lt, byteLength_replicate (by decide)] at hlength
  exact absurd hlength (by decide)

end NestStorageExample.Api
