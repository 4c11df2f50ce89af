import NestStorageExample.Api.KeyComposition
import NestStorageExample.Storage.Service
import NestStorageExample.Text.PercentEncoding

/-! The three places that put the global prefix in front of a key, when they name the same
object, and when the key they compose still fits the provider. -/
namespace NestStorageExample.Api
open Text Storage

/-- `SignedService.composeKey`, the mirror of the library's key resolver. -/
def composeKey (keyPrefix rawKey : JsString) : Except StorageException JsString :=
  if rawKey.head? = some slash ∨ js ".." ∈ splitSlash rawKey then
    .error ⟨.keyInvalid, [("reason", js "key must not start with \"/\" or contain \"..\" segments")]⟩
  else
    let collapsed := collapseSlashes rawKey
    let trimmed := trimSlashes keyPrefix
    .ok (if 0 < trimmed.length then trimmed ++ slash :: collapsed else collapsed)

/-- `TenantsService.composeFullKey`. -/
def composeFullKey (keyPrefix key : JsString) : JsString :=
  if keyPrefix.isEmpty then key else keyPrefix ++ slash :: key

structure PublicUrlResponse where
  url : JsString
  cdnUrl : Option JsString
  note : String

def publicUrlNote : String :=
  "URL is unsigned and existence is unchecked; public delivery depends on the bucket policy or CDN."

/-- `VaultService.getPublicUrls`; `none` where `encodeURIComponent` throws. -/
def getPublicUrls (key publicBase cdnBase keyPrefix : JsString) : Option PublicUrlResponse :=
  let base := stripTrailingSlash publicBase
  let fullKey := if keyPrefix.isEmpty then key else keyPrefix ++ slash :: key
  (splitSlash fullKey).mapM encodeURIComponent |>.map fun segments =>
    let encodedPath := joinSlash segments
    { url := base ++ slash :: encodedPath
      cdnUrl := if cdnBase.isEmpty then none else some (stripTrailingSlash cdnBase ++ slash :: encodedPath)
      note := publicUrlNote }

/-- The key a URL under `base` addresses: its path after the base, each segment decoded. -/
def addressedKey (base url : JsString) : JsString :=
  joinSlash ((splitSlash (url.drop ((stripTrailingSlash base).length + 1))).map percentDecode)

/-- Whatever the two bases are, the public URLs of `key` exist and address `providerKey`. -/
def PublicUrlsAddress (keyPrefix key providerKey : JsString) : Prop :=
  ∀ publicBase cdnBase, ∃ urls, getPublicUrls key publicBase cdnBase keyPrefix = some urls ∧
    addressedKey publicBase urls.url = providerKey ∧ ∀ url ∈ urls.cdnUrl, addressedKey cdnBase url = providerKey

def TrimmedPrefix (keyPrefix : JsString) : Prop :=
  keyPrefix.head? ≠ some slash ∧ keyPrefix.getLast? ≠ some slash

instance (keyPrefix : JsString) : Decidable (TrimmedPrefix keyPrefix) := inferInstanceAs (Decidable (_ ∧ _))

/-- The segments come back from their encodings, one from each. -/
theorem mapM_encode {segments encoded : List JsString} (h : segments.mapM encodeURIComponent = some encoded) :
    encoded.map percentDecode = segments ∧ ∀ e ∈ encoded, ∃ s ∈ segments, encodeURIComponent s = some e := by
  induction segments generalizing encoded with
  | nil =>
    cases h
    exact ⟨rfl, fun e he => by cases he⟩
  | cons s segments ih =>
    simp only [List.mapM_cons, Option.bind_eq_bind, Option.bind_eq_some_iff, Option.pure_def,
      Option.some.injEq] at h
    obtain ⟨e, he, rest, hrest, rfl⟩ := h
    obtain ⟨hdecode, hencoded⟩ := ih hrest
    refine ⟨by rw [List.map_cons, percentDecode_encodeURIComponent he, hdecode], ?_⟩
    intro e' he'
    rcases List.mem_cons.mp he' with rfl | he'
    · exact ⟨s, List.mem_cons_self, he⟩
    · obtain ⟨s', hs', hencode⟩ := hencoded e' he'
      exact ⟨s', List.mem_cons_of_mem s hs', hencode⟩

theorem slash_not_mem_encoded {segments encoded : List JsString}
    (h : segments.mapM encodeURIComponent = some encoded) : ∀ e ∈ encoded, slash ∉ e := by
  intro e he hslash
  obtain ⟨s, -, hs⟩ := (mapM_encode h).2 e he
  exact (encodeURIComponent_units hs _ hslash).2 rfl

theorem mapM_encode_isSome (segments : List JsString) :
    (segments.mapM encodeURIComponent).isSome = true ↔ ∀ s ∈ segments, WellFormed s := by
  induction segments with
  | nil => simp
  | cons s segments ih =>
    rw [List.forall_mem_cons, ← ih, ← encodeURIComponent_isSome, List.mapM_cons]
    cases encodeURIComponent s <;> cases segments.mapM encodeURIComponent <;> simp

/-- A string is well formed exactly when each of its segments is. -/
theorem wellFormed_splitSlash_iff (s : JsString) : (∀ seg ∈ splitSlash s, WellFormed seg) ↔ WellFormed s := by
  have hjoin (segments : List JsString) :
      (∀ seg ∈ segments, WellFormed seg) ↔ WellFormed (joinSlash segments) := by
    induction segments with
    | nil => simp [joinSlash, WellFormed, codePoints]
    | cons seg rest ih =>
      cases rest with
      | nil => simp [joinSlash]
      | cons seg' rest =>
        rw [List.forall_mem_cons, ih, joinSlash_cons, wellFormed_append_ascii slash_lt]
  rw [hjoin, joinSlash_splitSlash]

/-- The URLs of a key exist when its full key is well formed, and then address that. -/
theorem publicUrlsAddress_iff (keyPrefix key providerKey : JsString) :
    PublicUrlsAddress keyPrefix key providerKey ↔
      WellFormed (composeFullKey keyPrefix key) ∧ composeFullKey keyPrefix key = providerKey := by
  have hurl (segments : List JsString) (hs : (splitSlash (composeFullKey keyPrefix key)).mapM encodeURIComponent =
      some segments) (base : JsString) :
      addressedKey base (stripTrailingSlash base ++ slash :: joinSlash segments) = composeFullKey keyPrefix key := by
    have hdecode := (mapM_encode hs).1
    have hne : segments ≠ [] := by
      rintro rfl
      exact splitSlash_ne_nil _ hdecode.symm
    have hdrop : (stripTrailingSlash base ++ slash :: joinSlash segments).drop
        ((stripTrailingSlash base).length + 1) = joinSlash segments := by
      rw [← List.drop_drop, List.drop_left, List.drop_succ_cons, List.drop_zero]
    rw [addressedKey, hdrop, splitSlash_joinSlash (slash_not_mem_encoded hs) hne, hdecode, joinSlash_splitSlash]
  rw [← wellFormed_splitSlash_iff, ← mapM_encode_isSome, Option.isSome_iff_exists]
  constructor
  · intro h
    obtain ⟨urls, hget, haddress, -⟩ := h [] []
    obtain ⟨segments, hs, rfl⟩ := Option.map_eq_some_iff.mp hget
    exact ⟨⟨segments, hs⟩, (hurl segments hs []).symm.trans haddress⟩
  · rintro ⟨⟨segments, hs⟩, rfl⟩ publicBase cdnBase
    refine ⟨_, Option.map_eq_some_iff.mpr ⟨segments, hs, rfl⟩, hurl segments hs publicBase, ?_⟩
    intro url hcdn
    dsimp only at hcdn
    split at hcdn
    · cases hcdn
    · cases hcdn
      exact hurl segments hs cdnBase

theorem composeKey_ok {keyPrefix key : JsString} (h1 : key.head? ≠ some slash) (h2 : js ".." ∉ splitSlash key) :
    composeKey keyPrefix key = .ok (if 0 < (trimSlashes keyPrefix).length
      then trimSlashes keyPrefix ++ slash :: collapseSlashes key else collapseSlashes key) := by
  rw [composeKey, if_neg (by simp [h1, h2])]

/-- All that `composeKey` answers. -/
theorem eq_of_composeKey {keyPrefix key providerKey : JsString} (h : composeKey keyPrefix key = .ok providerKey) :
    providerKey = if 0 < (trimSlashes keyPrefix).length
      then trimSlashes keyPrefix ++ slash :: collapseSlashes key else collapseSlashes key := by
  unfold composeKey at h
  split at h
  · cases h
  · exact (Except.ok.inj h).symm

/-- What `composeKey` and the full key make of one prefix and key is the same string
exactly when there is nothing for `composeKey` to trim or collapse. -/
theorem composeFullKey_eq_iff {keyPrefix key providerKey : JsString}
    (h : composeKey keyPrefix key = .ok providerKey) :
    composeFullKey keyPrefix key = providerKey ↔ TrimmedPrefix keyPrefix ∧ ¬ [slash, slash] <:+: key := by
  obtain rfl := eq_of_composeKey h
  rw [TrimmedPrefix, ← trimSlashes_length_eq_iff, ← collapseSlashes_length_eq_iff]
  have htrim := trimSlashes_length_le keyPrefix
  have hcollapse := collapseSlashes_length_le key
  constructor
  · intro he
    -- both normalisations only ever shorten, so equal strings leave them nothing to do
    have hlen := congrArg List.length he
    by_cases hp : keyPrefix = []
    · subst hp
      rw [composeFullKey, List.isEmpty_nil, if_pos rfl, if_neg (by decide)] at hlen
      exact ⟨rfl, hlen.symm⟩
    · have hpos := List.length_pos_of_ne_nil hp
      rw [composeFullKey, if_neg (by simp [hp])] at hlen
      split at hlen <;> simp only [List.length_append, List.length_cons] at hlen <;> omega
  · rintro ⟨ht, hc⟩
    have hkey : collapseSlashes key = key := collapseSlashes_eq_self ((collapseSlashes_length_eq_iff key).mp hc)
    have hends := (trimSlashes_length_eq_iff keyPrefix).mp ht
    rw [hkey, trimSlashes_eq_self hends.1 hends.2, composeFullKey]
    cases keyPrefix with
    | nil => rfl
    | cons c rest => rfl

theorem wellFormed_composeFullKey (keyPrefix key : JsString) :
    WellFormed (composeFullKey keyPrefix key) ↔ WellFormed keyPrefix ∧ WellFormed key := by
  cases keyPrefix with
  | nil => simp [composeFullKey, show WellFormed [] by decide]
  | cons c rest =>
    rw [composeFullKey, if_neg (by simp)]
    exact wellFormed_append_ascii slash_lt _ _

theorem composeFullKey_tenantKey_iff (keyPrefix : JsString) (tenant : TenantSlug) (category : TenantCategory)
    (extension : Option Extension) (uuid : Uuid) :
    composeKey keyPrefix (tenantKey tenant category extension uuid) =
      .ok (composeFullKey keyPrefix (tenantKey tenant category extension uuid)) ↔ TrimmedPrefix keyPrefix := by
  obtain ⟨hhead, hdots, hrun⟩ := tenantKey_canonical tenant category extension uuid
  have hok := @composeKey_ok keyPrefix _ hhead hdots
  rw [hok, Except.ok.injEq, eq_comm, composeFullKey_eq_iff hok]
  exact and_iff_left hrun

/-- Public URLs and displayed tenant keys name the object the resolver names for
exactly the prefixes and keys that need no normalising and can be written in a URL. -/
theorem key_composers_agree_iff (keyPrefix : JsString) :
    (∀ key providerKey, objectKeySchema.Accepts key → composeKey keyPrefix key = .ok providerKey →
      (PublicUrlsAddress keyPrefix key providerKey ↔
        TrimmedPrefix keyPrefix ∧ ¬ [slash, slash] <:+: key ∧ WellFormed keyPrefix ∧ WellFormed key)) ∧
    ∀ tenant category extension uuid,
      composeKey keyPrefix (tenantKey tenant category extension uuid) =
        .ok (composeFullKey keyPrefix (tenantKey tenant category extension uuid)) ↔ TrimmedPrefix keyPrefix := by
  constructor
  · intro key providerKey _ hcompose
    rw [publicUrlsAddress_iff, wellFormed_composeFullKey, composeFullKey_eq_iff hcompose, and_comm, and_assoc]
  · exact composeFullKey_tenantKey_iff keyPrefix

theorem default_prefix_agrees :
    PublicUrlsAddress (js "storage-example") (js "avatars/a.png") (js "storage-example/avatars/a.png") :=
  ((key_composers_agree_iff (js "storage-example")).1 (js "avatars/a.png") (js "storage-example/avatars/a.png")
    (by decide) (by decide)).mpr (by decide)

/-- A prefix written with its trailing slash, which the schema accepts. -/
theorem trailing_slash_prefix_disagrees :
    objectKeySchema.Accepts (js "avatars/a.png") ∧
      composeKey (js "storage-example/") (js "avatars/a.png") = .ok (js "storage-example/avatars/a.png") ∧
      ¬ PublicUrlsAddress (js "storage-example/") (js "avatars/a.png") (js "storage-example/avatars/a.png") := by
  refine ⟨by decide, by decide, fun h => ?_⟩
  exact absurd ((publicUrlsAddress_iff _ _ _).mp h).2 (by decide)

/-- Collapsing saves one byte for each slash that follows a slash. -/
theorem byteLength_collapseSlashes (s : JsString) :
    byteLength (collapseSlashes s) + repeatedSlashes s = byteLength s := by
  induction s using segmentInduction with
  | segment s hs =>
    have hcollapse := collapseSlashes_append hs []
    have hrepeated := repeatedSlashes_append hs []
    rw [List.append_nil] at hcollapse hrepeated
    rw [hcollapse, hrepeated, collapseSlashes, List.append_nil]
    rfl
  | cut s rest hs ih =>
    have hslash (u : JsString) : byteLength (s ++ slash :: u) = byteLength s + byteLength (slash :: u) := by
      have hnil := byteLength_append_ascii slash_lt [] u
      rw [byteLength_append_ascii slash_lt, Nat.add_assoc, Nat.add_left_cancel_iff]
      rw [List.nil_append] at hnil
      rw [hnil]
      rfl
    have hrest : byteLength (collapseSlashes (slash :: rest)) + repeatedSlashes (slash :: rest) =
        byteLength (slash :: rest) := by
      have hcons (u : JsString) : byteLength (slash :: u) = 1 + byteLength u :=
        byteLength_ascii_append (show IsAscii [slash] by decide) u
      rcases collapseSlashes_slash rest with ⟨hcollapse, hrepeated⟩ | ⟨hcollapse, hrepeated⟩
      · rw [hcollapse, hrepeated, hcons, ← ih]
        omega
      · rw [hcollapse, hrepeated, hcons, hcons, ← ih]
        omega
    obtain ⟨u, hu⟩ := collapseSlashes_slash_head rest
    rw [collapseSlashes_append hs, repeatedSlashes_append hs, hslash rest, ← hrest, hu, hslash u]
    exact Nat.add_assoc _ _ _

/-- What the raw key contributes to the provider key. -/
def rawPart (keyPrefix providerKey : JsString) : JsString :=
  if 0 < (trimSlashes keyPrefix).length then providerKey.drop ((trimSlashes keyPrefix).length + 1) else providerKey

/-- A provider key within the limits that `objectKeySchema` enforces on raw keys. -/
structure FitsProvider (keyPrefix providerKey : JsString) : Prop where
  nonempty : providerKey ≠ []
  noControl : ∀ c ∈ rawPart keyPrefix providerKey, isControlCode c = false
  withinLimit : byteLength providerKey ≤ maxKeyBytes

theorem rawPart_composeKey {keyPrefix key providerKey : JsString} (h : composeKey keyPrefix key = .ok providerKey) :
    rawPart keyPrefix providerKey = collapseSlashes key := by
  rw [eq_of_composeKey h, rawPart]
  split
  · rw [← List.drop_drop, List.drop_left, List.drop_succ_cons, List.drop_zero]
  · rfl

/-- What the prefix and its slash add to the key. -/
theorem byteLength_composeKey {keyPrefix key providerKey : JsString} (h : composeKey keyPrefix key = .ok providerKey) :
    byteLength providerKey + repeatedSlashes key = byteLength key +
      if trimSlashes keyPrefix = [] then 0 else byteLength (trimSlashes keyPrefix) + 1 := by
  have hkey := byteLength_collapseSlashes key
  rw [eq_of_composeKey h]
  by_cases htrim : trimSlashes keyPrefix = []
  · rw [if_pos htrim, htrim, if_neg (by decide)]
    exact hkey
  · rw [if_neg htrim, if_pos (List.length_pos_of_ne_nil htrim), byteLength_append_ascii slash_lt]
    omega

/-- A key the schema accepts fits the provider exactly when there is room for the prefix. -/
theorem provider_key_fits_iff {keyPrefix key providerKey : JsString} (hkey : objectKeySchema.Accepts key)
    (h : composeKey keyPrefix key = .ok providerKey) :
    FitsProvider keyPrefix providerKey ↔ trimSlashes keyPrefix = [] ∨
      byteLength (trimSlashes keyPrefix) + 1 + byteLength key ≤ maxKeyBytes + repeatedSlashes key := by
  obtain ⟨hne, hlimit, hcontrol⟩ := (objectKeySchema_accepts_iff key).mp hkey
  have hraw := rawPart_composeKey h
  have hlength := byteLength_composeKey h
  constructor
  · intro hfits
    have hwithin := hfits.withinLimit
    by_cases htrim : trimSlashes keyPrefix = []
    · exact Or.inl htrim
    · rw [if_neg htrim] at hlength
      exact Or.inr (by omega)
  · intro hroom
    refine ⟨?_, ?_, ?_⟩
    · rintro rfl
      have hnil : collapseSlashes key = [] := by
        rw [← hraw, rawPart, List.drop_nil, ite_self]
      exact collapseSlashes_ne_nil hne hnil
    · rw [hraw]
      exact fun c hc => hcontrol c (collapseSlashes_subset key c hc)
    · rcases hroom with htrim | hroom
      · rw [if_pos htrim] at hlength
        omega
      · split at hlength <;> omega

theorem default_prefix_fits :
    FitsProvider (js "storage-example") (js "storage-example/avatars/a.png") :=
  (provider_key_fits_iff (show objectKeySchema.Accepts (js "avatars/a.png") by decide) (by decide)).mpr (by decide)

/-- The longest key of the schema's own boundary test, behind the default prefix. -/
theorem boundary_key_exceeds_limit :
    objectKeySchema.Accepts (List.replicate 1024 0x61) ∧
      ∃ providerKey, composeKey (js "storage-example") (List.replicate 1024 0x61) = .ok providerKey ∧
        byteLength providerKey = 1040 ∧ ¬ FitsProvider (js "storage-example") providerKey := by
  have haccepted : objectKeySchema.Accepts (List.replicate 1024 0x61) := replicate_accepted (by decide) (by decide)
  have hbytes : byteLength (List.replicate 1024 0x61) = 1024 := byteLength_replicate (by decide) 1024
  generalize hkey : List.replicate 1024 (0x61 : CodeUnit) = key at haccepted hbytes ⊢
  have hslash : slash ∉ key := by
    rw [← hkey]
    exact fun h => absurd (List.eq_of_mem_replicate h) (by decide)
  have hdots : js ".." ∉ splitSlash key := by
    rw [splitSlash_of_not_mem hslash, List.mem_singleton]
    rintro rfl
    exact absurd hbytes (by decide)
  have hrepeated : repeatedSlashes key = 0 := by
    have h := repeatedSlashes_append hslash []
    rwa [List.append_nil] at h
  have hhead := head_append_ne_slash ((objectKeySchema_accepts_iff key).mp haccepted).1 hslash []
  rw [List.append_nil] at hhead
  have hcompose := @composeKey_ok (js "storage-example") key hhead hdots
  have hlength := byteLength_composeKey hcompose
  rw [hrepeated, hbytes, Nat.add_zero] at hlength
  have hlong := hlength.trans (by decide : _ = 1040)
  refine ⟨haccepted, _, hcompose, hlong, fun hfits => ?_⟩
  have hwithin := hfits.withinLimit
  rw [hlong] at hwithin
  exact absurd hwithin (by decide)

end NestStorageExample.Api
