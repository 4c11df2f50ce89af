import NestStorageExample.Api.AbortMultipart
import NestStorageExample.Url.WebBase

/-! The public URLs of a key, as a URL parser reads them back. -/
namespace NestStorageExample.Api
open Text Url
variable {α : Type} (hosts : Hosts α)

/-- `url` has neither query nor fragment, and the part of its path behind the one of `base`
is `fullKey`, each segment decoded. The path of `base` ends with a slash here. -/
def Locates (base url fullKey : JsString) : Prop :=
  ∃ folder target rest, parse hosts (stripTrailingSlash base ++ [slash]) = some folder ∧
    parse hosts url = some target ∧ target.query = none ∧ target.fragment = none ∧
    target.path.pathname = folder.path.pathname ++ rest ∧ (splitSlash rest).map percentDecode = splitSlash fullKey

/-- The public URL of a key, and the one at the CDN where there is one, locate the key with
its prefix. -/
def PublicUrlsLocate (publicBase cdnBase keyPrefix key : JsString) : Prop :=
  ∃ urls, getPublicUrls key publicBase cdnBase keyPrefix = some urls ∧
    Locates hosts publicBase urls.url (composeFullKey keyPrefix key) ∧
    ∀ url ∈ urls.cdnUrl, Locates hosts cdnBase url (composeFullKey keyPrefix key)

/-- A prefix without empty segments and without dots; or none. -/
def PlainPrefix (keyPrefix : JsString) : Prop :=
  keyPrefix = [] ∨ ∀ seg ∈ splitSlash keyPrefix, seg ≠ [] ∧ seg ≠ js "." ∧ seg ≠ js ".."

/-- The keys that are asked about. -/
structure PublicKey (key : JsString) : Prop extends CanonicalKey key where
  wellFormed : WellFormed key
  accepted : objectKeySchema.Accepts key

/-- What `base` has to be for the URLs of `key`: a base in whose path the parser still is once it
has read it and a slash. Segments of a single dot are lost in a path, unless it is opaque. -/
def Carries (base key : JsString) : Prop :=
  match place (stateAfter hosts (stripTrailingSlash base ++ [slash])) with
  | .path => js "." ∉ splitSlash key
  | .opaquePath => True
  | .outside => False

/-- Behind the base of a web server every key without single dots is carried. -/
theorem carries_webBase_iff (hempty : hosts.authority true [] = none) {base : JsString} (h : WebBase hosts base)
    (key : JsString) : Carries hosts base key ↔ js "." ∉ splitSlash key := by
  rw [Carries, place_webBase hosts hempty h]

theorem PublicKey.ne_nil {key : JsString} (h : PublicKey key) : key ≠ [] :=
  ((objectKeySchema_accepts_iff key).mp h.accepted).1

/-- A relative key begins with a segment of its own. -/
theorem PublicKey.segments {key : JsString} (h : PublicKey key) :
    ∃ first rest, splitSlash key = first :: rest ∧ first ≠ [] := by
  obtain ⟨first, rest, hsplit⟩ := List.exists_cons_of_ne_nil (splitSlash_ne_nil key)
  refine ⟨first, rest, hsplit, ?_⟩
  rintro rfl
  have hjoin := joinSlash_splitSlash key
  rw [hsplit] at hjoin
  cases rest with
  | nil => exact h.ne_nil (by rw [← hjoin, joinSlash_singleton])
  | cons next rest =>
    rw [joinSlash_cons, List.nil_append] at hjoin
    exact h.relative (by rw [← hjoin]; rfl)

/-- The prefix adds segments in front, and no dots. -/
theorem fullKey_segments {keyPrefix key : JsString} (hplain : PlainPrefix keyPrefix) (hkey : PublicKey key) :
    ∃ first rest, splitSlash (composeFullKey keyPrefix key) = first :: rest ∧ first ≠ [] ∧
      js ".." ∉ first :: rest ∧ (js "." ∈ first :: rest ↔ js "." ∈ splitSlash key) := by
  obtain ⟨first, rest, hsplit, hne⟩ := hkey.segments
  rw [composeFullKey]
  split
  · refine ⟨first, rest, hsplit, hne, ?_, by rw [hsplit]⟩
    rw [← hsplit]
    exact hkey.noDots
  · rename_i hempty
    rcases hplain with rfl | hsegments
    · exact absurd rfl hempty
    · obtain ⟨front, back, hfront⟩ := List.exists_cons_of_ne_nil (splitSlash_ne_nil keyPrefix)
      refine ⟨front, back ++ splitSlash key, ?_, ?_, ?_, ?_⟩
      · rw [splitSlash_append, hfront, List.cons_append]
      · exact (hsegments front (by rw [hfront]; exact List.mem_cons_self)).1
      · rw [← List.cons_append, ← hfront, List.mem_append, not_or]
        exact ⟨fun hmem => (hsegments _ hmem).2.2 rfl, hkey.noDots⟩
      · rw [← List.cons_append, ← hfront, List.mem_append]
        exact or_iff_right (fun hmem => (hsegments _ hmem).2.1 rfl)

section Encoded
variable {fullKey first : JsString} {rest encoded : List JsString}
  (hencoded : (first :: rest).mapM encodeURIComponent = some encoded)
include hencoded

theorem encoded_names (hdots : js ".." ∉ first :: rest) : ∀ name ∈ encoded, PlainName name := by
  intro name hname
  obtain ⟨s, hs, hencode⟩ := (mapM_encode hencoded).2 name hname
  apply plainName_of_encodeURIComponent hencode
  rintro rfl
  exact hdots hs

/-- The first segment is encoded first, and not by nothing. -/
theorem encoded_cons (hne : first ≠ []) :
    ∃ text texts, encoded = text :: texts ∧ text ≠ [] ∧ texts.length = rest.length := by
  have hmap := (mapM_encode hencoded).1
  cases encoded with
  | nil => cases hmap
  | cons text texts =>
    refine ⟨text, texts, rfl, ?_, ?_⟩
    · rintro rfl
      exact hne (List.cons.inj hmap).1.symm
    · simpa using congrArg List.length hmap

/-- The encodings of single dots are single dots, and no others. -/
theorem encoded_no_dots_iff : (∀ name ∈ encoded, isSingleDot name = false) ↔ js "." ∉ first :: rest := by
  obtain ⟨hdecode, hsource⟩ := mapM_encode hencoded
  constructor
  · intro h hdot
    rw [← hdecode] at hdot
    obtain ⟨name, hname, hdot⟩ := List.mem_map.mp hdot
    obtain ⟨s, -, hencode⟩ := hsource name hname
    have hs : s = js "." := by rw [← percentDecode_encodeURIComponent hencode, hdot]
    exact Bool.false_ne_true ((h name hname).symm.trans ((isSingleDot_iff hencode).mpr hs))
  · intro h name hname
    obtain ⟨s, hs, hencode⟩ := hsource name hname
    rw [Bool.eq_false_iff, ne_eq, isSingleDot_iff hencode]
    rintro rfl
    exact h hs

theorem encoded_without_dots : (withoutDots encoded).map percentDecode = first :: rest ↔ js "." ∉ first :: rest := by
  have hread : ∀ s, isSingleDot s = true → percentDecode s ≠ percentDecode [] := by
    intro s hs
    rw [isSingleDot, List.contains_eq_mem, decide_eq_true_eq] at hs
    rw [dotSpellings_decoded s hs]
    decide
  conv_lhs => rw [← (mapM_encode hencoded).1]
  rw [map_withoutDots_eq_iff hread, encoded_no_dots_iff hencoded]

end Encoded

theorem begins_with_name {text first : JsString} {rest : List JsString}
    (h : (splitSlash text).map percentDecode = first :: rest) (hne : first ≠ []) :
    text ≠ [] ∧ ∀ tail, text ≠ slash :: tail := by
  have hempty : percentDecode [] = [] := by decide
  constructor
  · rintro rfl
    rw [splitSlash_of_not_mem List.not_mem_nil, List.map_cons, hempty] at h
    exact hne (List.cons.inj h).1.symm
  · rintro tail rfl
    have hsplit : splitSlash (slash :: tail) = [] :: splitSlash tail := splitSlash_append_slash List.not_mem_nil tail
    rw [hsplit, List.map_cons, hempty] at h
    exact hne (List.cons.inj h).1.symm

section Located
variable {fullKey first : JsString} {rest encoded : List JsString} (hsplit : splitSlash fullKey = first :: rest)
  (hne : first ≠ []) (hdots : js ".." ∉ first :: rest)
  (hencoded : (first :: rest).mapM encodeURIComponent = some encoded) (base : JsString)
include hsplit hne hdots hencoded

/-- A first segment that is read for a host is missing behind every base. -/
theorem not_locates_outside (hplace : place (stateAfter hosts (stripTrailingSlash base ++ [slash])) = .outside) :
    ¬ Locates hosts base (stripTrailingSlash base ++ slash :: joinSlash encoded) fullKey := by
  rintro ⟨folder, target, behind, hfolder, htarget, hquery, hfragment, hpath, hdecode⟩
  have hnames := encoded_names hencoded hdots
  have hslash := slash_not_mem_encoded hencoded
  obtain ⟨text, texts, rfl, htext, hlength⟩ := encoded_cons hencoded hne
  rw [hsplit] at hdecode
  obtain ⟨hbehind, hrelative⟩ := begins_with_name hdecode hne
  rcases parse_outside hosts hnames htext hplace hfolder htarget with h | h | ⟨hnone, hread⟩
  · exact h hquery
  · exact h hfragment
  · have htarget : target.path.pathname = [] ∨ target.path.pathname = [slash] ∨
        texts ≠ [] ∧ target.path.pathname = slash :: joinSlash (withoutDots texts) := by
      rcases hread with ⟨-, hnone⟩ | ⟨htexts, hlist⟩
      · exact hnone.pathname.imp_right Or.inl
      · right
        right
        refine ⟨htexts, ?_⟩
        rw [hlist, ← List.nil_append (withoutDots texts), pathname_append [] (withoutDots_ne_nil htexts)]
        rfl
    rcases hnone.pathname with hfolder | hfolder <;> rw [hfolder] at hpath
    · rw [List.nil_append] at hpath
      rcases htarget with h | h | ⟨-, h⟩ <;> rw [h] at hpath
      · exact hbehind hpath.symm
      · exact hrelative _ hpath.symm
      · exact hrelative _ hpath.symm
    · rcases htarget with h | h | ⟨htexts, h⟩ <;> rw [h] at hpath
      · cases hpath
      · exact hbehind (List.cons.inj hpath).2.symm
      · -- the names that are left are fewer than the segments of the key
        have hjoin : behind = joinSlash (withoutDots texts) := (List.cons.inj hpath).2.symm
        have hclean : ∀ seg ∈ withoutDots texts, slash ∉ seg := by
          intro seg hseg
          rcases mem_withoutDots hseg with hseg | rfl
          · exact hslash seg (List.mem_cons_of_mem text hseg)
          · exact List.not_mem_nil
        rw [hjoin, splitSlash_joinSlash hclean (withoutDots_ne_nil htexts)] at hdecode
        have hcount := congrArg List.length hdecode
        have hle := withoutDots_length_le texts
        rw [List.length_map, List.length_cons] at hcount
        omega

/-- The URL of a key is read back exactly when its base carries it. -/
theorem locates_iff : Locates hosts base (stripTrailingSlash base ++ slash :: joinSlash encoded) fullKey ↔
    match place (stateAfter hosts (stripTrailingSlash base ++ [slash])) with
    | .path => js "." ∉ first :: rest
    | .opaquePath => True
    | .outside => False := by
  have hnames := encoded_names hencoded hdots
  have hslash := slash_not_mem_encoded hencoded
  have hmap := (mapM_encode hencoded).1
  obtain ⟨text, texts, rfl, htext, -⟩ := encoded_cons hencoded hne
  have hnonempty : text :: texts ≠ [] := List.cons_ne_nil _ _
  have hclean : ∀ seg ∈ withoutDots (text :: texts), slash ∉ seg := by
    intro seg hseg
    rcases mem_withoutDots hseg with hseg | rfl
    · exact hslash seg hseg
    · exact List.not_mem_nil
  cases hplace : place (stateAfter hosts (stripTrailingSlash base ++ [slash])) with
  | path =>
    obtain ⟨front, segments, hfolder, htarget⟩ := parse_path hosts hnames htext hplace
    have hpath := pathname_append segments (withoutDots_ne_nil hnonempty)
    have hsegments := splitSlash_joinSlash hclean (withoutDots_ne_nil hnonempty)
    rw [← encoded_without_dots hencoded]
    constructor
    · rintro ⟨folder, target, behind, hfolder', htarget', -, -, hbehind, hdecode⟩
      rw [hfolder, Option.some.injEq] at hfolder'
      rw [htarget, Option.some.injEq] at htarget'
      rw [← hfolder', ← htarget', hpath, List.append_cancel_left_eq] at hbehind
      rw [← hsegments, hbehind, hdecode, hsplit]
    · intro hdecode
      refine ⟨_, _, joinSlash (withoutDots (text :: texts)), hfolder, htarget, rfl, rfl, hpath, ?_⟩
      rw [hsegments, hdecode, hsplit]
  | opaquePath =>
    obtain ⟨scheme, path, hfolder, htarget⟩ := parse_opaquePath hosts hnames hplace
    refine iff_of_true ⟨_, _, joinSlash (text :: texts), hfolder, htarget, rfl, rfl, rfl, ?_⟩ trivial
    rw [splitSlash_joinSlash hslash hnonempty, hmap, hsplit]
  | outside => exact iff_of_false (not_locates_outside hosts hsplit hne hdots hencoded base hplace) id

end Located

/-- The public URLs locate a key exactly when its full key can be encoded and every base there
is carries it. -/
theorem publicUrlsLocate_iff {keyPrefix key : JsString} (hplain : PlainPrefix keyPrefix) (hkey : PublicKey key)
    (publicBase cdnBase : JsString) : PublicUrlsLocate hosts publicBase cdnBase keyPrefix key ↔
      WellFormed keyPrefix ∧ Carries hosts publicBase key ∧ (cdnBase ≠ [] → Carries hosts cdnBase key) := by
  obtain ⟨first, rest, hsplit, hne, hdots, hdot⟩ := fullKey_segments hplain hkey
  have hwellFormed : WellFormed (composeFullKey keyPrefix key) ↔ WellFormed keyPrefix := by
    rw [wellFormed_composeFullKey, and_iff_left hkey.wellFormed]
  have hcarries {encoded : List JsString} (hencoded : (first :: rest).mapM encodeURIComponent = some encoded)
      (base : JsString) : Locates hosts base (stripTrailingSlash base ++ slash :: joinSlash encoded)
        (composeFullKey keyPrefix key) ↔ Carries hosts base key := by
    rw [locates_iff hosts hsplit hne hdots hencoded base, Carries, hdot]
  have hencodes : WellFormed keyPrefix ↔ ∃ encoded, (first :: rest).mapM encodeURIComponent = some encoded := by
    rw [← Option.isSome_iff_exists, mapM_encode_isSome, ← hsplit, wellFormed_splitSlash_iff, hwellFormed]
  have hurls : getPublicUrls key publicBase cdnBase keyPrefix =
      ((first :: rest).mapM encodeURIComponent).map fun segments =>
        { url := stripTrailingSlash publicBase ++ slash :: joinSlash segments
          cdnUrl := if cdnBase.isEmpty then none else some (stripTrailingSlash cdnBase ++ slash :: joinSlash segments)
          note := publicUrlNote } := by
    rw [← hsplit]
    rfl
  rw [PublicUrlsLocate, hencodes, hurls]
  constructor
  · rintro ⟨urls, hmap, hpublic, hcdn⟩
    obtain ⟨encoded, hencoded, rfl⟩ := Option.map_eq_some_iff.mp hmap
    refine ⟨⟨encoded, hencoded⟩, (hcarries hencoded publicBase).mp hpublic, ?_⟩
    intro hbase
    apply (hcarries hencoded cdnBase).mp
    apply hcdn
    rw [if_neg (by simpa using hbase)]
    rfl
  · rintro ⟨⟨encoded, hencoded⟩, hpublic, hcdn⟩
    refine ⟨_, Option.map_eq_some_iff.mpr ⟨encoded, hencoded, rfl⟩, (hcarries hencoded publicBase).mpr hpublic, ?_⟩
    intro url hurl
    dsimp only at hurl
    split at hurl
    · cases hurl
    · rename_i hempty
      cases hurl
      exact (hcarries hencoded cdnBase).mpr (hcdn (by simpa using hempty))

theorem composeFullKey_injective (keyPrefix : JsString) {key key' : JsString}
    (h : composeFullKey keyPrefix key = composeFullKey keyPrefix key') : key = key' := by
  unfold composeFullKey at h
  split at h
  · exact h
  · exact (List.cons.inj (List.append_cancel_left h)).2

/-- Two full keys are located at different URLs. -/
theorem Locates.unique {base url url' fullKey fullKey' : JsString} (h : Locates hosts base url fullKey)
    (h' : Locates hosts base url' fullKey') (hparse : parse hosts url = parse hosts url') : fullKey = fullKey' := by
  obtain ⟨folder, target, behind, hfolder, htarget, -, -, hpath, hdecode⟩ := h
  obtain ⟨folder', target', behind', hfolder', htarget', -, -, hpath', hdecode'⟩ := h'
  rw [hfolder, Option.some.injEq] at hfolder'
  rw [← hparse, htarget, Option.some.injEq] at htarget'
  rw [← hfolder', ← htarget', hpath, List.append_cancel_left_eq] at hpath'
  rw [← joinSlash_splitSlash fullKey, ← joinSlash_splitSlash fullKey', ← hdecode, ← hdecode', hpath']

/-- The public URLs of a key identify it exactly when its prefix is well formed and the bases
carry it; and located keys are told apart by either URL. -/
theorem public_url_identifies_iff {keyPrefix key : JsString} (hplain : PlainPrefix keyPrefix)
    (hkey : PublicKey key) (publicBase cdnBase : JsString) :
    (PublicUrlsLocate hosts publicBase cdnBase keyPrefix key ↔
      WellFormed keyPrefix ∧ Carries hosts publicBase key ∧ (cdnBase ≠ [] → Carries hosts cdnBase key)) ∧
    ∀ key' urls urls', PublicUrlsLocate hosts publicBase cdnBase keyPrefix key →
      PublicUrlsLocate hosts publicBase cdnBase keyPrefix key' →
      getPublicUrls key publicBase cdnBase keyPrefix = some urls →
      getPublicUrls key' publicBase cdnBase keyPrefix = some urls' →
      (parse hosts urls.url = parse hosts urls'.url ∨
        ∃ url ∈ urls.cdnUrl, ∃ url' ∈ urls'.cdnUrl, parse hosts url = parse hosts url') → key = key' := by
  refine ⟨publicUrlsLocate_iff hosts hplain hkey publicBase cdnBase, ?_⟩
  rintro key' urls urls' ⟨found, hfound, hpublic, hcdn⟩ ⟨found', hfound', hpublic', hcdn'⟩ hurls hurls' hsame
  rw [hurls, Option.some.injEq] at hfound
  rw [hurls', Option.some.injEq] at hfound'
  subst hfound
  subst hfound'
  apply composeFullKey_injective keyPrefix
  rcases hsame with hsame | ⟨url, hurl, url', hurl', hsame⟩
  · exact hpublic.unique hosts hpublic' hsame
  · exact (hcdn url hurl).unique hosts (hcdn' url' hurl') hsame

/-- Authorities taken as they are; an empty one is a failure in a special URL. -/
def plainHosts : Hosts (List Nat) := ⟨fun special text => if special && text.isEmpty then none else some text, some, []⟩

def localBase : JsString := js "http://localhost:9000/vault"

theorem localBase_carries_iff (key : JsString) : Carries plainHosts localBase key ↔ js "." ∉ splitSlash key := by
  apply carries_webBase_iff plainHosts rfl
  refine ⟨⟨_, rfl, ⟨by decide, by decide, rfl, rfl⟩⟩, ?_⟩
  intro c hc
  have hlast : localBase.getLast? = some 0x74 := by decide
  rw [hlast] at hc
  cases hc
  decide

theorem publicKey_of_checks {key : JsString} (hlength : byteLength key ≤ maxKeyBytes)
    (hcontrol : hasNoControlCharacters key = true) (hrun : (collapseSlashes key).length = key.length)
    (hwellFormed : WellFormed key) (h : key ≠ [] ∧ key.head? ≠ some slash ∧ js ".." ∉ splitSlash key) :
    PublicKey key := by
  obtain ⟨hne, hhead, hdots⟩ := h
  refine ⟨⟨(collapseSlashes_length_eq_iff key).mp hrun, hhead, hdots⟩, hwellFormed, ?_⟩
  apply (objectKeySchema_accepts_iff key).mpr
  refine ⟨hne, hlength, ?_⟩
  intro c hc
  simpa using List.all_eq_true.mp hcontrol c hc

theorem accented_key_identified :
    PublicUrlsLocate plainHosts localBase [] (js "storage-example") (js "ação/a+b %2e.png") :=
  (public_url_identifies_iff plainHosts (Or.inr (by decide))
    (publicKey_of_checks (by decide) (by decide) (by decide) (by decide) (by decide)) localBase []).1.mpr
    ⟨by decide, (localBase_carries_iff _).mpr (by decide), fun h => absurd rfl h⟩

/-- `a/./b` and `a/b` are two keys with one URL. -/
theorem dotted_key_not_identified :
    PlainPrefix (js "storage-example") ∧ PublicKey (js "a/./b") ∧ PublicKey (js "a/b") ∧
    ¬ PublicUrlsLocate plainHosts localBase [] (js "storage-example") (js "a/./b") ∧
    ∃ urls urls', getPublicUrls (js "a/./b") localBase [] (js "storage-example") = some urls ∧
      getPublicUrls (js "a/b") localBase [] (js "storage-example") = some urls' ∧
      parse plainHosts urls.url = parse plainHosts urls'.url := by
  have hplain : PlainPrefix (js "storage-example") := Or.inr (by decide)
  have hdotted : PublicKey (js "a/./b") := publicKey_of_checks (by decide) (by decide) (by decide) (by decide) (by decide)
  have hplainKey : PublicKey (js "a/b") := publicKey_of_checks (by decide) (by decide) (by decide) (by decide) (by decide)
  refine ⟨hplain, hdotted, hplainKey, ?_, _, _, rfl, rfl, by decide⟩
  rw [publicUrlsLocate_iff plainHosts hplain hdotted, localBase_carries_iff]
  rintro ⟨-, hdot, -⟩
  exact hdot (by decide)

end NestStorageExample.Api
