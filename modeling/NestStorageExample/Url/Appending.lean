import NestStorageExample.Url.PathText
import Mathlib.Data.List.DropRight

/-! A URL made of a base, a slash and plain names: where the parser is behind the slash
decides what becomes of the names. -/
namespace NestStorageExample.Url
open Text
variable {α : Type} (hosts : Hosts α)

/-- Where the parser is: in a path made of segments, in a path that is one text, or elsewhere. -/
inductive Place where
  | path
  | opaquePath
  | outside
  deriving DecidableEq

def place : State α → Place
  | .path _ _ _ => .path
  | .pathOrAuthority _ => .path
  | .fileSlash => .path
  | .opaquePath _ _ => .opaquePath
  | _ => .outside

/-- What has been read of a path at a state behind a slash. -/
def begun : State α → Option (Front α × List JsString)
  | .path front segments _ => some (front, segments)
  | .pathOrAuthority scheme => some (⟨scheme, none⟩, [])
  | .fileSlash => some (fileFront hosts, [])
  | _ => none

/-- A host stands next. -/
inductive AwaitsHost : State α → Prop where
  | authority (scheme : JsString) : AwaitsHost (.authority scheme [])
  | special (scheme : JsString) : AwaitsHost (.specialAuthoritySlashes scheme)
  | file : AwaitsHost (.fileHost [])

/-- What the parser may be doing behind a slash. -/
inductive BehindSlash : State α → Prop where
  | failure : BehindSlash .failure
  | path (front : Front α) (segments : List JsString) : BehindSlash (.path front segments [])
  | pathOrAuthority (scheme : JsString) : BehindSlash (.pathOrAuthority scheme)
  | fileSlash : BehindSlash .fileSlash
  | opaquePath (scheme text : JsString) : BehindSlash (.opaquePath scheme text)
  | host {state : State α} (h : AwaitsHost state) : BehindSlash state
  | query (front : Front α) (path : UrlPath) (text : JsString) : BehindSlash (.query front path text)
  | fragment (front : Front α) (path : UrlPath) (query : Option JsString) (text : JsString) :
      BehindSlash (.fragment front path query text)

/-- The names, with a slash between them. -/
def JoinedText (s : JsString) : Prop := ∀ c ∈ s, c = slash ∨ isPlain c.toNat = true

theorem joinSlash_joined {texts : List JsString} (h : ∀ text ∈ texts, PlainText text) :
    JoinedText (joinSlash texts) := by
  induction texts with
  | nil => intro c hc; cases hc
  | cons text texts ih =>
    have htext := h text List.mem_cons_self
    cases texts with
    | nil =>
      rw [joinSlash_singleton]
      exact fun c hc => Or.inr (htext c hc)
    | cons next texts =>
      rw [joinSlash_cons]
      intro c hc
      rcases List.mem_append.mp hc with hc | hc
      · exact Or.inr (htext c hc)
      · rcases List.mem_cons.mp hc with rfl | hc
        · exact Or.inl rfl
        · exact ih (fun t ht => h t (List.mem_cons_of_mem text ht)) c hc

theorem JoinedText.bounds {s : JsString} (h : JoinedText s) {c : CodeUnit} (hc : c ∈ s) :
    0x20 < c.toNat ∧ c.toNat < 0x7F := by
  rcases h c hc with rfl | hplain
  · decide
  · exact (isPlain_spec hplain).2.2.2.2.2

theorem dropWhile_append_cons {p : Nat → Bool} {a : Nat} (ha : p a = false) (front rest : List Nat) :
    (front ++ a :: rest).dropWhile p = front.dropWhile p ++ a :: rest := by
  rw [List.dropWhile_append]
  split
  · rename_i h
    rw [List.dropWhile_cons_of_neg (by simp [ha]), List.isEmpty_iff.mp h, List.nil_append]
  · rfl

theorem rdropWhile_append_of_all {p : Nat → Bool} {front rest : List Nat} (hne : rest ≠ [])
    (h : ∀ a ∈ rest, p a = false) : (front ++ rest).rdropWhile p = front ++ rest := by
  apply List.rdropWhile_eq_self_iff.mpr
  intro hl
  rw [List.getLast_append_of_ne_nil hl hne, h _ (List.getLast_mem hne)]
  exact Bool.false_ne_true

/-- What stands in front of the slash is read in the same way, whatever the names are. -/
theorem input_append_slash (s : JsString) : ∃ front : List Nat, ∀ text, JoinedText text →
    input (s ++ slash :: text) = front ++ slash.toNat :: text.map UInt16.toNat := by
  let scalar := fun cp => if IsSurrogate cp then replacement else cp
  refine ⟨(((codePoints s).map scalar).dropWhile isC0OrSpace).filter (fun cp => !isTabOrNewline cp), ?_⟩
  intro text htext
  have hascii : IsAscii text := fun c hc => by have := htext.bounds hc; omega
  have hscalar : (slash.toNat :: codePoints text).map scalar = slash.toNat :: text.map UInt16.toNat := by
    rw [codePoints_ascii hascii]
    refine (List.map_congr_left ?_).trans (List.map_id _)
    intro cp hcp
    have hlt : cp < 0x80 := by
      rcases List.mem_cons.mp hcp with rfl | hcp
      · decide
      · obtain ⟨c, hc, rfl⟩ := List.mem_map.mp hcp
        exact hascii c hc
    exact if_neg (fun h => by have := h.1; omega)
  have hprinted : ∀ cp ∈ slash.toNat :: text.map UInt16.toNat, 0x20 < cp := by
    intro cp hcp
    rcases List.mem_cons.mp hcp with rfl | hcp
    · decide
    · obtain ⟨c, hc, rfl⟩ := List.mem_map.mp hcp
      exact (htext.bounds hc).1
  have hkept : (slash.toNat :: text.map UInt16.toNat).filter (fun cp => !isTabOrNewline cp) =
      slash.toNat :: text.map UInt16.toNat := by
    apply List.filter_eq_self.mpr
    intro cp hcp
    have := hprinted cp hcp
    simp only [isTabOrNewline, Bool.not_eq_true', Bool.or_eq_false_iff, beq_eq_false_iff_ne]
    omega
  rw [input, codePoints_append_ascii slash_lt, List.map_append, hscalar, dropWhile_append_cons (by decide),
    rdropWhile_append_of_all (List.cons_ne_nil _ _), List.filter_append, hkept]
  intro cp hcp
  have := hprinted cp hcp
  simp only [isC0OrSpace, decide_eq_false_iff_not]
  omega

theorem stateAfter_append_slash (s : JsString) : ∃ before : State α, ∀ text, JoinedText text →
    stateAfter hosts (s ++ slash :: text) =
      (text.map UInt16.toNat).foldl (step hosts) (step hosts before slash.toNat) := by
  obtain ⟨front, hfront⟩ := input_append_slash s
  refine ⟨front.foldl (step hosts) .schemeStart, ?_⟩
  intro text htext
  rw [stateAfter, hfront text htext, List.foldl_append, List.foldl_cons]

theorem pathStep_slash (front : Front α) (segments : List JsString) (buffer : JsString) :
    BehindSlash (pathStep front segments buffer slash.toNat) := .path front _

theorem step_slash (state : State α) : BehindSlash (step hosts state slash.toNat) := by
  cases state with
  | failure => exact .failure
  | schemeStart => exact .failure
  | scheme buffer => exact .failure
  | afterScheme scheme => exact .pathOrAuthority scheme
  | pathOrAuthority scheme => exact .host (.authority scheme)
  | specialAuthoritySlashes scheme => exact .host (.special scheme)
  | authority scheme buffer =>
    change BehindSlash (authorityStep hosts scheme buffer slash.toNat)
    rw [authorityStep, if_pos (by rfl)]
    split
    · exact .failure
    · exact .path _ []
  | file => exact .fileSlash
  | fileSlash => exact .host .file
  | fileHost buffer =>
    change BehindSlash (fileHostStep hosts buffer slash.toNat)
    rw [fileHostStep, if_pos (by rfl)]
    split
    · exact pathStep_slash _ _ _
    · split
      · exact .path _ []
      · split
        · exact .failure
        · exact .path _ []
  | path front segments buffer => exact pathStep_slash front segments buffer
  | opaquePath scheme text => exact .opaquePath scheme _
  | query front path text => exact .query front path _
  | fragment front path query text => exact .fragment front path query _

/-- Where the parser is behind the slash, and what it reads from there. -/
theorem stateAfter_behind_slash (s : JsString) : BehindSlash (stateAfter hosts (s ++ [slash])) ∧
    ∀ text, JoinedText text → stateAfter hosts (s ++ slash :: text) =
      (text.map UInt16.toNat).foldl (step hosts) (stateAfter hosts (s ++ [slash])) := by
  obtain ⟨before, hafter⟩ := stateAfter_append_slash hosts s
  have hbase : stateAfter hosts (s ++ [slash]) = step hosts before slash.toNat := hafter [] (List.forall_mem_nil _)
  rw [hbase]
  exact ⟨step_slash hosts before, hafter⟩

theorem behindSlash_stateAfter (s : JsString) : BehindSlash (stateAfter hosts (s ++ [slash])) :=
  (stateAfter_behind_slash hosts s).1

/-- The first name begins a segment wherever a path has begun. -/
theorem foldl_begun {state : State α} {front : Front α} {segments : List JsString} (hstate : BehindSlash state)
    (h : begun hosts state = some (front, segments)) {text : JsString} (hplain : PlainText text) (hne : text ≠ [])
    (rest : List Nat) : (text.map UInt16.toNat ++ rest).foldl (step hosts) state =
      (text.map UInt16.toNat ++ rest).foldl (step hosts) (.path front segments []) := by
  obtain ⟨c, text, rfl⟩ := List.exists_cons_of_ne_nil hne
  have hc := hplain c List.mem_cons_self
  have hslash : c.toNat ≠ 0x2F := (isPlain_spec hc).2.1
  rw [List.map_cons, List.cons_append, List.foldl_cons, List.foldl_cons]
  congr 1
  cases hstate with
  | path => cases h; rfl
  | pathOrAuthority scheme =>
    cases h
    change (if c.toNat = 0x2F then _ else pathStep _ [] [] c.toNat) = _
    rw [if_neg hslash]
    rfl
  | fileSlash =>
    cases h
    change (if isSeparator true c.toNat then _ else pathStep _ [] [] c.toNat) = _
    rw [if_neg (by simp [isSeparator_plain hc])]
    rfl
  | host h' => cases h' <;> cases h
  | failure | opaquePath | query | fragment => cases h

theorem finish_begun {state : State α} {front : Front α} {segments : List JsString} (hstate : BehindSlash state)
    (h : begun hosts state = some (front, segments)) :
    finish hosts state = some ⟨front, .segments (segments ++ [[]]), none, none⟩ := by
  have hclose (front : Front α) (segments : List JsString) :
      closeSegment front segments [] false = segments ++ [[]] := by
    rw [closeSegment, if_neg (by decide), if_neg (by decide), if_neg (by rintro ⟨-, -, h⟩; cases h)]
  cases hstate with
  | path => cases h; rw [finish, pathEnd, hclose]
  | pathOrAuthority => cases h; rw [finish, pathEnd, hclose]
  | fileSlash => cases h; rw [finish, pathEnd, hclose]
  | host h' => cases h' <;> cases h
  | failure | opaquePath | query | fragment => cases h

theorem foldl_opaquePath (scheme text : JsString) {s : JsString} (h : JoinedText s) :
    (s.map UInt16.toNat).foldl (step hosts) (.opaquePath scheme text) = .opaquePath scheme (text ++ s) := by
  apply foldl_collect hosts (fun text => .opaquePath scheme text)
  intro text c hc
  have hbounds := h.bounds hc
  have hends : endsPath c.toNat = false := by
    rcases h c hc with rfl | hplain
    · rfl
    · exact endsPath_plain hplain
  change opaquePathStep scheme text c.toNat = _
  rw [opaquePathStep, if_neg (by simp [hends]), percentEncode,
    if_neg (by simp only [inC0ControlSet, Bool.or_eq_true, decide_eq_true_eq]; omega), UInt16.ofNat_toNat]

theorem authorityStep_plain (scheme : JsString) (buffer : List Nat) {cp : Nat} (h : isPlain cp = true) :
    authorityStep hosts scheme buffer cp = .authority scheme (buffer ++ [cp]) := by
  rw [authorityStep, if_neg (by simp [isSeparator_plain h, endsPath_plain h])]

theorem fileHostStep_plain (buffer : List Nat) {cp : Nat} (h : isPlain cp = true) :
    fileHostStep hosts buffer cp = .fileHost (buffer ++ [cp]) := by
  rw [fileHostStep, if_neg (by simp [isSeparator_plain h, endsPath_plain h])]

theorem foldl_authority (scheme buffer : JsString) {s : JsString} (h : PlainText s) :
    (s.map UInt16.toNat).foldl (step hosts) (.authority scheme (buffer.map UInt16.toNat)) =
      .authority scheme ((buffer ++ s).map UInt16.toNat) := by
  apply foldl_collect hosts (fun buffer => .authority scheme (buffer.map UInt16.toNat))
  intro buffer c hc
  rw [List.map_append]
  exact authorityStep_plain hosts scheme _ (h c hc)

theorem foldl_fileHost (buffer : JsString) {s : JsString} (h : PlainText s) :
    (s.map UInt16.toNat).foldl (step hosts) (.fileHost (buffer.map UInt16.toNat)) =
      .fileHost ((buffer ++ s).map UInt16.toNat) := by
  apply foldl_collect hosts (fun buffer => .fileHost (buffer.map UInt16.toNat))
  intro buffer c hc
  rw [List.map_append]
  exact fileHostStep_plain hosts _ (h c hc)

/-- The state in which the first name has been read where a host stands. -/
inductive HostRead (text : JsString) : State α → Prop where
  | authority (scheme : JsString) : HostRead text (.authority scheme (text.map UInt16.toNat))
  | file : HostRead text (.fileHost (text.map UInt16.toNat))

theorem AwaitsHost.read {state : State α} (h : AwaitsHost state) {text : JsString} (hplain : PlainText text)
    (hne : text ≠ []) : HostRead text ((text.map UInt16.toNat).foldl (step hosts) state) := by
  cases h with
  | authority scheme =>
    have hread := foldl_authority hosts scheme [] hplain
    rw [List.map_nil, List.nil_append] at hread
    rw [hread]
    exact .authority scheme
  | special scheme =>
    obtain ⟨c, text, rfl⟩ := List.exists_cons_of_ne_nil hne
    have hc := hplain c List.mem_cons_self
    have hstep : step hosts (.specialAuthoritySlashes scheme) c.toNat = .authority scheme [c.toNat] := by
      change (if isSeparator true c.toNat then _ else authorityStep hosts scheme [] c.toNat) = _
      rw [if_neg (by simp [isSeparator_plain hc]), authorityStep_plain hosts scheme [] hc]
      rfl
    have hread := foldl_authority hosts scheme [c] (fun d hd => hplain d (List.mem_cons_of_mem c hd))
    rw [List.map_singleton] at hread
    rw [List.map_cons, List.foldl_cons, hstep, hread]
    exact .authority scheme
  | file =>
    have hread := foldl_fileHost hosts [] hplain
    rw [List.map_nil, List.nil_append] at hread
    rw [hread]
    exact .file

/-- A host that a slash ends leaves the path to begin. -/
theorem HostRead.step_slash {text : JsString} {state : State α} (h : HostRead text state) (hne : text ≠ [])
    (hdrive : isDriveSegment text = false) : step hosts state slash.toNat = .failure ∨
      ∃ front, step hosts state slash.toNat = .path front [] [] := by
  cases h with
  | authority scheme =>
    change authorityStep hosts scheme _ slash.toNat = _ ∨ ∃ front, authorityStep hosts scheme _ slash.toNat = _
    rw [authorityStep, if_pos (by rfl)]
    cases hosts.authority (isSpecial scheme) (text.map UInt16.toNat) with
    | none => exact Or.inl rfl
    | some authority => exact Or.inr ⟨_, rfl⟩
  | file =>
    change fileHostStep hosts _ slash.toNat = _ ∨ ∃ front, fileHostStep hosts _ slash.toNat = _
    have hne' : text.map UInt16.toNat ≠ [] := fun h => hne (List.map_eq_nil_iff.mp h)
    rw [isDriveSegment] at hdrive
    rw [fileHostStep, if_pos (by rfl), if_neg (by simp [hdrive]), if_neg hne']
    cases hosts.file (text.map UInt16.toNat) with
    | none => exact Or.inl rfl
    | some host => exact Or.inr ⟨_, rfl⟩

/-- Nothing but a slash, at most, stands behind the host. -/
def HasNoPath (url : UrlRecord α) : Prop := url.path = .segments [] ∨ url.path = .segments [[]]

theorem HasNoPath.pathname {url : UrlRecord α} (h : HasNoPath url) :
    url.path.pathname = [] ∨ url.path.pathname = [slash] := by
  rcases h with h | h <;> rw [h]
  · exact Or.inl rfl
  · exact Or.inr rfl

theorem pathStartEnd_hasNoPath (front : Front α) : HasNoPath (pathStartEnd front) := by
  unfold HasNoPath pathStartEnd
  split
  · right
    rw [pathEnd, closeSegment, if_neg (by decide), if_neg (by decide), if_neg (by rintro ⟨-, -, h⟩; cases h)]
    rfl
  · exact Or.inl rfl

theorem HostRead.finish {text : JsString} {state : State α} (h : HostRead text state) (hne : text ≠ [])
    (hdrive : isDriveSegment text = false) {url : UrlRecord α} (hurl : Url.finish hosts state = some url) :
    HasNoPath url := by
  cases h with
  | authority scheme =>
    obtain ⟨authority, -, rfl⟩ := Option.map_eq_some_iff.mp hurl
    exact pathStartEnd_hasNoPath _
  | file =>
    have hne' : text.map UInt16.toNat ≠ [] := fun h => hne (List.map_eq_nil_iff.mp h)
    rw [isDriveSegment] at hdrive
    rw [Url.finish, if_neg (by simp [hdrive]), if_neg hne'] at hurl
    obtain ⟨host, -, rfl⟩ := Option.map_eq_some_iff.mp hurl
    exact pathStartEnd_hasNoPath _

theorem AwaitsHost.finish {state : State α} (h : AwaitsHost state) {url : UrlRecord α}
    (hurl : Url.finish hosts state = some url) : HasNoPath url := by
  cases h with
  | authority | special =>
    obtain ⟨authority, -, rfl⟩ := Option.map_eq_some_iff.mp hurl
    exact pathStartEnd_hasNoPath _
  | file =>
    cases hurl
    exact pathStartEnd_hasNoPath _

theorem foldl_failure (cps : List Nat) : cps.foldl (step hosts) .failure = .failure := by
  induction cps with
  | nil => rfl
  | cons cp cps ih => exact ih

/-- Where a host stands next, the first name is read for it and is not in the path. -/
theorem AwaitsHost.swallows {state : State α} (h : AwaitsHost state) {text : JsString} {texts : List JsString}
    (hnames : ∀ name ∈ text :: texts, PlainName name) (hne : text ≠ []) {url : UrlRecord α}
    (hurl : Url.finish hosts (((joinSlash (text :: texts)).map UInt16.toNat).foldl (step hosts) state) = some url) :
    (texts = [] ∧ HasNoPath url) ∨ (texts ≠ [] ∧ url.path = .segments (withoutDots texts)) := by
  have htext := hnames text List.mem_cons_self
  have hread := h.read hosts htext.plain hne
  cases texts with
  | nil =>
    rw [joinSlash_singleton] at hurl
    exact Or.inl ⟨rfl, hread.finish hosts hne htext.not_drive hurl⟩
  | cons next texts =>
    have hrest : ∀ name ∈ next :: texts, PlainName name := fun name hn => hnames name (List.mem_cons_of_mem text hn)
    rw [joinSlash_cons, List.map_append, List.foldl_append, List.map_cons, List.foldl_cons] at hurl
    rcases hread.step_slash hosts hne htext.not_drive with hstep | ⟨front, hstep⟩
    · rw [hstep, foldl_failure] at hurl
      cases hurl
    · rw [hstep, finish_path hosts front [] (List.cons_ne_nil _ _) (fun name hn => (hrest name hn).plain),
        resolve_eq front [] hrest, List.nil_append] at hurl
      cases hurl
      exact Or.inr ⟨List.cons_ne_nil _ _, rfl⟩

theorem foldl_query (front : Front α) (path : UrlPath) (text : JsString) {s : JsString} (h : JoinedText s) :
    ∃ text', (s.map UInt16.toNat).foldl (step hosts) (.query front path text) = .query front path text' := by
  induction s generalizing text with
  | nil => exact ⟨text, rfl⟩
  | cons c s ih =>
    have hhash : c.toNat ≠ 0x23 := by
      rcases h c List.mem_cons_self with rfl | hplain
      · decide
      · exact (isPlain_spec hplain).2.2.2.2.1
    have hstep : step hosts (.query front path text) c.toNat =
        .query front path (text ++ percentEncode (inQuerySet (isSpecial front.scheme)) c.toNat) := if_neg hhash
    obtain ⟨text', htext'⟩ := ih (text ++ percentEncode (inQuerySet (isSpecial front.scheme)) c.toNat)
      (fun d hd => h d (List.mem_cons_of_mem c hd))
    exact ⟨text', by rw [List.map_cons, List.foldl_cons, hstep, htext']⟩

theorem foldl_fragment (front : Front α) (path : UrlPath) (query : Option JsString) (text : JsString)
    (cps : List Nat) : ∃ text', cps.foldl (step hosts) (.fragment front path query text) =
      .fragment front path query text' := by
  induction cps generalizing text with
  | nil => exact ⟨text, rfl⟩
  | cons cp cps ih => exact ih _

/-- In a path the texts are read one by one behind what it already has. -/
theorem parse_resolved {base : JsString} {text : JsString} {texts : List JsString}
    (hplain : ∀ t ∈ text :: texts, PlainText t) (hne : text ≠ [])
    (hplace : place (stateAfter hosts (base ++ [slash])) = .path) : ∃ front segments,
    parse hosts (base ++ [slash]) = some ⟨front, .segments (segments ++ [[]]), none, none⟩ ∧
    parse hosts (base ++ slash :: joinSlash (text :: texts)) =
      some ⟨front, .segments (resolve front segments (text :: texts)), none, none⟩ := by
  obtain ⟨hbehind, hafter⟩ := stateAfter_behind_slash hosts base
  obtain ⟨⟨front, segments⟩, hbegun⟩ : ∃ read, begun hosts (stateAfter hosts (base ++ [slash])) = some read := by
    revert hplace
    cases stateAfter hosts (base ++ [slash]) <;> intro hplace <;> first | exact ⟨_, rfl⟩ | cases hplace
  refine ⟨front, segments, ?_, ?_⟩
  · rw [parse, finish_begun hosts hbehind hbegun]
  · have hjoin : ∃ rest, (joinSlash (text :: texts)).map UInt16.toNat = text.map UInt16.toNat ++ rest := by
      cases texts with
      | nil => exact ⟨[], by rw [joinSlash_singleton, List.append_nil]⟩
      | cons next texts => exact ⟨_, by rw [joinSlash_cons, List.map_append]⟩
    obtain ⟨rest, hrest⟩ := hjoin
    rw [parse, hafter _ (joinSlash_joined hplain), hrest,
      foldl_begun hosts hbehind hbegun (hplain text List.mem_cons_self) hne, ← hrest,
      finish_path hosts front segments (List.cons_ne_nil _ _) hplain]

/-! The two URLs, with and without the names. -/

section Results
variable {base : JsString} {text : JsString} {texts : List JsString}
  (hnames : ∀ name ∈ text :: texts, PlainName name) (hne : text ≠ [])
include hnames

theorem joined_of_names : JoinedText (joinSlash (text :: texts)) :=
  joinSlash_joined (fun name hn => (hnames name hn).plain)

include hne

/-- In a path the names follow what it already has, but for the single dots. -/
theorem parse_path (hplace : place (stateAfter hosts (base ++ [slash])) = .path) : ∃ front segments,
    parse hosts (base ++ [slash]) = some ⟨front, .segments (segments ++ [[]]), none, none⟩ ∧
    parse hosts (base ++ slash :: joinSlash (text :: texts)) =
      some ⟨front, .segments (segments ++ withoutDots (text :: texts)), none, none⟩ := by
  obtain ⟨front, segments, hfolder, hparses⟩ := parse_resolved hosts (fun name hn => (hnames name hn).plain) hne hplace
  refine ⟨front, segments, hfolder, ?_⟩
  rw [hparses, resolve_eq front segments hnames]

omit hne in
/-- A path that is one text takes the names as they are. -/
theorem parse_opaquePath (hplace : place (stateAfter hosts (base ++ [slash])) = .opaquePath) : ∃ scheme path,
    parse hosts (base ++ [slash]) = some ⟨⟨scheme, none⟩, .opaquePath path, none, none⟩ ∧
    parse hosts (base ++ slash :: joinSlash (text :: texts)) =
      some ⟨⟨scheme, none⟩, .opaquePath (path ++ joinSlash (text :: texts)), none, none⟩ := by
  obtain ⟨-, hafter⟩ := stateAfter_behind_slash hosts base
  obtain ⟨scheme, path, hstate⟩ : ∃ scheme path, stateAfter hosts (base ++ [slash]) = .opaquePath scheme path := by
    revert hplace
    cases stateAfter hosts (base ++ [slash]) <;> intro hplace <;> first | exact ⟨_, _, rfl⟩ | cases hplace
  refine ⟨scheme, path, ?_, ?_⟩
  · rw [parse, hstate]
    rfl
  · rw [parse, hafter _ (joined_of_names hnames), hstate, foldl_opaquePath hosts scheme path (joined_of_names hnames)]
    rfl

/-- Elsewhere there is no URL, the names are in its query or its fragment, or the first of
them is its host. -/
theorem parse_outside (hplace : place (stateAfter hosts (base ++ [slash])) = .outside) {folder url : UrlRecord α}
    (hfolder : parse hosts (base ++ [slash]) = some folder)
    (hurl : parse hosts (base ++ slash :: joinSlash (text :: texts)) = some url) :
    url.query ≠ none ∨ url.fragment ≠ none ∨ HasNoPath folder ∧
      ((texts = [] ∧ HasNoPath url) ∨ (texts ≠ [] ∧ url.path = .segments (withoutDots texts))) := by
  obtain ⟨hbehind, hafter⟩ := stateAfter_behind_slash hosts base
  rw [parse] at hfolder
  rw [parse, hafter _ (joined_of_names hnames)] at hurl
  generalize stateAfter hosts (base ++ [slash]) = state at hbehind hplace hfolder hurl
  cases hbehind with
  | failure =>
    rw [foldl_failure] at hurl
    cases hurl
  | path | pathOrAuthority | fileSlash | opaquePath => cases hplace
  | host h => exact Or.inr (Or.inr ⟨h.finish hosts hfolder, h.swallows hosts hnames hne hurl⟩)
  | query front path query =>
    obtain ⟨query', hquery⟩ := foldl_query hosts front path query (joined_of_names hnames)
    rw [hquery] at hurl
    cases hurl
    exact Or.inl (Option.some_ne_none _)
  | fragment front path query fragment =>
    obtain ⟨fragment', hfragment⟩ := foldl_fragment hosts front path query fragment
      ((joinSlash (text :: texts)).map UInt16.toNat)
    rw [hfragment] at hurl
    cases hurl
    exact Or.inr (Or.inl (Option.some_ne_none _))

end Results

end NestStorageExample.Url
