import NestStorageExample.Url.Appending

/-! What stands behind a question mark has no part in the origin of a URL nor in its path. -/
namespace NestStorageExample.Url
open Text
variable {α : Type}

/-- The origin of a scheme with hosts; any other origin is opaque. -/
def tupleOrigin (hostText : α → JsString) (front : Front α) : JsString :=
  if [js "ftp", js "http", js "https", js "ws", js "wss"].contains front.scheme then
    front.scheme ++ js "://" ++ front.authority.elim [] hostText
  else js "null"

variable (hosts : Hosts α)

/-- `origin`; that of a blob is found in its path. `hostText` writes a host with its port. -/
def origin (hostText : α → JsString) (front : Front α) (path : UrlPath) : JsString :=
  if front.scheme = js "blob" then
    match parse hosts path.pathname with
    | some url =>
      if url.front.scheme = js "http" ∨ url.front.scheme = js "https" then tupleOrigin hostText url.front
      else js "null"
    | none => js "null"
  else tupleOrigin hostText front

/-- The front and the path of a state that no further text changes, none for a failure. -/
def kept : State α → Option (Option (Front α × UrlPath))
  | .failure => some none
  | .query front path _ => some (some (front, path))
  | .fragment front path _ _ => some (some (front, path))
  | _ => none

theorem kept_step {state : State α} {place : Option (Front α × UrlPath)} (h : kept state = some place) (c : Nat) :
    kept (step hosts state c) = some place := by
  cases state with
  | failure => exact h
  | query front path text =>
    rw [step]
    split
    · exact h
    · exact h
  | fragment front path query text => exact h
  | _ => cases h

theorem kept_foldl {state : State α} {place : Option (Front α × UrlPath)} (h : kept state = some place)
    (cps : List Nat) : kept (cps.foldl (step hosts) state) = some place := by
  induction cps generalizing state with
  | nil => exact h
  | cons c cps ih => exact ih (kept_step hosts h c)

theorem kept_finish {state : State α} {place : Option (Front α × UrlPath)} (h : kept state = some place) :
    (finish hosts state).map (fun url => (url.front, url.path)) = place := by
  cases state with
  | failure | query | fragment =>
    cases h
    rfl
  | _ => cases h

theorem pathStep_question (front : Front α) (segments : List JsString) (buffer : JsString) :
    pathStep front segments buffer 0x3F = .query front (.segments (closeSegment front segments buffer false)) [] := by
  cases hspecial : isSpecial front.scheme <;> simp [pathStep, isSeparator, endsPath, leavePath, hspecial]

theorem pathStartStep_question (front : Front α) :
    ∃ path, pathStartStep front 0x3F = .query front path [] := by
  cases hspecial : isSpecial front.scheme with
  | false => exact ⟨.segments [], by simp [pathStartStep, isSeparator, endsPath, leavePath, hspecial]⟩
  | true => exact ⟨_, by rw [← pathStep_question front [] []]; simp [pathStartStep, isSeparator, hspecial]⟩

theorem authorityStep_question (scheme : JsString) (buffer : List Nat) :
    ∃ place, kept (authorityStep hosts scheme buffer 0x3F) = some place := by
  rw [authorityStep, if_pos (by simp [endsPath])]
  split
  · exact ⟨none, rfl⟩
  · rename_i authority _
    obtain ⟨path, hpath⟩ := pathStartStep_question (⟨scheme, some authority⟩ : Front α)
    exact ⟨_, by rw [hpath]; rfl⟩

theorem fileHostStep_question (buffer : List Nat) : ∃ place, kept (fileHostStep hosts buffer 0x3F) = some place := by
  rw [fileHostStep, if_pos (by simp [endsPath])]
  split
  · exact ⟨_, by rw [pathStep_question]; rfl⟩
  · split
    · obtain ⟨path, hpath⟩ := pathStartStep_question (fileFront hosts)
      exact ⟨_, by rw [hpath]; rfl⟩
    · split
      · exact ⟨none, rfl⟩
      · rename_i host _
        obtain ⟨path, hpath⟩ := pathStartStep_question (⟨js "file", some host⟩ : Front α)
        exact ⟨_, by rw [hpath]; rfl⟩

/-- A question mark ends whatever stands before a query. -/
theorem step_question (state : State α) : ∃ place, kept (step hosts state 0x3F) = some place := by
  cases state with
  | failure => exact ⟨none, rfl⟩
  | schemeStart => exact ⟨none, rfl⟩
  | scheme buffer => exact ⟨none, rfl⟩
  | afterScheme scheme => exact ⟨_, rfl⟩
  | pathOrAuthority scheme => exact ⟨_, by rw [step, if_neg (by decide), pathStep_question]; rfl⟩
  | specialAuthoritySlashes scheme => exact authorityStep_question hosts scheme []
  | authority scheme buffer => exact authorityStep_question hosts scheme buffer
  | file => exact ⟨_, by rw [step, if_neg (by decide), pathStep_question]; rfl⟩
  | fileSlash => exact ⟨_, by rw [step, if_neg (by decide), pathStep_question]; rfl⟩
  | fileHost buffer => exact fileHostStep_question hosts buffer
  | path front segments buffer => exact ⟨_, by rw [step, pathStep_question]; rfl⟩
  | opaquePath scheme text => exact ⟨_, rfl⟩
  | query front path text => exact ⟨_, rfl⟩
  | fragment front path query text => exact ⟨_, rfl⟩

theorem rdropWhile_append_cons {p : Nat → Bool} {a : Nat} (ha : p a = false) (front rest : List Nat) :
    (front ++ a :: rest).rdropWhile p = front ++ a :: rest.rdropWhile p := by
  rw [List.rdropWhile, List.reverse_append, List.reverse_cons, List.append_assoc, List.singleton_append,
    dropWhile_append_cons ha, List.reverse_append, List.reverse_cons, List.reverse_reverse, List.append_assoc]
  rfl

theorem input_append_question (s : JsString) : ∃ front : List Nat, ∀ rest, ∃ cps,
    input (s ++ 0x3F :: rest) = front ++ 0x3F :: cps := by
  let scalar := fun cp => if IsSurrogate cp then replacement else cp
  refine ⟨(((codePoints s).map scalar).dropWhile isC0OrSpace).filter (fun cp => !isTabOrNewline cp), ?_⟩
  intro rest
  have hscalar : (codePoints (s ++ 0x3F :: rest)).map scalar =
      (codePoints s).map scalar ++ 0x3F :: (codePoints rest).map scalar := by
    rw [codePoints_append_ascii (by decide), List.map_append, List.map_cons]
    rfl
  refine ⟨(((codePoints rest).map scalar).rdropWhile isC0OrSpace).filter (fun cp => !isTabOrNewline cp), ?_⟩
  rw [input, hscalar, dropWhile_append_cons (by decide), rdropWhile_append_cons (by decide), List.filter_append,
    List.filter_cons_of_pos (by decide)]

/-- Whether a text with a question mark is a URL is decided in front of it, and so are the
front and the path of that URL. -/
theorem parse_behind_question (s : JsString) : ∃ place, ∀ rest,
    (parse hosts (s ++ 0x3F :: rest)).map (fun url => (url.front, url.path)) = place := by
  obtain ⟨front, hfront⟩ := input_append_question s
  obtain ⟨place, hplace⟩ := step_question hosts (front.foldl (step hosts) .schemeStart)
  refine ⟨place, fun rest => ?_⟩
  obtain ⟨cps, hcps⟩ := hfront rest
  rw [parse, stateAfter, hcps, List.foldl_append, List.foldl_cons]
  exact kept_finish hosts (kept_foldl hosts hplace cps)

end NestStorageExample.Url
