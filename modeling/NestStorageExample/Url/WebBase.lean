import NestStorageExample.Url.Appending

/-! A base such as a web server has: behind it and a slash the parser is in its path. -/
namespace NestStorageExample.Url
open Text
variable {α : Type} (hosts : Hosts α)

/-- What a state says of its scheme, and that a special URL has a host. -/
def Sound : State α → Prop
  | .afterScheme scheme => isSpecial scheme = false
  | .pathOrAuthority scheme => isSpecial scheme = false
  | .opaquePath scheme _ => isSpecial scheme = false
  | .authority scheme buffer => isSpecial scheme = true → buffer ≠ []
  | .specialAuthoritySlashes scheme => isSpecial scheme = true
  | _ => True

/-- A special URL other than a file, with neither query nor fragment. -/
structure WebUrl (url : UrlRecord α) : Prop where
  special : isSpecial url.front.scheme = true
  not_file : url.front.scheme ≠ js "file"
  no_query : url.query = none
  no_fragment : url.fragment = none

/-- A base that is such a URL, with no blank behind it. -/
structure WebBase (base : JsString) : Prop where
  parsed : ∃ url, parse hosts base = some url ∧ WebUrl url
  last : ∀ c, base.getLast? = some c → 0x20 < c.toNat

theorem sound_leavePath (front : Front α) (path : UrlPath) (c : Nat) : Sound (leavePath front path c) := by
  unfold leavePath
  split <;> trivial

theorem sound_pathStep (front : Front α) (segments : List JsString) (buffer : JsString) (c : Nat) :
    Sound (pathStep front segments buffer c) := by
  unfold pathStep
  split
  · trivial
  · split
    · exact sound_leavePath _ _ c
    · trivial

theorem sound_pathStartStep (front : Front α) (c : Nat) : Sound (pathStartStep front c) := by
  unfold pathStartStep
  split
  · trivial
  · split
    · exact sound_pathStep _ _ _ c
    · split
      · exact sound_leavePath _ _ c
      · exact sound_pathStep _ _ _ c

theorem sound_opaquePathStep {scheme : JsString} (h : isSpecial scheme = false) (text : JsString) (c : Nat) :
    Sound (opaquePathStep (α := α) scheme text c) := by
  unfold opaquePathStep
  split
  · exact sound_leavePath _ _ c
  · exact h

theorem sound_authorityStep (scheme : JsString) (buffer : List Nat) (c : Nat) :
    Sound (authorityStep hosts scheme buffer c) := by
  unfold authorityStep
  split
  · split
    · trivial
    · exact sound_pathStartStep _ c
  · exact fun _ => List.append_ne_nil_of_right_ne_nil _ (List.cons_ne_nil _ _)

theorem sound_fileHostStep (buffer : List Nat) (c : Nat) : Sound (fileHostStep hosts buffer c) := by
  unfold fileHostStep
  split
  · split
    · exact sound_pathStep _ _ _ c
    · split
      · exact sound_pathStartStep _ c
      · split
        · trivial
        · exact sound_pathStartStep _ c
  · trivial

theorem sound_schemeStep (buffer : JsString) (c : Nat) : Sound (schemeStep (α := α) buffer c) := by
  unfold schemeStep
  split
  · trivial
  · split
    · split
      · trivial
      · split
        · assumption
        · rename_i h
          exact Bool.eq_false_iff.mpr h
    · trivial

theorem sound_step {state : State α} (h : Sound state) (c : Nat) : Sound (step hosts state c) := by
  cases state with
  | failure | fragment => trivial
  | schemeStart =>
    rw [step]
    split <;> trivial
  | scheme buffer => exact sound_schemeStep buffer c
  | afterScheme scheme =>
    rw [step]
    split
    · exact h
    · exact sound_opaquePathStep h [] c
  | pathOrAuthority scheme =>
    rw [step]
    split
    · exact fun hspecial => absurd (h.symm.trans hspecial) Bool.false_ne_true
    · exact sound_pathStep _ _ _ c
  | specialAuthoritySlashes scheme =>
    rw [step]
    split
    · exact h
    · exact sound_authorityStep hosts scheme [] c
  | authority scheme buffer => exact sound_authorityStep hosts scheme buffer c
  | file | fileSlash =>
    rw [step]
    split
    · trivial
    · exact sound_pathStep _ _ _ c
  | fileHost buffer => exact sound_fileHostStep hosts buffer c
  | path front segments buffer => exact sound_pathStep front segments buffer c
  | opaquePath scheme text => exact sound_opaquePathStep h text c
  | query =>
    rw [step]
    split <;> trivial

theorem sound_foldl {state : State α} (h : Sound state) (cps : List Nat) : Sound (cps.foldl (step hosts) state) := by
  induction cps generalizing state with
  | nil => exact h
  | cons cp cps ih => exact ih (sound_step hosts h cp)

theorem sound_stateAfter (s : JsString) : Sound (stateAfter hosts s) :=
  sound_foldl hosts (show Sound .schemeStart from trivial) _

/-- A blank at the end of what is parsed is one at the end of the string. -/
theorem getLast_not_blank {s : JsString} (h : ∀ c, s.getLast? = some c → 0x20 < c.toNat)
    (hne : (codePoints s).map (fun cp => if IsSurrogate cp then replacement else cp) ≠ []) :
    isC0OrSpace (((codePoints s).map (fun cp => if IsSurrogate cp then replacement else cp)).getLast hne) = false := by
  have hcps : codePoints s ≠ [] := fun hnil => hne (by rw [hnil, List.map_nil])
  rw [List.getLast_map, isC0OrSpace, decide_eq_false_iff_not]
  have hunits := utf16_codePoints s
  rw [← List.dropLast_append_getLast hcps, List.flatMap_append, List.flatMap_singleton] at hunits
  generalize (codePoints s).getLast hcps = cp at hunits ⊢
  intro hblank
  have hcp : cp ≤ 0x20 := by
    split at hblank
    · exact absurd hblank (by decide)
    · exact hblank
  rw [utf16, if_pos (by omega)] at hunits
  have hlast := h (UInt16.ofNat cp) (by rw [← hunits, List.getLast?_append_of_ne_nil _ (List.cons_ne_nil _ _)]; rfl)
  rw [UInt16.toNat_ofNat_of_lt' (by simp only [UInt16.size]; omega)] at hlast
  omega

/-- Behind a base that ends in no blank the slash is the next code point. -/
theorem stateAfter_slash {s : JsString} (h : ∀ c, s.getLast? = some c → 0x20 < c.toNat) :
    stateAfter hosts (s ++ [slash]) = step hosts (stateAfter hosts s) slash.toNat := by
  let scalar := fun cp => if IsSurrogate cp then replacement else cp
  have hinput : input (s ++ [slash]) = input s ++ [slash.toNat] := by
    have hkept : (((codePoints s).map scalar).dropWhile isC0OrSpace).rdropWhile isC0OrSpace =
        ((codePoints s).map scalar).dropWhile isC0OrSpace := by
      apply List.rdropWhile_eq_self_iff.mpr
      intro hne
      have hsuffix : ((codePoints s).map scalar).dropWhile isC0OrSpace <:+ (codePoints s).map scalar :=
        List.dropWhile_suffix isC0OrSpace
      rw [hsuffix.getLast hne, getLast_not_blank h]
      exact Bool.false_ne_true
    have hslash : ([slash.toNat] : List Nat).map scalar = [slash.toNat] := by decide
    rw [input, codePoints_append_ascii slash_lt, List.map_append, codePoints, hslash, dropWhile_append_cons (by decide),
      rdropWhile_append_of_all (List.cons_ne_nil _ _) (by decide), List.filter_append, input, hkept]
    rfl
  rw [stateAfter, hinput, List.foldl_append]
  rfl

theorem pathStartEnd_front (front : Front α) : (pathStartEnd front).front = front := by
  unfold pathStartEnd
  split <;> rfl

section Special
variable (hempty : hosts.authority true [] = none) {state : State α} (hsound : Sound state) {url : UrlRecord α}
  (hurl : finish hosts state = some url) (hweb : WebUrl url)
include hempty hsound hurl hweb

/-- The states in which the input of such a URL may end. -/
theorem web_states : (∃ scheme buffer authority, state = .authority scheme buffer ∧ isSpecial scheme = true ∧
    hosts.authority (isSpecial scheme) buffer = some authority) ∨
      ∃ front segments buffer, state = .path front segments buffer := by
  obtain ⟨hspecial, hfile, hquery, hfragment⟩ := hweb
  cases state with
  | failure | schemeStart | scheme => cases hurl
  | afterScheme scheme =>
    cases hurl
    exact absurd (hsound.symm.trans hspecial) Bool.false_ne_true
  | pathOrAuthority scheme =>
    cases hurl
    exact absurd (hsound.symm.trans hspecial) Bool.false_ne_true
  | specialAuthoritySlashes scheme =>
    have hscheme : isSpecial scheme = true := hsound
    rw [finish, hscheme, hempty] at hurl
    cases hurl
  | authority scheme buffer =>
    obtain ⟨authority, hauthority, rfl⟩ := Option.map_eq_some_iff.mp hurl
    rw [pathStartEnd_front] at hspecial
    exact Or.inl ⟨scheme, buffer, authority, rfl, hspecial, hauthority⟩
  | file | fileSlash =>
    cases hurl
    exact absurd rfl hfile
  | fileHost buffer =>
    have hfront : url.front.scheme = js "file" := by
      rw [finish] at hurl
      split at hurl
      · cases hurl
        rfl
      · split at hurl
        · cases hurl
          rw [pathStartEnd_front]
          rfl
        · obtain ⟨host, -, rfl⟩ := Option.map_eq_some_iff.mp hurl
          rw [pathStartEnd_front]
    exact absurd hfront hfile
  | path front segments buffer => exact Or.inr ⟨front, segments, buffer, rfl⟩
  | opaquePath scheme text =>
    cases hurl
    exact absurd (hsound.symm.trans hspecial) Bool.false_ne_true
  | query =>
    cases hurl
    cases hquery
  | fragment =>
    cases hurl
    cases hfragment

end Special

/-- Behind a web base and a slash the parser is in the path, whether the base ends with a slash or not. -/
theorem place_webBase (hempty : hosts.authority true [] = none) {base : JsString} (h : WebBase hosts base) :
    place (stateAfter hosts (stripTrailingSlash base ++ [slash])) = .path := by
  obtain ⟨⟨url, hparse, hweb⟩, hlast⟩ := h
  have hstates := web_states hosts hempty (sound_stateAfter hosts base) hparse hweb
  by_cases hslash : base.getLast? = some slash
  · have hbase : stripTrailingSlash base ++ [slash] = base := by
      rw [stripTrailingSlash, if_pos hslash]
      exact List.dropLast_append_getLast? slash hslash
    have hbehind := behindSlash_stateAfter hosts (stripTrailingSlash base)
    rw [hbase] at hbehind ⊢
    rcases hstates with ⟨scheme, buffer, authority, hstate, hspecial, -⟩ | ⟨front, segments, buffer, hstate⟩
    · -- an authority that a slash has just opened is not one of a special URL
      have hsound := sound_stateAfter hosts base
      rw [hstate] at hbehind hsound
      cases hbehind with
      | host h =>
        cases h
        exact absurd rfl (hsound hspecial)
    · rw [hstate]
      rfl
  · rw [stripTrailingSlash, if_neg hslash, stateAfter_slash hosts hlast]
    rcases hstates with ⟨scheme, buffer, authority, hstate, -, hauthority⟩ | ⟨front, segments, buffer, hstate⟩
    · rw [hstate]
      change place (authorityStep hosts scheme buffer slash.toNat) = _
      rw [authorityStep, if_pos (by rfl), hauthority]
      rfl
    · rw [hstate]
      rfl

end NestStorageExample.Url
