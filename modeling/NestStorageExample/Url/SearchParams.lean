import NestStorageExample.Url.Parser

/-! The query of a URL as a list of names and values. -/
namespace NestStorageExample.Url
open Text
variable {α : Type}

/-- `+` is a space; an escape is the byte it stands for. -/
def decodeFormText (s : JsString) : JsString := percentDecode (s.map fun u => if u = 0x2B then 0x20 else u)

/-- What stands before the first `=` and behind it. -/
def readPair (piece : JsString) : JsString × JsString :=
  (decodeFormText (piece.takeWhile (· != 0x3D)), decodeFormText ((piece.dropWhile (· != 0x3D)).drop 1))

/-- The pairs of an `application/x-www-form-urlencoded` text. -/
def parseForm (query : JsString) : List (JsString × JsString) :=
  ((query.splitOn 0x26).filter (· ≠ [])).map readPair

/-- `searchParams`; `get` on it is `List.lookup`. -/
def UrlRecord.searchParams (url : UrlRecord α) : List (JsString × JsString) := parseForm (url.query.getD [])

/-- The one value of a name, among other pairs in any order. -/
def Holds (params : List (JsString × JsString)) (name value : JsString) : Prop :=
  (name, value) ∈ params ∧ ∀ other, (name, other) ∈ params → other = value

instance (params : List (JsString × JsString)) (name value : JsString) : Decidable (Holds params name value) :=
  decidable_of_iff ((name, value) ∈ params ∧ ∀ pair ∈ params, pair.1 = name → pair.2 = value) <| by
    refine and_congr_right' ?_
    constructor
    · exact fun h other hother => h _ hother rfl
    · rintro h ⟨name', other⟩ hpair rfl
      exact h other hpair

theorem lookup_eq_none_iff {params : List (JsString × JsString)} {name : JsString} :
    params.lookup name = none ↔ ∀ value, (name, value) ∉ params := by
  rw [List.lookup_eq_none_iff]
  constructor
  · exact fun h value hvalue => bne_iff_ne.mp (h _ hvalue) rfl
  · rintro h ⟨name', value⟩ hpair
    apply bne_iff_ne.mpr
    rintro rfl
    exact h value hpair

theorem mem_of_lookup {params : List (JsString × JsString)} {name value : JsString}
    (h : params.lookup name = some value) : (name, value) ∈ params := by
  obtain ⟨before, after, rfl, -⟩ := List.lookup_eq_some_iff.mp h
  exact List.mem_append_right _ List.mem_cons_self

theorem Holds.lookup {params : List (JsString × JsString)} {name value : JsString} (h : Holds params name value) :
    params.lookup name = some value := by
  cases hlookup : params.lookup name with
  | none => exact absurd h.1 (lookup_eq_none_iff.mp hlookup value)
  | some other => rw [h.2 other (mem_of_lookup hlookup)]

end NestStorageExample.Url
