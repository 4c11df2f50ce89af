import NestStorageExample.Validation.Schema

/-! The inputs in which a schema finds nothing to report. -/
namespace NestStorageExample.Validation
open Text

def Schema.Accepts (schema : Schema) (value : Option Json) : Prop := (schema.run value).issues = []

def Shape.Accepts (shape : Shape) (entries : List (JsString × Json)) : Prop := shape.issues entries = []

theorem accepts_leaf_iff (check : Option Json → LeafOutcome) (value : Option Json) :
    (Schema.leaf check).Accepts value ↔ (check value).issues = [] := by
  rw [Schema.Accepts, Schema.run, LeafOutcome.report, List.map_eq_nil_iff]

theorem accepts_optional_iff (inner : Schema) (value : Option Json) :
    (Schema.optional inner).Accepts value ↔ value = none ∨ inner.Accepts value := by
  cases value with
  | none => exact iff_of_true rfl (Or.inl rfl)
  | some value => exact (or_iff_right (Option.some_ne_none value)).symm

theorem accepts_default_iff (fallback : Json) (inner : Schema) (value : Option Json) :
    (Schema.default fallback inner).Accepts value ↔ value = none ∨ inner.Accepts value := by
  cases value with
  | none => exact iff_of_true rfl (Or.inl rfl)
  | some value => exact (or_iff_right (Option.some_ne_none value)).symm

theorem accepts_object_iff (shape : Shape) (value : Option Json) :
    (Schema.object shape).Accepts value ↔ ∃ entries, value = some (.object entries) ∧ shape.Accepts entries := by
  rw [Schema.Accepts, Schema.run]
  cases hvalue : asObject value with
  | none =>
    refine iff_of_false (fun h => List.cons_ne_nil _ _ h) ?_
    rintro ⟨entries, rfl, -⟩
    cases hvalue
  | some entries =>
    have heq : value = some (.object entries) := by
      unfold asObject at hvalue
      split at hvalue
      · rw [Option.some.inj hvalue]
      · cases hvalue
    rw [heq]
    constructor
    · exact fun h => ⟨entries, rfl, h⟩
    · rintro ⟨_, ⟨rfl⟩, h⟩
      exact h

theorem accepts_entries_iff (shape : Shape) (entries : List (JsString × Json)) :
    (Schema.object shape).Accepts (some (.object entries)) ↔ shape.Accepts entries := Iff.rfl

theorem Shape.accepts_nil (entries : List (JsString × Json)) : Shape.nil.Accepts entries := rfl

theorem Shape.accepts_field_iff (name : JsString) (schema : Schema) (rest : Shape)
    (entries : List (JsString × Json)) : (Shape.field name schema rest).Accepts entries ↔
      schema.Accepts (Json.lookup name entries) ∧ rest.Accepts entries := by
  rw [Shape.Accepts, Shape.issues, List.append_eq_nil_iff, List.map_eq_nil_iff]
  exact Iff.rfl

theorem Shape.accepts_extend_iff (shape more : Shape) (entries : List (JsString × Json)) :
    (shape.extend more).Accepts entries ↔ shape.Accepts entries ∧ more.Accepts entries := by
  cases shape with
  | nil => exact (and_iff_right rfl).symm
  | field name schema rest =>
    rw [Shape.extend, Shape.accepts_field_iff, Shape.accepts_field_iff, accepts_extend_iff rest more, and_assoc]

theorem lookup_cons_self (name : JsString) (value : Json) (entries : List (JsString × Json)) :
    Json.lookup name ((name, value) :: entries) = some value := by
  rw [Json.lookup, List.find?_cons_of_pos (by simp), Option.map_some]

theorem lookup_cons_of_ne {name other : JsString} (h : other ≠ name) (value : Json)
    (entries : List (JsString × Json)) : Json.lookup name ((other, value) :: entries) = Json.lookup name entries := by
  rw [Json.lookup, List.find?_cons_of_neg (by simpa using h), Json.lookup]

theorem Shape.lookup_values_none {shape : Shape} {name : JsString} (entries : List (JsString × Json))
    (h : name ∉ shape.fields.map Prod.fst) : Json.lookup name (shape.values entries) = none := by
  cases shape with
  | nil => rfl
  | field other schema rest =>
    rw [Shape.fields, List.map_cons, List.mem_cons, not_or] at h
    have hrest := lookup_values_none entries h.2
    rw [Shape.values]
    cases (schema.run (Json.lookup other entries)).value with
    | none => exact hrest
    | some value => rw [lookup_cons_of_ne (Ne.symm h.1), hrest]

/-- A field stands in the parsed object as its own schema parses it. -/
theorem Shape.lookup_values {shape : Shape} {name : JsString} {schema : Schema} (entries : List (JsString × Json))
    (hdistinct : shape.distinctFields = true) (hfield : (name, schema) ∈ shape.fields) :
    Json.lookup name (shape.values entries) = (schema.run (Json.lookup name entries)).value := by
  cases shape with
  | nil => cases hfield
  | field other inner rest =>
    simp only [Shape.distinctFields, Bool.and_eq_true, Bool.not_eq_true', List.contains_eq_mem,
      decide_eq_false_iff_not] at hdistinct
    obtain ⟨⟨hfresh, -⟩, hrest⟩ := hdistinct
    rw [Shape.values]
    rcases List.mem_cons.mp hfield with hfield | hfield
    · cases hfield
      cases (schema.run (Json.lookup name entries)).value with
      | none => exact lookup_values_none entries hfresh
      | some value => exact lookup_cons_self name value _
    · have hne : other ≠ name := by
        rintro rfl
        exact hfresh (List.mem_map_of_mem hfield)
      have hvalue := lookup_values entries hrest hfield
      cases (inner.run (Json.lookup other entries)).value with
      | none => exact hvalue
      | some value => rw [lookup_cons_of_ne hne, hvalue]

end NestStorageExample.Validation
