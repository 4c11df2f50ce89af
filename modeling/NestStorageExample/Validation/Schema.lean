import NestStorageExample.Text.Json
import Mathlib.Data.List.Basic

/-! Schemas over JSON values and the issues they report. An issue stands at a path into the
value; the one kind of step that a path takes from the value itself is a record's entry. -/
namespace NestStorageExample.Validation
open Text

/-- A step into a value: to a field of an object, an item of an array, or an entry of a record,
which has a name of its own and a place among the entries. -/
inductive Step where
  | field (name : JsString)
  | item (index : Nat)
  | entry (index : Nat) (name : JsString)
  deriving DecidableEq

/-- A segment of a reported path. -/
inductive Segment where
  | key (name : JsString)
  | index (index : Nat)
  deriving DecidableEq

namespace Step

/-- What the report shows of a step. -/
def segment : Step → Segment
  | field name => .key name
  | item index => .index index
  | entry _ name => .key name

/-- The step without the name of an entry. -/
def place : Step → Step
  | entry index _ => entry index []
  | step => step

def entryName : Step → Option JsString
  | entry _ name => some name
  | _ => none

end Step

structure SchemaIssue where
  path : List Step
  message : String
  /-- whether refinements of the value as a whole are skipped -/
  aborts : Bool
  deriving DecidableEq

def SchemaIssue.under (step : Step) (issue : SchemaIssue) : SchemaIssue := { issue with path := step :: issue.path }

/-- A check of a value as a whole: what it is parsed to, and its messages. -/
structure LeafOutcome where
  value : Option Json
  issues : List (String × Bool)

structure Outcome where
  value : Option Json
  issues : List SchemaIssue

/-- A check that follows the parse of a composite value. -/
structure Refinement (α : Type) where
  holds : α → Bool
  message : String

mutual

/-- `undefined` is `none` throughout. -/
inductive Schema where
  | leaf (check : Option Json → LeafOutcome)
  | optional (inner : Schema)
  | default (value : Json) (inner : Schema)
  | transform (f : Option Json → Option Json) (inner : Schema)
  | array (item : Schema) (lengths : List (Refinement (List Json)))
  | record (acceptsName : JsString → Bool) (check : Option Json → LeafOutcome)
      (refinements : List (Refinement (List (JsString × Json))))
  | object (shape : Shape)

inductive Shape where
  | nil
  | field (name : JsString) (schema : Schema) (rest : Shape)

end

def asArray : Option Json → Option (List Json)
  | some (.array items) => some items
  | _ => none

def asObject : Option Json → Option (List (JsString × Json))
  | some (.object entries) => some entries
  | _ => none

/-- The type a message names as received. -/
def typeName : Option Json → String
  | none => "undefined"
  | some .null => "null"
  | some (.bool _) => "boolean"
  | some (.number .nan) => "NaN"
  | some (.number _) => "number"
  | some (.string _) => "string"
  | some (.array _) => "array"
  | some (.object _) => "object"

def typeMessage (expected : String) (received : Option Json) : String :=
  "Invalid input: expected " ++ expected ++ ", received " ++ typeName received

def typeError (expected : String) (received : Option Json) : LeafOutcome :=
  ⟨received, [(typeMessage expected received, true)]⟩

def LeafOutcome.report (outcome : LeafOutcome) : List SchemaIssue :=
  outcome.issues.map (fun issue => ⟨[], issue.1, issue.2⟩)

/-- The failed checks among those on the value as a whole. -/
def refine {α : Type} (checks : List (Refinement α)) (a : α) : List SchemaIssue :=
  (checks.filter (fun check => !check.holds a)).map (fun check => ⟨[], check.message, false⟩)

/-- The entries of a record; an own `__proto__` is passed over. -/
def recordEntries (entries : List (JsString × Json)) : List (JsString × Json) :=
  entries.filter (fun entry => entry.1 ≠ js "__proto__")

section Record
variable (acceptsName : JsString → Bool) (check : Option Json → LeafOutcome)

/-- An entry under a name that is not accepted is not looked into. -/
def entryIssues (index : Nat) (entry : JsString × Json) : List SchemaIssue :=
  if acceptsName entry.1 then
    (check (some entry.2)).report.map (SchemaIssue.under (.entry index entry.1))
  else [⟨[.entry index entry.1], "Invalid key in record", true⟩]

def recordIssues (entries : List (JsString × Json)) : List SchemaIssue :=
  entries.zipIdx.flatMap (fun indexed => entryIssues acceptsName check indexed.2 indexed.1)

/-- The entries under accepted names, as they are parsed. -/
def parsedEntries (entries : List (JsString × Json)) : List (JsString × Json) :=
  (entries.filter (fun entry => acceptsName entry.1)).filterMap
    (fun entry => (check (some entry.2)).value.map (fun value => (entry.1, value)))

end Record

mutual

def Schema.run : Schema → Option Json → Outcome
  | .leaf check, value => ⟨(check value).value, (check value).report⟩
  | .optional inner, value => if value.isNone then ⟨none, []⟩ else inner.run value
  | .default fallback inner, value => if value.isNone then ⟨some fallback, []⟩ else inner.run value
  | .transform f inner, value =>
    let outcome := inner.run value
    if outcome.issues.isEmpty then ⟨f outcome.value, []⟩ else outcome
  | .array item lengths, value =>
    match asArray value with
    | some items =>
      let outcomes := items.map (fun element => item.run (some element))
      ⟨some (.array (outcomes.filterMap Outcome.value)),
        outcomes.zipIdx.flatMap (fun indexed => indexed.1.issues.map (SchemaIssue.under (.item indexed.2))) ++
          refine lengths items⟩
    | none => ⟨value, (typeError "array" value).report⟩
  | .record acceptsName check refinements, value =>
    match asObject value with
    | some entries =>
      let parsed := parsedEntries acceptsName check (recordEntries entries)
      let issues := recordIssues acceptsName check (recordEntries entries)
      ⟨some (.object parsed), issues ++ if issues.any SchemaIssue.aborts then [] else refine refinements parsed⟩
    | none => ⟨value, (typeError "record" value).report⟩
  | .object shape, value =>
    match asObject value with
    | some entries => ⟨some (.object (shape.values entries)), shape.issues entries⟩
    | none => ⟨value, (typeError "object" value).report⟩

/-- The declared fields as they are parsed; fields that are not declared are dropped. -/
def Shape.values : Shape → List (JsString × Json) → List (JsString × Json)
  | .nil, _ => []
  | .field name schema rest, entries =>
    match (schema.run (Json.lookup name entries)).value with
    | some value => (name, value) :: rest.values entries
    | none => rest.values entries

def Shape.issues : Shape → List (JsString × Json) → List SchemaIssue
  | .nil, _ => []
  | .field name schema rest, entries =>
    (schema.run (Json.lookup name entries)).issues.map (SchemaIssue.under (.field name)) ++ rest.issues entries

end

def Shape.fields : Shape → List (JsString × Schema)
  | .nil => []
  | .field name schema rest => (name, schema) :: rest.fields

/-- `.extend` by fields of other names. -/
def Shape.extend : Shape → Shape → Shape
  | .nil, more => more
  | .field name schema rest, more => .field name schema (rest.extend more)

mutual

/-- A path that the schema spells out: names of declared fields, and indices of arrays. The
entries of a record have no declared names. -/
def Schema.Declares : Schema → List Segment → Prop
  | .leaf _, path => path = []
  | .optional inner, path => inner.Declares path
  | .default _ inner, path => inner.Declares path
  | .transform _ inner, path => inner.Declares path
  | .array item _, path =>
    match path with
    | [] => True
    | .index _ :: rest => item.Declares rest
    | .key _ :: _ => False
  | .record _ _ _, path => path = []
  | .object shape, path =>
    match path with
    | [] => True
    | .key name :: rest => shape.Declares name rest
    | .index _ :: _ => False

def Shape.Declares : Shape → JsString → List Segment → Prop
  | .nil, _, _ => False
  | .field name schema rest, key, path => if name = key then schema.Declares path else rest.Declares key path

end

mutual

/-- No object of the schema declares a field twice. -/
def Schema.distinctFields : Schema → Bool
  | .leaf _ => true
  | .optional inner => inner.distinctFields
  | .default _ inner => inner.distinctFields
  | .transform _ inner => inner.distinctFields
  | .array item _ => item.distinctFields
  | .record _ _ _ => true
  | .object shape => shape.distinctFields

def Shape.distinctFields : Shape → Bool
  | .nil => true
  | .field name schema rest =>
    !(rest.fields.map Prod.fst).contains name && schema.distinctFields && rest.distinctFields

end

/-- The names of the entries that fail, one for each check they fail. -/
def failingEntries (acceptsName : JsString → Bool) (check : Option Json → LeafOutcome)
    (entries : List (JsString × Json)) : List JsString :=
  entries.flatMap fun entry =>
    if acceptsName entry.1 then (check (some entry.2)).issues.map (fun _ => entry.1) else [entry.1]

mutual

/-- The names of the entries that fail in a value, in whatever record of the schema they stand. -/
def Schema.failingNames : Schema → Option Json → List JsString
  | .leaf _, _ => []
  | .optional inner, value => if value.isNone then [] else inner.failingNames value
  | .default _ inner, value => if value.isNone then [] else inner.failingNames value
  | .transform _ inner, value => inner.failingNames value
  | .array item _, value =>
    match asArray value with
    | some items => items.flatMap (fun element => item.failingNames (some element))
    | none => []
  | .record acceptsName check _, value =>
    match asObject value with
    | some entries => failingEntries acceptsName check (recordEntries entries)
    | none => []
  | .object shape, value =>
    match asObject value with
    | some entries => shape.failingNames entries
    | none => []

def Shape.failingNames : Shape → List (JsString × Json) → List JsString
  | .nil, _ => []
  | .field name schema rest, entries =>
    schema.failingNames (Json.lookup name entries) ++ rest.failingNames entries

end

mutual

def Schema.recordFree : Schema → Bool
  | .leaf _ => true
  | .optional inner => inner.recordFree
  | .default _ inner => inner.recordFree
  | .transform _ inner => inner.recordFree
  | .array item _ => item.recordFree
  | .record _ _ _ => false
  | .object shape => shape.recordFree

def Shape.recordFree : Shape → Bool
  | .nil => true
  | .field _ schema rest => schema.recordFree && rest.recordFree

end

/-- The paths a schema can report an issue at. -/
inductive Schema.Reports : Schema → List Step → Prop where
  | here (schema : Schema) : schema.Reports []
  | optional {inner : Schema} {path : List Step} : inner.Reports path → (Schema.optional inner).Reports path
  | default {inner : Schema} {path : List Step} (fallback : Json) :
      inner.Reports path → (Schema.default fallback inner).Reports path
  | transform {inner : Schema} {path : List Step} (f : Option Json → Option Json) :
      inner.Reports path → (Schema.transform f inner).Reports path
  | item {element : Schema} {path : List Step} (lengths : List (Refinement (List Json))) (index : Nat) :
      element.Reports path → (Schema.array element lengths).Reports (.item index :: path)
  | entry (acceptsName : JsString → Bool) (check : Option Json → LeafOutcome)
      (refinements : List (Refinement (List (JsString × Json)))) (index : Nat) (name : JsString) :
      (Schema.record acceptsName check refinements).Reports [.entry index name]
  | field {shape : Shape} {name : JsString} {schema : Schema} {path : List Step} :
      (name, schema) ∈ shape.fields → schema.Reports path → (Schema.object shape).Reports (.field name :: path)

section Paths

theorem report_path {outcome : LeafOutcome} {issue : SchemaIssue} (h : issue ∈ outcome.report) : issue.path = [] := by
  obtain ⟨_, -, rfl⟩ := List.mem_map.mp h
  rfl

theorem refine_path {α : Type} {checks : List (Refinement α)} {a : α} {issue : SchemaIssue}
    (h : issue ∈ refine checks a) : issue.path = [] := by
  obtain ⟨_, -, rfl⟩ := List.mem_map.mp h
  rfl

theorem entryIssues_path {acceptsName : JsString → Bool} {check : Option Json → LeafOutcome} {index : Nat}
    {entry : JsString × Json} {issue : SchemaIssue} (h : issue ∈ entryIssues acceptsName check index entry) :
    issue.path = [.entry index entry.1] := by
  unfold entryIssues at h
  split at h
  · obtain ⟨inner, hinner, rfl⟩ := List.mem_map.mp h
    rw [SchemaIssue.under, report_path hinner]
  · rw [List.mem_singleton.mp h]

mutual

theorem Schema.reports_of_mem (schema : Schema) (value : Option Json) {issue : SchemaIssue}
    (h : issue ∈ (schema.run value).issues) : schema.Reports issue.path := by
  match schema with
  | .leaf check =>
    rw [report_path h]
    exact .here _
  | .optional inner =>
    rw [Schema.run] at h
    split at h
    · cases h
    · exact .optional (inner.reports_of_mem value h)
  | .default fallback inner =>
    rw [Schema.run] at h
    split at h
    · cases h
    · exact .default fallback (inner.reports_of_mem value h)
  | .transform f inner =>
    rw [Schema.run] at h
    split at h
    · cases h
    · exact .transform f (inner.reports_of_mem value h)
  | .array item lengths =>
    rw [Schema.run] at h
    split at h
    · rcases List.mem_append.mp h with h | h
      · obtain ⟨⟨outcome, index⟩, houtcome, h⟩ := List.mem_flatMap.mp h
        obtain ⟨inner, hinner, rfl⟩ := List.mem_map.mp h
        obtain ⟨element, -, rfl⟩ := List.mem_map.mp (List.fst_mem_of_mem_zipIdx houtcome)
        exact .item lengths index (item.reports_of_mem (some element) hinner)
      · rw [refine_path h]
        exact .here _
    · rw [report_path h]
      exact .here _
  | .record acceptsName check refinements =>
    rw [Schema.run] at h
    split at h
    · rcases List.mem_append.mp h with h | h
      · obtain ⟨⟨entry, index⟩, -, h⟩ := List.mem_flatMap.mp h
        rw [entryIssues_path h]
        exact .entry acceptsName check refinements index entry.1
      · split at h
        · cases h
        · rw [refine_path h]
          exact .here _
    · rw [report_path h]
      exact .here _
  | .object shape =>
    rw [Schema.run] at h
    split at h
    · rename_i entries _
      obtain ⟨name, inner, path, hfield, hpath, hreports⟩ := shape.reports_of_mem entries h
      rw [hpath]
      exact .field hfield hreports
    · rw [report_path h]
      exact .here _

theorem Shape.reports_of_mem (shape : Shape) (entries : List (JsString × Json)) {issue : SchemaIssue}
    (h : issue ∈ shape.issues entries) : ∃ name schema path, (name, schema) ∈ shape.fields ∧
      issue.path = .field name :: path ∧ schema.Reports path := by
  match shape with
  | .nil => cases h
  | .field name schema rest =>
    rw [Shape.issues] at h
    rcases List.mem_append.mp h with h | h
    · obtain ⟨inner, hinner, rfl⟩ := List.mem_map.mp h
      exact ⟨name, schema, inner.path, List.mem_cons_self, rfl, schema.reports_of_mem _ hinner⟩
    · obtain ⟨other, inner, path, hfield, hrest⟩ := rest.reports_of_mem entries h
      exact ⟨other, inner, path, List.mem_cons_of_mem _ hfield, hrest⟩

end

theorem Shape.declares_iff {shape : Shape} {name : JsString} {schema : Schema} (path : List Segment)
    (hdistinct : shape.distinctFields = true) (hfield : (name, schema) ∈ shape.fields) :
    shape.Declares name path ↔ schema.Declares path := by
  match shape with
  | .nil => cases hfield
  | .field other inner rest =>
    simp only [Shape.distinctFields, Bool.and_eq_true, Bool.not_eq_true', List.contains_eq_mem,
      decide_eq_false_iff_not] at hdistinct
    rw [Shape.Declares]
    rcases List.mem_cons.mp hfield with hfield | hfield
    · cases hfield
      rw [if_pos rfl]
    · have hne : other ≠ name := by
        rintro rfl
        exact hdistinct.1.1 (List.mem_map_of_mem hfield)
      rw [if_neg hne]
      exact Shape.declares_iff path hdistinct.2 hfield

theorem Shape.distinctFields_field {shape : Shape} {name : JsString} {schema : Schema}
    (hdistinct : shape.distinctFields = true) (hfield : (name, schema) ∈ shape.fields) :
    schema.distinctFields = true := by
  match shape with
  | .nil => cases hfield
  | .field other inner rest =>
    simp only [Shape.distinctFields, Bool.and_eq_true] at hdistinct
    rcases List.mem_cons.mp hfield with hfield | hfield
    · cases hfield
      exact hdistinct.1.2
    · exact Shape.distinctFields_field hdistinct.2 hfield

theorem declares_nil (schema : Schema) : schema.Declares [] := by
  match schema with
  | .leaf _ => rfl
  | .optional inner => exact declares_nil inner
  | .default _ inner => exact declares_nil inner
  | .transform _ inner => exact declares_nil inner
  | .array _ _ => trivial
  | .record _ _ _ => rfl
  | .object _ => trivial

/-- The entry that a path goes to. -/
def blamed (path : List Step) : Option JsString := path.findSome? Step.entryName

@[simp] theorem blamed_field (name : JsString) (path : List Step) : blamed (.field name :: path) = blamed path := rfl

@[simp] theorem blamed_item (index : Nat) (path : List Step) : blamed (.item index :: path) = blamed path := rfl

@[simp] theorem blamed_entry (index : Nat) (name : JsString) (path : List Step) :
    blamed (.entry index name :: path) = some name := rfl

/-- A reported path is one the schema declares unless it goes to an entry. -/
theorem Schema.Reports.declares_iff {schema : Schema} {path : List Step} (h : schema.Reports path)
    (hdistinct : schema.distinctFields = true) :
    schema.Declares (path.map Step.segment) ↔ blamed path = none := by
  induction h with
  | here schema => exact iff_of_true (declares_nil schema) rfl
  | optional _ ih => exact ih hdistinct
  | default _ _ ih => exact ih hdistinct
  | transform _ _ ih => exact ih hdistinct
  | item _ _ _ ih => exact ih hdistinct
  | entry acceptsName check refinements index name =>
    exact iff_of_false (fun h => by cases h) (fun h => by cases h)
  | field hfield _ ih =>
    rw [List.map_cons, blamed_field, ← ih (Shape.distinctFields_field hdistinct hfield)]
    exact Shape.declares_iff _ hdistinct hfield

end Paths

section Names

theorem filterMap_under {step : Step} (hstep : ∀ path, blamed (step :: path) = blamed path)
    (issues : List SchemaIssue) :
    (issues.map (SchemaIssue.under step)).filterMap (fun issue => blamed issue.path) =
      issues.filterMap (fun issue => blamed issue.path) := by
  rw [List.filterMap_map]
  apply List.filterMap_congr
  intro issue _
  exact hstep issue.path

theorem filterMap_report (outcome : LeafOutcome) :
    outcome.report.filterMap (fun issue => blamed issue.path) = [] := by
  apply List.filterMap_eq_nil_iff.mpr
  intro issue hissue
  rw [report_path hissue]
  rfl

theorem filterMap_refine {α : Type} (checks : List (Refinement α)) (a : α) :
    (refine checks a).filterMap (fun issue => blamed issue.path) = [] := by
  apply List.filterMap_eq_nil_iff.mpr
  intro issue hissue
  rw [refine_path hissue]
  rfl

theorem filterMap_entryIssues (acceptsName : JsString → Bool) (check : Option Json → LeafOutcome) (index : Nat)
    (entry : JsString × Json) :
    (entryIssues acceptsName check index entry).filterMap (fun issue => blamed issue.path) =
      if acceptsName entry.1 then (check (some entry.2)).issues.map (fun _ => entry.1) else [entry.1] := by
  unfold entryIssues
  split
  · rw [LeafOutcome.report, List.map_map, List.filterMap_map]
    exact congrFun (List.filterMap_eq_map (f := fun _ => entry.1)) _
  · rfl

theorem flatMap_zipIdx {α β : Type} (f : α → List β) (l : List α) :
    l.zipIdx.flatMap (fun indexed => f indexed.1) = l.flatMap f := by
  rw [← List.flatMap_map, List.zipIdx_map_fst]

theorem filterMap_recordIssues (acceptsName : JsString → Bool) (check : Option Json → LeafOutcome)
    (entries : List (JsString × Json)) :
    (recordIssues acceptsName check entries).filterMap (fun issue => blamed issue.path) =
      failingEntries acceptsName check entries := by
  rw [recordIssues, List.filterMap_flatMap]
  simp only [filterMap_entryIssues]
  exact flatMap_zipIdx (fun entry : JsString × Json => if acceptsName entry.1 then
    (check (some entry.2)).issues.map (fun _ => entry.1) else [entry.1]) entries

mutual

/-- The issues that go to an entry name the failing entries, in their order. -/
theorem Schema.filterMap_run (schema : Schema) (value : Option Json) :
    (schema.run value).issues.filterMap (fun issue => blamed issue.path) = schema.failingNames value := by
  match schema with
  | .leaf check => exact filterMap_report (check value)
  | .optional inner =>
    rw [Schema.run, Schema.failingNames]
    split
    · rfl
    · exact inner.filterMap_run value
  | .default fallback inner =>
    rw [Schema.run, Schema.failingNames]
    split
    · rfl
    · exact inner.filterMap_run value
  | .transform f inner =>
    rw [Schema.run, Schema.failingNames, ← inner.filterMap_run value]
    split
    · rename_i hempty
      rw [List.isEmpty_iff.mp hempty]
    · rfl
  | .array item lengths =>
    rw [Schema.run, Schema.failingNames]
    cases asArray value with
    | none => exact filterMap_report _
    | some items =>
      have hitem (element : Json) := item.filterMap_run (some element)
      dsimp only
      rw [List.filterMap_append, filterMap_refine, List.append_nil, List.filterMap_flatMap]
      simp only [filterMap_under (blamed_item _)]
      rw [flatMap_zipIdx (fun outcome : Outcome => outcome.issues.filterMap (fun issue => blamed issue.path)),
        List.flatMap_map]
      simp only [hitem]
  | .record acceptsName check refinements =>
    rw [Schema.run, Schema.failingNames]
    cases asObject value with
    | none => exact filterMap_report _
    | some entries =>
      dsimp only
      rw [List.filterMap_append, filterMap_recordIssues]
      split
      · exact List.append_nil _
      · rw [filterMap_refine, List.append_nil]
  | .object shape =>
    rw [Schema.run, Schema.failingNames]
    cases asObject value with
    | none => exact filterMap_report _
    | some entries => exact shape.filterMap_issues entries

theorem Shape.filterMap_issues (shape : Shape) (entries : List (JsString × Json)) :
    (shape.issues entries).filterMap (fun issue => blamed issue.path) = shape.failingNames entries := by
  match shape with
  | .nil => rfl
  | .field name schema rest =>
    rw [Shape.issues, Shape.failingNames, List.filterMap_append, filterMap_under (blamed_field name),
      schema.filterMap_run, rest.filterMap_issues]

end

mutual

theorem Schema.failingNames_of_recordFree (schema : Schema) (hfree : schema.recordFree = true) (value : Option Json) :
    schema.failingNames value = [] := by
  match schema with
  | .leaf check => rfl
  | .optional inner =>
    rw [Schema.failingNames, inner.failingNames_of_recordFree hfree, ite_self]
  | .default fallback inner =>
    rw [Schema.failingNames, inner.failingNames_of_recordFree hfree, ite_self]
  | .transform f inner => exact inner.failingNames_of_recordFree hfree value
  | .array item lengths =>
    rw [Schema.failingNames]
    cases asArray value with
    | none => rfl
    | some items => exact List.flatMap_eq_nil_iff.mpr fun element _ => item.failingNames_of_recordFree hfree _
  | .record acceptsName check refinements => cases hfree
  | .object shape =>
    rw [Schema.failingNames]
    cases asObject value with
    | none => rfl
    | some entries => exact shape.failingNames_of_recordFree hfree entries

theorem Shape.failingNames_of_recordFree (shape : Shape) (hfree : shape.recordFree = true)
    (entries : List (JsString × Json)) : shape.failingNames entries = [] := by
  match shape with
  | .nil => rfl
  | .field name schema rest =>
    obtain ⟨hschema, hrest⟩ := Bool.and_eq_true_iff.mp hfree
    rw [Shape.failingNames, schema.failingNames_of_recordFree hschema, rest.failingNames_of_recordFree hrest]
    rfl

end

theorem Shape.failingNames_extend (shape more : Shape) (entries : List (JsString × Json)) :
    (shape.extend more).failingNames entries = shape.failingNames entries ++ more.failingNames entries := by
  match shape with
  | .nil => rfl
  | .field name schema rest =>
    rw [Shape.extend, Shape.failingNames, Shape.failingNames, rest.failingNames_extend, List.append_assoc]

/-- The paths of a value's issues are all declared exactly when no entry of it fails. -/
theorem Schema.issues_declared_iff (schema : Schema) (hdistinct : schema.distinctFields = true)
    (value : Option Json) :
    (∀ issue ∈ (schema.run value).issues, schema.Declares (issue.path.map Step.segment)) ↔
      schema.failingNames value = [] := by
  rw [← schema.filterMap_run, List.filterMap_eq_nil_iff]
  exact forall₂_congr fun issue hissue => (schema.reports_of_mem value hissue).declares_iff hdistinct

end Names

section TwoRuns

def Segment.text : Segment → JsString
  | .key name => name
  | .index position => js (toString position)

/-- `path.join('.')` -/
def joinPath : List Segment → JsString
  | [] => []
  | [segment] => segment.text
  | segment :: rest => segment.text ++ 0x2E :: joinPath rest

/-- What fails where: the message of the check, and the place of the value without the names
of entries. -/
def SchemaIssue.failure (issue : SchemaIssue) : List Step × String := (issue.path.map Step.place, issue.message)

/-- What is shown of an issue. -/
def SchemaIssue.shown (issue : SchemaIssue) : JsString × String :=
  (joinPath (issue.path.map Step.segment), issue.message)

/-- Two values fail the same checks in the same places. -/
def Schema.FailAlike (schema : Schema) (a b : Option Json) : Prop :=
  (schema.run a).issues.map SchemaIssue.failure = (schema.run b).issues.map SchemaIssue.failure

theorem joinPath_cons_eq_iff (segment : Segment) {rest rest' : List Segment} (hlength : rest.length = rest'.length) :
    joinPath (segment :: rest) = joinPath (segment :: rest') ↔ joinPath rest = joinPath rest' := by
  cases rest with
  | nil => rw [List.length_eq_zero_iff.mp hlength.symm]; simp
  | cons a rest =>
    cases rest' with
    | nil => cases hlength
    | cons b rest' =>
      change segment.text ++ 0x2E :: joinPath (a :: rest) = segment.text ++ 0x2E :: joinPath (b :: rest') ↔ _
      rw [List.append_right_inj, List.cons.injEq, and_iff_right rfl]

/-- In one place, two reported paths read alike exactly when they go to entries of one name. -/
theorem Schema.Reports.joinPath_eq_iff {schema : Schema} {path path' : List Step} (h : schema.Reports path)
    (hplace : path.map Step.place = path'.map Step.place) :
    joinPath (path.map Step.segment) = joinPath (path'.map Step.segment) ↔ blamed path = blamed path' := by
  induction h generalizing path' with
  | here schema =>
    rw [List.map_nil, eq_comm, List.map_eq_nil_iff] at hplace
    rw [hplace]
    simp
  | optional _ ih => exact ih hplace
  | default _ _ ih => exact ih hplace
  | transform _ _ ih => exact ih hplace
  | item lengths index _ ih =>
    obtain ⟨step, rest, rfl, hstep, hrest⟩ := List.map_eq_cons_iff.mp hplace.symm
    cases step with
    | item index' =>
      cases hstep
      rw [List.map_cons, List.map_cons, blamed_item, blamed_item, ← ih hrest.symm]
      apply joinPath_cons_eq_iff
      simpa using (congrArg List.length hrest).symm
    | field name => cases hstep
    | entry index' name => cases hstep
  | entry acceptsName check refinements index name =>
    obtain ⟨step, rest, rfl, hstep, hrest⟩ := List.map_eq_cons_iff.mp hplace.symm
    obtain rfl := List.map_eq_nil_iff.mp hrest
    cases step with
    | entry index' name' => simp [joinPath, Step.segment, Segment.text]
    | field name' => cases hstep
    | item index' => cases hstep
  | field hfield _ ih =>
    obtain ⟨step, rest, rfl, hstep, hrest⟩ := List.map_eq_cons_iff.mp hplace.symm
    cases step with
    | field name =>
      cases hstep
      rw [List.map_cons, List.map_cons, blamed_field, blamed_field, ← ih hrest.symm]
      apply joinPath_cons_eq_iff
      simpa using (congrArg List.length hrest).symm
    | item index => cases hstep
    | entry index name => cases hstep

/-- A name stands in a path exactly where its place is an entry's. -/
theorem blamed_isSome_of_place {path path' : List Step} (hplace : path.map Step.place = path'.map Step.place) :
    (blamed path).isSome = (blamed path').isSome := by
  have hmap (path : List Step) : (blamed (path.map Step.place)).isSome = (blamed path).isSome := by
    induction path with
    | nil => rfl
    | cons step path ih => cases step <;> simp [Step.place, ih]
  rw [← hmap path, hplace, hmap]

theorem shown_eq_iff {schema : Schema} {issues issues' : List SchemaIssue}
    (hreports : ∀ issue ∈ issues, schema.Reports issue.path)
    (halike : issues.map SchemaIssue.failure = issues'.map SchemaIssue.failure) :
    issues.map SchemaIssue.shown = issues'.map SchemaIssue.shown ↔
      issues.filterMap (fun issue => blamed issue.path) = issues'.filterMap (fun issue => blamed issue.path) := by
  induction issues generalizing issues' with
  | nil =>
    rw [List.map_nil, eq_comm, List.map_eq_nil_iff] at halike
    rw [halike]
    simp
  | cons issue issues ih =>
    obtain ⟨issue', rest, rfl, hissue, hrest⟩ := List.map_eq_cons_iff.mp halike.symm
    obtain ⟨hplace, hmessage⟩ := Prod.mk.inj hissue.symm
    have hjoin := (hreports issue List.mem_cons_self).joinPath_eq_iff hplace
    have hrests := ih (fun other h => hreports other (List.mem_cons_of_mem _ h)) hrest.symm
    have hsome := blamed_isSome_of_place hplace
    rw [List.map_cons, List.map_cons, List.cons.injEq, SchemaIssue.shown, SchemaIssue.shown, Prod.mk.injEq,
      and_iff_left hmessage, hjoin, hrests, List.filterMap_cons, List.filterMap_cons]
    cases hname : blamed issue.path with
    | none =>
      rw [hname] at hsome
      have hname' : blamed issue'.path = none := Option.isNone_iff_eq_none.mp (by simpa using hsome.symm)
      rw [hname']
      simp
    | some name =>
      rw [hname] at hsome
      obtain ⟨name', hname'⟩ := Option.isSome_iff_exists.mp hsome.symm
      rw [hname']
      simp

/-- Two values that fail alike are reported alike exactly when their failing entries have the
same names. -/
theorem Schema.shown_run_eq_iff (schema : Schema) {a b : Option Json} (halike : schema.FailAlike a b) :
    (schema.run a).issues.map SchemaIssue.shown = (schema.run b).issues.map SchemaIssue.shown ↔
      schema.failingNames a = schema.failingNames b := by
  rw [shown_eq_iff (fun issue h => schema.reports_of_mem a h) halike, schema.filterMap_run, schema.filterMap_run]

end TwoRuns

end NestStorageExample.Validation
