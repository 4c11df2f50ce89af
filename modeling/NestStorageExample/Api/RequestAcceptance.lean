import NestStorageExample.Api.RequestSchemas
import NestStorageExample.Validation.Acceptance
import Mathlib.Algebra.Order.Ring.Unbundled.Rat
import Mathlib.Data.Rat.Cast.Order
import Mathlib.Tactic.NormNum

/-! Which values pass the checks that the request schemas are made of, and what the pipe
hands on of an input that passes. -/
namespace NestStorageExample.Api
open Text Validation

theorem typeError_issues_ne_nil (expected : String) (received : Option Json) :
    (typeError expected received).issues ≠ [] := List.cons_ne_nil _ _

theorem stringLeaf_issues_eq_nil_iff (schema : StringSchema) (value : Option Json) :
    (stringLeaf schema value).issues = [] ↔ ∃ s, value = some (.string s) ∧ schema.Accepts s := by
  unfold stringLeaf
  split
  · rename_i s
    rw [List.map_eq_nil_iff, StringSchema.issues_eq_nil_iff]
    constructor
    · exact fun h => ⟨s, rfl, h⟩
    · rintro ⟨_, ⟨rfl⟩, h⟩
      exact h
  · rename_i hne
    refine iff_of_false (typeError_issues_ne_nil _ _) ?_
    rintro ⟨s, rfl, -⟩
    exact hne s rfl

theorem numberIssues_eq_nil_iff (checks : List NumberCheck) (x : Rat) :
    numberIssues checks x = [] ↔ ∀ check ∈ checks, check.holds x = true := by
  induction checks with
  | nil => simp [numberIssues]
  | cons check checks ih =>
    rw [numberIssues, List.forall_mem_cons, ← ih]
    split
    · rename_i h
      exact (and_iff_right h).symm
    · rename_i h
      exact iff_of_false (List.cons_ne_nil _ _) (fun hall => h hall.1)

theorem numberOutcome_issues_eq_nil_iff (checks : List NumberCheck) (n : JsNumber) :
    (numberOutcome checks n).issues = [] ↔ ∃ x, n = .finite x ∧ numberIssues checks x = [] := by
  unfold numberOutcome
  split
  · rename_i x
    constructor
    · exact fun h => ⟨x, rfl, h⟩
    · rintro ⟨_, ⟨rfl⟩, h⟩
      exact h
  · rename_i hne
    refine iff_of_false (typeError_issues_ne_nil _ _) ?_
    rintro ⟨x, rfl, -⟩
    exact hne x rfl

theorem numberLeaf_issues_eq_nil_iff (checks : List NumberCheck) (value : Option Json) :
    (numberLeaf checks value).issues = [] ↔
      ∃ x, value = some (.number (.finite x)) ∧ numberIssues checks x = [] := by
  unfold numberLeaf
  split
  · rename_i n
    rw [numberOutcome_issues_eq_nil_iff]
    simp only [Option.some.injEq, Json.number.injEq]
  · rename_i hne
    refine iff_of_false (typeError_issues_ne_nil _ _) ?_
    rintro ⟨x, rfl, -⟩
    exact hne _ rfl

theorem memberLeaf_issues_eq_nil_iff (values : List JsString) (message : String) (value : Option Json) :
    (memberLeaf values message value).issues = [] ↔ ∃ s ∈ values, value = some (.string s) := by
  unfold memberLeaf
  split
  · rename_i s
    split
    · rename_i hmem
      exact iff_of_true rfl ⟨s, hmem, rfl⟩
    · rename_i hmem
      refine iff_of_false (List.cons_ne_nil _ _) ?_
      rintro ⟨_, hs, ⟨rfl⟩⟩
      exact hmem hs
  · rename_i hne
    refine iff_of_false (List.cons_ne_nil _ _) ?_
    rintro ⟨s, -, rfl⟩
    exact hne s rfl

theorem booleanLeaf_issues_eq_nil_iff (value : Option Json) :
    (booleanLeaf value).issues = [] ↔ ∃ b, value = some (.bool b) := by
  unfold booleanLeaf
  split
  · rename_i b
    exact iff_of_true rfl ⟨b, rfl⟩
  · rename_i hne
    refine iff_of_false (typeError_issues_ne_nil _ _) ?_
    rintro ⟨b, rfl⟩
    exact hne b rfl

/-- The integers that a double tells from their neighbours. -/
theorem integer_issues_eq_nil_iff (x : Rat) : numberIssues integer x = [] ↔
    ∃ n : Int, x = n ∧ n ≤ 9007199254740991 ∧ -9007199254740991 ≤ n := by
  have hall : (∀ check ∈ integer, check.holds x = true) ↔
      x.den = 1 ∧ x ≤ maxSafeInteger ∧ -maxSafeInteger ≤ x := by
    simp [integer]
  rw [numberIssues_eq_nil_iff, hall, maxSafeInteger]
  constructor
  · rintro ⟨hden, hle, hge⟩
    have hx : (x.num : Rat) = x := Rat.coe_int_num_of_den_eq_one hden
    rw [← hx] at hle hge
    exact ⟨x.num, hx.symm, by exact_mod_cast hle, by exact_mod_cast hge⟩
  · rintro ⟨n, rfl, hle, hge⟩
    exact ⟨Rat.den_intCast n, by exact_mod_cast hle, by exact_mod_cast hge⟩

/-- A byte offset that `rangeQuerySchema` lets through. -/
def Admitted (x : Rat) : Prop := numberIssues (integer ++ [minNumber 0]) x = []

theorem admitted_iff (x : Rat) : Admitted x ↔ ∃ n : Nat, x = n ∧ n ≤ 9007199254740991 := by
  have hmin : (∀ check ∈ [minNumber 0], check.holds x = true) ↔ 0 ≤ x := by
    simp [minNumber]
  rw [Admitted, numberIssues_eq_nil_iff, List.forall_mem_append, ← numberIssues_eq_nil_iff,
    integer_issues_eq_nil_iff, hmin]
  constructor
  · rintro ⟨⟨n, rfl, hle, -⟩, hpos⟩
    have hn : 0 ≤ n := by exact_mod_cast hpos
    obtain ⟨m, rfl⟩ := Int.eq_ofNat_of_zero_le hn
    exact ⟨m, rfl, by exact_mod_cast hle⟩
  · rintro ⟨n, rfl, hle⟩
    exact ⟨⟨n, rfl, by exact_mod_cast hle, by omega⟩, by exact_mod_cast Nat.zero_le n⟩

theorem transform_ok_iff (schema : Schema) (value : Option Json) (parsed : Option Json) :
    ZodValidationPipe.transform schema value = .ok parsed ↔
      schema.Accepts value ∧ (schema.run value).value = parsed := by
  rw [ZodValidationPipe.transform, Schema.Accepts]
  split
  · rename_i h
    rw [and_iff_right (List.isEmpty_iff.mp h), Except.ok.injEq]
  · rename_i h
    refine iff_of_false ?_ (fun hall => h (List.isEmpty_iff.mpr hall.1))
    intro hok
    cases hok

/-- What `z.coerce.number()` makes of an accepted value. -/
theorem coercedLeaf_accepted {toNumber : Option Json → JsNumber} {checks : List NumberCheck} {value : Option Json}
    (h : (Schema.leaf (coercedLeaf toNumber checks)).Accepts value) :
    ∃ x, ((Schema.leaf (coercedLeaf toNumber checks)).run value).value = some (.number (.finite x)) ∧
      numberIssues checks x = [] := by
  rw [accepts_leaf_iff, coercedLeaf, numberOutcome_issues_eq_nil_iff] at h
  obtain ⟨x, hx, hissues⟩ := h
  refine ⟨x, ?_, hissues⟩
  rw [Schema.run, coercedLeaf, hx]
  rfl

/-- The offsets of a range query that has passed the pipe. -/
theorem rangeQuery_admitted {toNumber : Option Json → JsNumber} {value parsed : Option Json}
    (h : ZodValidationPipe.transform (rangeQuerySchema toNumber) value = .ok parsed) :
    ∃ entries start stop, parsed = some (.object entries) ∧
      Json.lookup (js "start") entries = some (.number (.finite start)) ∧
      Json.lookup (js "end") entries = some (.number (.finite stop)) ∧ Admitted start ∧ Admitted stop := by
  obtain ⟨haccepts, rfl⟩ := (transform_ok_iff _ _ _).mp h
  obtain ⟨entries, rfl, hfields⟩ := (accepts_object_iff _ _).mp haccepts
  rw [keyShape, Shape.extend, Shape.extend, Shape.accepts_field_iff, Shape.accepts_field_iff,
    Shape.accepts_field_iff] at hfields
  obtain ⟨start, hstart, hadmitted⟩ := coercedLeaf_accepted hfields.2.1
  obtain ⟨stop, hstop, hadmitted'⟩ := coercedLeaf_accepted hfields.2.2.1
  refine ⟨_, start, stop, rfl, ?_, ?_, hadmitted, hadmitted'⟩
  · rw [← hstart]
    exact Shape.lookup_values entries rfl (by simp [keyShape, Shape.extend, Shape.fields])
  · rw [← hstop]
    exact Shape.lookup_values entries rfl (by simp [keyShape, Shape.extend, Shape.fields])

end NestStorageExample.Api
