import NestStorageExample.Runs.Loops

/-! A sequence cut into slices of one size by a loop over offsets. -/
namespace NestStorageExample.Collections
open Runs
variable {α β : Type}

/-- `xs.slice(start, stop)`, of an array or a blob. -/
def slice (xs : List α) (start stop : Nat) : List α := (xs.take stop).drop start

structure SliceState (β : Type) where
  offset : Nat
  out : List β

/-- `out.push(emit(offset, xs.slice(offset, offset + size))); offset += size` -/
def sliceStep (emit : Nat → List α → β) (size : Nat) (xs : List α) (s : SliceState β) : SliceState β :=
  ⟨s.offset + size, s.out ++ [emit s.offset (slice xs s.offset (s.offset + size))]⟩

/-- The slices from offset zero on, `while (offset < xs.length)`. A loop that has not ended
after as many rounds as there are elements, as with a size of zero, never does. -/
def sliceLoop (emit : Nat → List α → β) (size : Nat) (xs : List α) : Option (List β) :=
  (whileLoop (fun s => decide (s.offset < xs.length)) (sliceStep emit size xs) xs.length ⟨0, []⟩).map SliceState.out

/-- How many slices of `size` a length takes. -/
def sliceCount (size length : Nat) : Nat := (length + size - 1) / size

/-- The slice behind `i` whole ones. -/
def sliceAt (size : Nat) (xs : List α) (i : Nat) : List α := slice xs (i * size) (i * size + size)

/-- All slices, in order. -/
def slices (size : Nat) (xs : List α) : List (List α) :=
  (List.range (sliceCount size xs.length)).map (sliceAt size xs)

variable {size : Nat} {xs : List α}

/-- After `n` rounds. -/
structure Sliced (emit : Nat → List α → β) (size : Nat) (xs : List α) (n : Nat) (s : SliceState β) : Prop where
  offset : s.offset = n * size
  out : s.out = (List.range n).map fun i => emit (i * size) (sliceAt size xs i)
  /-- the last round started inside -/
  inside : s.offset < xs.length + size

theorem Sliced.step {emit : Nat → List α → β} {n : Nat} {s : SliceState β} (h : Sliced emit size xs n s)
    (hcond : s.offset < xs.length) : Sliced emit size xs (n + 1) (sliceStep emit size xs s) where
  offset := by
    rw [sliceStep, h.offset, Nat.succ_mul]
  out := by
    rw [sliceStep, h.out, h.offset, List.range_succ, List.map_append]
    rfl
  inside := Nat.add_lt_add_right hcond size

theorem sliceCount_eq {n : Nat} {length : Nat} (hlast : length ≤ n * size) (hinside : n * size < length + size) :
    n = sliceCount size length := by
  symm
  apply Nat.div_eq_of_lt_le
  · omega
  · rw [Nat.succ_mul]
    omega

theorem sliceLoop_eq (emit : Nat → List α → β) (h : 0 < size) (xs : List α) : sliceLoop emit size xs =
    some ((List.range (sliceCount size xs.length)).map fun i => emit (i * size) (sliceAt size xs i)) := by
  have hends : ∃ s, whileLoop (fun s => decide (s.offset < xs.length)) (sliceStep emit size xs) xs.length ⟨0, []⟩ =
      some s := by
    apply whileLoop_ends (fun s => xs.length - s.offset) _ (Nat.sub_le _ _)
    intro s hcond
    rw [decide_eq_true_eq] at hcond
    change xs.length - (s.offset + size) < xs.length - s.offset
    omega
  obtain ⟨s, hs⟩ := hends
  have hbody (s : SliceState β) (hinv : ∃ n, Sliced emit size xs n s) (hcond : decide (s.offset < xs.length) = true) :
      ∃ n, Sliced emit size xs n (sliceStep emit size xs s) := by
    obtain ⟨n, hsliced⟩ := hinv
    exact ⟨n + 1, hsliced.step (of_decide_eq_true hcond)⟩
  obtain ⟨⟨n, hsliced⟩, hstop⟩ := whileLoop_invariant hbody ⟨0, (Nat.zero_mul size).symm, rfl, Nat.add_pos_right _ h⟩ hs
  have hcount : n = sliceCount size xs.length := by
    have hinside := hsliced.inside
    rw [decide_eq_false_iff_not, Nat.not_lt, hsliced.offset] at hstop
    rw [hsliced.offset] at hinside
    exact sliceCount_eq hstop hinside
  rw [sliceLoop, hs, Option.map_some, hsliced.out, hcount]

theorem sliceCount_le_iff (h : 0 < size) {n length : Nat} : sliceCount size length ≤ n ↔ length ≤ n * size := by
  rw [sliceCount, Nat.div_le_iff_le_mul_add_pred h, Nat.mul_comm]
  omega

theorem lt_sliceCount_iff (h : 0 < size) {i length : Nat} : i < sliceCount size length ↔ i * size < length := by
  rw [← Nat.not_le, sliceCount_le_iff h, Nat.not_le]

theorem sliceAt_length (size : Nat) (xs : List α) (i : Nat) :
    (sliceAt size xs i).length = min size (xs.length - i * size) := by
  rw [sliceAt, slice, List.length_drop, List.length_take]
  omega

theorem sliceCount_mul_le (h : 0 < size) (length : Nat) : length ≤ sliceCount size length * size :=
  (sliceCount_le_iff h).mp (Nat.le_refl _)

/-- The first `n` slices are the first `n * size` elements. -/
theorem flatten_sliceAt (size : Nat) (xs : List α) (n : Nat) :
    ((List.range n).map (sliceAt size xs)).flatten = xs.take (n * size) := by
  induction n with
  | zero => rw [Nat.zero_mul]; rfl
  | succ n ih =>
    rw [List.range_succ, List.map_append, List.flatten_append, ih, Nat.succ_mul, List.map_singleton,
      List.flatten_singleton, sliceAt, slice]
    conv_rhs => rw [← List.take_append_drop (n * size) (xs.take (n * size + size))]
    rw [List.take_take, Nat.min_eq_left (Nat.le_add_right _ _)]

/-- No element is lost or repeated. -/
theorem flatten_slices (h : 0 < size) (xs : List α) : (slices size xs).flatten = xs := by
  rw [slices, flatten_sliceAt, List.take_of_length_le (sliceCount_mul_le h xs.length)]

theorem slices_length (size : Nat) (xs : List α) : (slices size xs).length = sliceCount size xs.length := by
  rw [slices, List.length_map, List.length_range]

theorem slices_getElem? {i : Nat} {part : List α} (hi : (slices size xs)[i]? = some part) :
    i < sliceCount size xs.length ∧ part = sliceAt size xs i := by
  obtain ⟨hlt, hpart⟩ := List.getElem?_eq_some_iff.mp hi
  rw [slices_length] at hlt
  rw [← hpart]
  exact ⟨hlt, by simp only [slices, List.getElem_map, List.getElem_range]⟩

theorem slices_bounds (h : 0 < size) {part : List α} (hpart : part ∈ slices size xs) :
    part ≠ [] ∧ part.length ≤ size := by
  obtain ⟨i, hi, rfl⟩ := List.mem_map.mp hpart
  have hinside := (lt_sliceCount_iff h).mp (List.mem_range.mp hi)
  have hlength := sliceAt_length size xs i
  exact ⟨List.ne_nil_of_length_pos (by omega), by omega⟩

/-- Every slice with another one behind it is whole. -/
theorem slices_whole (h : 0 < size) {i : Nat} {part : List α} (hpart : (slices size xs)[i]? = some part)
    (hnext : i + 1 < (slices size xs).length) : part.length = size := by
  rw [slices_length] at hnext
  have hinside := (lt_sliceCount_iff h).mp hnext
  rw [(slices_getElem? hpart).2, sliceAt_length]
  rw [Nat.succ_mul] at hinside
  omega

end NestStorageExample.Collections
