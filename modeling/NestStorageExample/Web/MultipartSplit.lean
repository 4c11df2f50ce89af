import NestStorageExample.Collections.Slices
import NestStorageExample.Numbers.Double
import NestStorageExample.Text.CodeUnits

/-! A file split into parts in the browser, and the number of part URLs asked for before it.
The split is a loop over offsets, the number a quotient of doubles rounded up. -/
namespace NestStorageExample.Web
open Text Collections Numbers

/-- A file of the browser; its `size` is an integer that a double tells from its neighbours. -/
structure BrowserFile where
  bytes : List Byte
  size_safe : bytes.length ≤ 9007199254740991

def BrowserFile.size (file : BrowserFile) : Nat := file.bytes.length

/-- 5 MiB, the smallest part that S3 takes. -/
def multipartPartSizeBytes : Nat := 5 * 1024 * 1024

/-- The parts as blobs, in order; `none` when the loop does not end. -/
def splitIntoParts (file : BrowserFile) (partSize : Nat) : Option (List (List Byte)) :=
  sliceLoop (fun _ part => part) partSize file.bytes

def partCount (fileSize partSize : Nat) : Rat := max 1 (Double.ceil (Double.div fileSize partSize))

/-- `parts` is what the split returns, and it is the file cut at whole multiples of the size. -/
structure SplitsInto (file : BrowserFile) (partSize : Nat) (parts : List (List Byte)) : Prop where
  returned : splitIntoParts file partSize = some parts
  concatenated : parts.flatten = file.bytes
  nonEmpty : ∀ part ∈ parts, part ≠ []
  whole : ∀ i part, parts[i]? = some part → i + 1 < parts.length → part.length = partSize
  last : ∀ part ∈ parts.getLast?, part.length ≤ partSize

theorem splitIntoParts_splits (file : BrowserFile) {partSize : Nat} (h : 1 ≤ partSize) :
    SplitsInto file partSize (slices partSize file.bytes) where
  returned := sliceLoop_eq (fun _ part => part) h file.bytes
  concatenated := flatten_slices h file.bytes
  nonEmpty _ hpart := (slices_bounds h hpart).1
  whole _ _ hpart hnext := slices_whole h hpart hnext
  last _ hpart := (slices_bounds h (List.mem_of_getLast? hpart)).2

/-- The rounded quotient is the exact one, but never less than one. -/
theorem partCount_eq (file : BrowserFile) {partSize : Nat} (h : 1 ≤ partSize) :
    partCount file.size partSize = (max 1 (sliceCount partSize file.size) : Nat) := by
  have hsize : file.size ≤ 9007199254740991 := file.size_safe
  generalize file.size = fileSize at hsize
  rw [partCount, Double.div, Double.ceil]
  rcases le_or_gt partSize (2 ^ 53) with hpart | hpart
  · rw [ceil_toDouble_div h hpart (by omega)]
    push_cast
    rfl
  -- a part that no file fills
  · have hquotient : (fileSize : Rat) / partSize ≤ (1 : Nat) := by
      rw [Nat.cast_one, div_le_one (by exact_mod_cast h)]
      exact_mod_cast (by omega : fileSize ≤ partSize)
    have hceil : ⌈toDouble (fileSize / partSize)⌉ ≤ 1 :=
      Int.ceil_le.mpr (by exact_mod_cast toDouble_le (by norm_num) (by positivity) hquotient)
    have hcount : sliceCount partSize fileSize ≤ 1 := by
      rw [sliceCount_le_iff h]
      omega
    rw [Nat.max_eq_left hcount, max_eq_left (by exact_mod_cast hceil)]
    rfl

/-- Splitting loses nothing and agrees with counting, except that an empty file has no parts
where one is counted. -/
theorem split_agrees_with_count (file : BrowserFile) {partSize : Nat} (h : 1 ≤ partSize) : ∃ parts,
    SplitsInto file partSize parts ∧ (file.size = 0 → parts = [] ∧ partCount file.size partSize = 1) ∧
      (1 ≤ file.size → partCount file.size partSize = parts.length) := by
  refine ⟨slices partSize file.bytes, splitIntoParts_splits file h, ?_, ?_⟩
  · intro hempty
    have hcount : sliceCount partSize file.size = 0 := by
      rw [← Nat.le_zero, sliceCount_le_iff h]
      omega
    rw [partCount_eq file h, hcount]
    exact ⟨List.eq_nil_of_length_eq_zero ((slices_length _ _).trans hcount), rfl⟩
  · intro hsize
    have hcount : 1 ≤ sliceCount partSize file.size := (lt_sliceCount_iff h).mpr (by omega)
    rw [partCount_eq file h, Nat.max_eq_right hcount, slices_length]
    rfl

def fiveBytes : BrowserFile := ⟨[1, 2, 3, 4, 5], by decide⟩

theorem five_bytes_split : splitIntoParts fiveBytes 2 = some [[1, 2], [3, 4], [5]] ∧ partCount 5 2 = 3 := by
  obtain ⟨parts, hsplits, -, hcount⟩ := @split_agrees_with_count fiveBytes 2 (by decide)
  have hparts : splitIntoParts fiveBytes 2 = some [[1, 2], [3, 4], [5]] := by decide
  have hreturned := hsplits.returned
  rw [hparts, Option.some.injEq] at hreturned
  have hthree := hcount (by decide)
  rw [← hreturned] at hthree
  exact ⟨hparts, hthree⟩

def emptyFile : BrowserFile := ⟨[], by decide⟩

/-- An empty file gets a part URL and no part to put there. -/
theorem empty_file_counts_apart : splitIntoParts emptyFile multipartPartSizeBytes = some [] ∧
    partCount emptyFile.size multipartPartSizeBytes = 1 ∧
    ¬ ∃ parts, SplitsInto emptyFile multipartPartSizeBytes parts ∧
      partCount emptyFile.size multipartPartSizeBytes = parts.length := by
  have hparts : splitIntoParts emptyFile multipartPartSizeBytes = some [] := by decide
  have hcount : max 1 (sliceCount multipartPartSizeBytes emptyFile.size) = 1 := by decide
  have hone : partCount emptyFile.size multipartPartSizeBytes = 1 := by
    rw [partCount_eq emptyFile (by decide), hcount, Nat.cast_one]
  refine ⟨hparts, hone, ?_⟩
  rintro ⟨parts, hsplits, hcount⟩
  have hreturned := hsplits.returned
  rw [hparts, Option.some.injEq] at hreturned
  rw [← hreturned, hone] at hcount
  exact absurd hcount (by decide)

end NestStorageExample.Web
