import NestStorageExample.Collections.Slices
import NestStorageExample.Text.Base64
import NestStorageExample.Text.Decimal
import NestStorageExample.Text.HexText

/-! The hex dump of the detail drawer: what it renders for a base64 string, and that the
dump can be read back. -/
namespace NestStorageExample.Web
open Text Collections

def bytesPerRow : Nat := 16

/-- The bytes of a base64 string; `none` is the error `atob` throws. -/
def decodeBase64 (text : JsString) : Option (List Byte) := (atob text).map fun binary => binary.map UInt16.toUInt8

def formatOffset (offset : Nat) : JsString := paddedHex 8 offset

def spaceUnit : CodeUnit := 0x20

/-- The three cells of a table row. -/
structure HexRow where
  offset : JsString
  hex : JsString
  ascii : JsString
  deriving DecidableEq

/-- A byte as a character, or a full stop in place of one that cannot be printed. -/
def asciiUnit (b : Byte) : CodeUnit := if 32 ≤ b.toNat ∧ b.toNat < 127 then b.toUInt16 else 0x2E

def renderRow (offset : Nat) (chunk : List Byte) : HexRow :=
  let hex := [spaceUnit].intercalate (chunk.map fun b => paddedHex 2 b.toNat)
  { offset := formatOffset offset
    hex := padEnd (bytesPerRow * 3 - 1) spaceUnit hex
    ascii := chunk.map asciiUnit }

inductive HexView where
  | failed (message : JsString)
  | dump (rows : List HexRow) (notice : Option JsString)
  deriving DecidableEq

/-- `HexPreview`, without its styling. -/
def hexPreview (text : JsString) (maxBytes : Nat) : Option HexView :=
  match decodeBase64 text with
  | none => some (.failed (js "Failed to decode hex preview data."))
  | some decoded => do
    let bytes := slice decoded 0 maxBytes
    let rows ← sliceLoop renderRow bytesPerRow bytes
    let notice := if bytes.length = maxBytes then
      some (js "Showing first " ++ decimal maxBytes ++ js " bytes only.") else none
    some (.dump rows notice)

/-- The entries of a hex column, trimmed and split at spaces. -/
def hexEntries (hex : JsString) : List JsString := (trim hex).splitOn spaceUnit

/-- What is shown of `bytes` is a faithful dump of as many of them as may be shown. -/
structure FaithfulDump (bytes : List Byte) (maxBytes : Nat) (rows : List HexRow) (notice : Option JsString) : Prop where
  offsets : ∀ i row, rows[i]? = some row → row.offset = formatOffset (16 * i) ∧ readHex row.offset = some (16 * i)
  entries : ∀ row ∈ rows, 1 ≤ (hexEntries row.hex).length ∧ (hexEntries row.hex).length ≤ 16 ∧
    (∀ entry ∈ hexEntries row.hex, entry.length = 2) ∧ row.ascii.length = (hexEntries row.hex).length
  readBack : (rows.flatMap fun row => hexEntries row.hex).mapM readHex =
    some ((bytes.take (min bytes.length maxBytes)).map UInt8.toNat)
  noticeText : ∀ text ∈ notice, text = js "Showing first " ++ decimal maxBytes ++ js " bytes only."
  noticed : notice ≠ none ↔ maxBytes < bytes.length

theorem decodeBase64_base64 (bytes : List Byte) : decodeBase64 (base64 bytes) = some bytes := by
  rw [decodeBase64, atob_base64, Option.map_some, List.map_map]
  congr 1
  exact (List.map_congr_left fun b _ => UInt8.toUInt8_toUInt16 b).trans (List.map_id bytes)

theorem paddedHex_byte (b : Byte) : (paddedHex 2 b.toNat).length = 2 :=
  paddedHex_length (by decide) b.toNat_lt

/-- A column gives back the bytes of its row. -/
theorem hexEntries_renderRow (offset : Nat) {chunk : List Byte} (hne : chunk ≠ []) :
    hexEntries (renderRow offset chunk).hex = chunk.map fun b => paddedHex 2 b.toNat := by
  have hentries : chunk.map (fun b => paddedHex 2 b.toNat) ≠ [] := fun hnil => hne (List.map_eq_nil_iff.mp hnil)
  have hwords : ∀ entry ∈ chunk.map (fun b => paddedHex 2 b.toNat), IsWord entry := by
    intro entry hentry
    obtain ⟨b, -, rfl⟩ := List.mem_map.mp hentry
    exact ⟨List.ne_nil_of_length_pos (by rw [paddedHex_byte]; decide), paddedHex_not_space 2 b.toNat⟩
  have hblank {n : Nat} : Blank (List.replicate n spaceUnit) := by
    intro u hu
    rw [List.eq_of_mem_replicate hu]
    decide
  have htrim := trim_between (List.forall_mem_nil _) (trimmed_intercalate [spaceUnit] hwords).1
    (hblank (n := bytesPerRow * 3 - 1 - ([spaceUnit].intercalate (chunk.map fun b => paddedHex 2 b.toNat)).length))
  have hsplit := List.splitOn_intercalate spaceUnit (fun entry hentry hmem => by
    have := (hwords entry hentry).solid spaceUnit hmem
    exact absurd this (by decide)) hentries
  rw [hexEntries, renderRow, padEnd, List.rightpad]
  exact (congrArg (List.splitOn spaceUnit) htrim).trans hsplit

/-- The rows of a dump, one for each slice of sixteen bytes. -/
def dumpRows (shown : List Byte) : List HexRow :=
  (List.range (sliceCount bytesPerRow shown.length)).map fun i =>
    renderRow (i * bytesPerRow) (sliceAt bytesPerRow shown i)

def dumpNotice (shown maxBytes : Nat) : Option JsString :=
  if shown = maxBytes then some (js "Showing first " ++ decimal maxBytes ++ js " bytes only.") else none

theorem dumpNotice_ne_none_iff (shown maxBytes : Nat) : dumpNotice shown maxBytes ≠ none ↔ shown = maxBytes := by
  rw [dumpNotice]
  split
  · exact iff_of_true (Option.some_ne_none _) ‹_›
  · exact iff_of_false (fun hne => hne rfl) ‹_›

theorem hexPreview_base64 (bytes : List Byte) (maxBytes : Nat) : hexPreview (base64 bytes) maxBytes =
    some (.dump (dumpRows (bytes.take maxBytes)) (dumpNotice (min bytes.length maxBytes) maxBytes)) := by
  have hshown : slice bytes 0 maxBytes = bytes.take maxBytes := List.drop_zero
  have hlength : (bytes.take maxBytes).length = min bytes.length maxBytes := by
    rw [List.length_take, Nat.min_comm]
  rw [hexPreview, decodeBase64_base64]
  dsimp only
  rw [hshown, sliceLoop_eq renderRow (by decide), ← hlength]
  rfl

/-- What a row shows is a slice of one to sixteen bytes. -/
theorem dumpRows_getElem? {shown : List Byte} {i : Nat} {row : HexRow} (h : (dumpRows shown)[i]? = some row) :
    ∃ chunk, chunk ≠ [] ∧ chunk.length ≤ bytesPerRow ∧ row = renderRow (i * bytesPerRow) chunk := by
  rw [dumpRows, List.getElem?_map] at h
  obtain ⟨j, hj, rfl⟩ := Option.map_eq_some_iff.mp h
  obtain ⟨hlt, hval⟩ := List.getElem?_eq_some_iff.mp hj
  rw [List.getElem_range] at hval
  subst hval
  have hslice : sliceAt bytesPerRow shown i ∈ slices bytesPerRow shown :=
    List.mem_map_of_mem (List.mem_range.mpr (by rwa [List.length_range] at hlt))
  obtain ⟨hne, hle⟩ := slices_bounds (by decide) hslice
  exact ⟨_, hne, hle, rfl⟩

theorem dumpRows_offset {shown : List Byte} {i : Nat} {row : HexRow} (h : (dumpRows shown)[i]? = some row) :
    row.offset = formatOffset (16 * i) ∧ readHex row.offset = some (16 * i) := by
  obtain ⟨chunk, -, -, rfl⟩ := dumpRows_getElem? h
  have hoffset : i * bytesPerRow = 16 * i := Nat.mul_comm i bytesPerRow
  rw [hoffset]
  exact ⟨rfl, readHex_paddedHex 8 (16 * i)⟩

theorem dumpRows_entries {shown : List Byte} {row : HexRow} (h : row ∈ dumpRows shown) :
    1 ≤ (hexEntries row.hex).length ∧ (hexEntries row.hex).length ≤ 16 ∧
      (∀ entry ∈ hexEntries row.hex, entry.length = 2) ∧ row.ascii.length = (hexEntries row.hex).length := by
  obtain ⟨i, hi⟩ := List.mem_iff_getElem?.mp h
  obtain ⟨chunk, hne, hle, rfl⟩ := dumpRows_getElem? hi
  rw [hexEntries_renderRow _ hne, List.length_map]
  refine ⟨List.length_pos_iff.mpr hne, hle, ?_, List.length_map asciiUnit⟩
  intro entry hentry
  obtain ⟨b, -, rfl⟩ := List.mem_map.mp hentry
  exact paddedHex_byte b

/-- The columns together hold every shown byte once, in order. -/
theorem dumpRows_flatMap (shown : List Byte) :
    (dumpRows shown).flatMap (fun row => hexEntries row.hex) = shown.map fun b => paddedHex 2 b.toNat := by
  have hrows : (dumpRows shown).flatMap (fun row => hexEntries row.hex) =
      (slices bytesPerRow shown).flatMap (fun chunk => chunk.map fun b => paddedHex 2 b.toNat) := by
    rw [dumpRows, slices, List.flatMap_map, List.flatMap_map]
    apply List.flatMap_congr
    intro i hi
    have hslice : sliceAt bytesPerRow shown i ∈ slices bytesPerRow shown := List.mem_map_of_mem hi
    exact hexEntries_renderRow _ (slices_bounds (by decide) hslice).1
  rw [hrows, List.flatMap_def, ← List.map_flatten, flatten_slices (by decide)]

theorem mapM_readHex (bytes : List Byte) :
    (bytes.map fun b => paddedHex 2 b.toNat).mapM readHex = some (bytes.map UInt8.toNat) := by
  induction bytes with
  | nil => rfl
  | cons b bytes ih =>
    rw [List.map_cons, List.mapM_cons, readHex_paddedHex, ih]
    rfl

/-- The dump is faithful but for its notice, which also stands below a dump that shows every
byte when there are exactly as many as may be shown. -/
theorem hex_dump_faithful_iff (bytes : List Byte) (maxBytes : Nat) :
    (∃ rows notice, hexPreview (base64 bytes) maxBytes = some (.dump rows notice) ∧
      FaithfulDump bytes maxBytes rows notice) ↔ bytes.length ≠ maxBytes := by
  have hnotice : (dumpNotice (min bytes.length maxBytes) maxBytes ≠ none ↔ maxBytes < bytes.length) ↔
      bytes.length ≠ maxBytes := by
    rw [dumpNotice_ne_none_iff]
    omega
  rw [← hnotice]
  constructor
  · rintro ⟨rows, notice, hview, hfaithful⟩
    rw [hexPreview_base64, Option.some.injEq, HexView.dump.injEq] at hview
    rw [hview.2]
    exact hfaithful.noticed
  · intro hnoticed
    refine ⟨_, _, hexPreview_base64 bytes maxBytes, fun _ _ => dumpRows_offset, fun _ => dumpRows_entries, ?_, ?_,
      hnoticed⟩
    · rw [dumpRows_flatMap, mapM_readHex, Nat.min_comm, ← List.take_eq_take_min]
    · intro text htext
      rw [dumpNotice] at htext
      split at htext
      · exact (Option.some.inj htext).symm
      · cases htext

/-- Sixteen bytes with room for sixteen: nothing is left out, and the notice says otherwise. -/
theorem full_dump_noticed : ∃ bytes : List Byte, bytes.length = 16 ∧
    (∃ rows, hexPreview (base64 bytes) 16 = some (.dump rows (some (js "Showing first 16 bytes only.")))) ∧
    ¬ ∃ rows notice, hexPreview (base64 bytes) 16 = some (.dump rows notice) ∧ FaithfulDump bytes 16 rows notice := by
  refine ⟨List.replicate 16 0x41, rfl, ⟨_, hexPreview_base64 _ 16⟩, ?_⟩
  rintro ⟨rows, notice, hview, hfaithful⟩
  rw [hexPreview_base64, Option.some.injEq, HexView.dump.injEq] at hview
  have hnoticed := hfaithful.noticed
  rw [← hview.2] at hnoticed
  exact absurd (hnoticed.mp (by decide)) (by decide)

end NestStorageExample.Web
