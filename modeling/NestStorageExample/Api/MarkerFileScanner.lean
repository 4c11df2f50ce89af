import NestStorageExample.Storage.Provider

/-! The demo scanner: a bounded prefix of the body, or the key where there is no body,
is searched for two inert markers. -/
namespace NestStorageExample.Api
open Text Storage

inductive FileScanStatus where
  | clean
  | infected
  | unknown
  deriving DecidableEq, Repr

structure FileScanResult where
  status : FileScanStatus
  engine : JsString
  threat : Option JsString
  deriving DecidableEq

/-- What the scanner reads of its input: `body` is there in pre-upload mode only. -/
structure ScanInput where
  body : Option UploadBody
  key : JsString

namespace MarkerFileScanner

def infectedMarker : JsString := js "X-DEMO-INFECTED"
def unknownMarker : JsString := js "X-DEMO-UNKNOWN"
def threatName : JsString := js "Demo.Marker.A"
def engineName : JsString := js "marker-demo"
def maxScanBytes : Nat := 4096

/-- One turn of the loop over a stream: the chunk that is pulled, the bytes held until then,
and the slice that is kept of it. -/
structure Pull where
  chunk : Chunk
  held : Nat
  slice : List Byte

/-- The variables of the loop, and the turns it has taken. -/
structure Reading where
  chunks : List (List Byte)
  total : Nat
  pulls : List Pull

def Reading.start : Reading := ⟨[], 0, []⟩

def Reading.pull (reading : Reading) (chunk : Chunk) : Reading :=
  let remaining := maxScanBytes - reading.total
  let slice := chunk.bytes.take remaining
  ⟨reading.chunks ++ [slice], reading.total + slice.length, reading.pulls ++ [⟨chunk, reading.total, slice⟩]⟩

/-- The loop over a stream, with what it leaves of the stream unread. -/
def readChunks : List Chunk → Reading → Reading × List Chunk
  | [], reading => (reading, [])
  | chunk :: stream, reading =>
    -- the `break` once the budget is used up
    if maxScanBytes ≤ (reading.pull chunk).total then (reading.pull chunk, stream)
    else readChunks stream (reading.pull chunk)

def readPrefix : UploadBody → JsString
  | .buffer bytes => decodeUtf8 (bytes.take maxScanBytes)
  | .stream chunks => decodeUtf8 (readChunks chunks .start).1.chunks.flatten

/-- An infected marker wins over an unknown one. -/
def verdict (text : JsString) : FileScanResult :=
  if infectedMarker <:+: text then ⟨.infected, engineName, some threatName⟩
  else if unknownMarker <:+: text then ⟨.unknown, engineName, none⟩
  else ⟨.clean, engineName, none⟩

def scan (input : ScanInput) : FileScanResult :=
  verdict (match input.body with
    | some body => readPrefix body
    | none => input.key)

/-- What holds of the loop with `rest` still to read of `stream`: each turn was taken with room
left, held what the turns before it had kept, and kept no more than fits. -/
structure Reading.Bounded (reading : Reading) (stream rest : List Chunk) : Prop where
  pulled : reading.pulls.map Pull.chunk ++ rest = stream
  kept : reading.pulls.map Pull.slice = reading.chunks
  total : reading.total = reading.chunks.flatten.length
  room : reading.total ≤ maxScanBytes
  turns : ∀ before pull after, reading.pulls = before ++ pull :: after →
    pull.held = (before.map Pull.slice).flatten.length ∧ pull.held < maxScanBytes ∧
    pull.held + pull.slice.length ≤ maxScanBytes

theorem Reading.start_bounded (stream : List Chunk) : Reading.start.Bounded stream stream where
  pulled := rfl
  kept := rfl
  total := rfl
  room := Nat.zero_le _
  turns before pull after h := absurd h.symm (by simp [Reading.start])

theorem Reading.pull_bounded {reading : Reading} {stream rest : List Chunk} {chunk : Chunk}
    (h : reading.Bounded stream (chunk :: rest)) (hroom : reading.total < maxScanBytes) :
    (reading.pull chunk).Bounded stream rest := by
  have hfits : reading.total + (chunk.bytes.take (maxScanBytes - reading.total)).length ≤ maxScanBytes := by
    rw [List.length_take]
    omega
  refine ⟨?_, ?_, ?_, hfits, ?_⟩
  · rw [← h.pulled]
    simp [Reading.pull]
  · simp [Reading.pull, h.kept]
  · simp [Reading.pull, h.total]
  · intro before pull after hsplit
    rcases List.eq_nil_or_concat after with rfl | ⟨after, last, rfl⟩
    · -- the turn just taken
      obtain ⟨rfl, hlast⟩ := List.append_inj' hsplit rfl
      obtain rfl := List.singleton_inj.mp hlast
      exact ⟨by rw [h.kept, ← h.total], hroom, hfits⟩
    · rw [List.concat_eq_append, ← List.cons_append, ← List.append_assoc] at hsplit
      exact h.turns before pull after (List.append_inj' hsplit rfl).1

/-- Whatever the stream, the loop pulls no chunk once its budget is used up. -/
theorem readChunks_bounded {reading : Reading} {stream rest : List Chunk}
    (h : reading.Bounded stream rest) (hroom : reading.total < maxScanBytes) :
    (readChunks rest reading).1.Bounded stream (readChunks rest reading).2 := by
  induction rest generalizing reading with
  | nil => exact h
  | cons chunk rest ih =>
    have hpull := Reading.pull_bounded h hroom
    rw [readChunks]
    split
    · exact hpull
    · rename_i hmore
      exact ih hpull (Nat.lt_of_not_le hmore)

/-- However a stream is cut, the loop keeps its first `maxScanBytes` bytes. -/
theorem readChunks_eq (chunks : List Chunk) {reading : Reading} (htotal : reading.total = reading.chunks.flatten.length)
    (hroom : reading.total ≤ maxScanBytes) : (readChunks chunks reading).1.chunks.flatten =
      (reading.chunks.flatten ++ chunks.flatMap Chunk.bytes).take maxScanBytes := by
  induction chunks generalizing reading with
  | nil => rw [readChunks, List.flatMap_nil, List.append_nil, List.take_of_length_le (htotal ▸ hroom)]
  | cons chunk chunks ih =>
    have hslice : (reading.pull chunk).chunks.flatten =
        (reading.chunks.flatten ++ chunk.bytes).take maxScanBytes := by
      rw [List.take_append, List.take_of_length_le (htotal ▸ hroom), ← htotal]
      simp [Reading.pull]
    have hlength : (reading.pull chunk).total = (reading.pull chunk).chunks.flatten.length := by
      simp [Reading.pull, htotal]
    rw [readChunks, List.flatMap_cons, ← List.append_assoc, List.take_append]
    split
    · -- the slice filled the budget, nothing of the later chunks fits
      rename_i hfull
      rw [hlength, hslice, List.length_take] at hfull
      rw [Nat.sub_eq_zero_of_le (by omega), List.take_zero, List.append_nil]
      exact hslice
    · -- the whole chunk fitted
      rename_i hmore
      have hwhole : (reading.chunks.flatten ++ chunk.bytes).length ≤ maxScanBytes := by
        rw [hlength, hslice, List.length_take] at hmore
        omega
      rw [ih hlength (Nat.le_of_not_le hmore), hslice, List.take_of_length_le hwhole, List.take_append,
        List.take_of_length_le hwhole]

theorem readPrefix_eq (body : UploadBody) : readPrefix body = decodeUtf8 (body.bytes.take maxScanBytes) := by
  cases body with
  | buffer bytes => rfl
  | stream chunks => exact congrArg decodeUtf8 (readChunks_eq chunks rfl (Nat.zero_le _))

def Infected (bytes : List Byte) : Prop := encodeUtf8 infectedMarker <:+: bytes.take maxScanBytes

def Inconclusive (bytes : List Byte) : Prop := encodeUtf8 unknownMarker <:+: bytes.take maxScanBytes

instance (bytes : List Byte) : Decidable (Infected bytes) := inferInstanceAs (Decidable (_ <:+: _))

instance (bytes : List Byte) : Decidable (Inconclusive bytes) := inferInstanceAs (Decidable (_ <:+: _))

/-- The text that is searched holds a marker exactly when the first bytes hold its bytes. -/
theorem markers_in_readPrefix (body : UploadBody) :
    (infectedMarker <:+: readPrefix body ↔ Infected body.bytes) ∧
    (unknownMarker <:+: readPrefix body ↔ Inconclusive body.bytes) := by
  rw [readPrefix_eq]
  exact ⟨ascii_infix_decodeUtf8 (by decide : IsAscii infectedMarker) (by decide) _,
    ascii_infix_decodeUtf8 (by decide : IsAscii unknownMarker) (by decide) _⟩

theorem verdict_status_iff (text : JsString) :
    ((verdict text).status = .infected ↔ infectedMarker <:+: text) ∧
    ((verdict text).status = .clean ↔ ¬ infectedMarker <:+: text ∧ ¬ unknownMarker <:+: text) := by
  unfold verdict
  split
  · rename_i h
    simp [h]
  · rename_i h
    split
    · rename_i h'
      simp [h, h']
    · rename_i h'
      simp [h, h']

/-- The verdict on a body is about its bytes: decoding them loses no marker and makes none. -/
theorem scan_status (body : UploadBody) (key : JsString) :
    ((scan ⟨some body, key⟩).status = .infected ↔ Infected body.bytes) ∧
    ((scan ⟨some body, key⟩).status = .clean ↔ ¬ Infected body.bytes ∧ ¬ Inconclusive body.bytes) := by
  obtain ⟨hinfected, hunknown⟩ := markers_in_readPrefix body
  rw [← hinfected, ← hunknown]
  exact verdict_status_iff (readPrefix body)

end MarkerFileScanner

end NestStorageExample.Api
