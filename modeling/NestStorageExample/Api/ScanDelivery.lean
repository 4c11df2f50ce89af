import NestStorageExample.Api.Confirm

/-! The scanner reads the same of a body however it arrives: whole, in chunks, or cut to the
bytes it looks at; so a scan at confirm says what a scan before the upload would have said. -/
namespace NestStorageExample.Api
open Text Effects Storage

namespace MarkerFileScanner

/-- What the first bytes say. -/
def markerResult (bytes : List Byte) : FileScanResult :=
  if Infected bytes then ⟨.infected, engineName, some threatName⟩
  else if Inconclusive bytes then ⟨.unknown, engineName, none⟩
  else ⟨.clean, engineName, none⟩

theorem scan_eq (body : UploadBody) (key : JsString) : scan ⟨some body, key⟩ = markerResult body.bytes := by
  obtain ⟨hinfected, hunknown⟩ := markers_in_readPrefix body
  change verdict (readPrefix body) = markerResult body.bytes
  rw [verdict, markerResult]
  exact if_congr hinfected rfl (if_congr hunknown rfl rfl)

/-- Only an infected result names a threat. -/
theorem markerResult_threat {bytes : List Byte} (h : (markerResult bytes).status ≠ .infected) :
    (markerResult bytes).threat = none := by
  unfold markerResult at h ⊢
  split at h
  · exact absurd rfl h
  · rename_i hinfected
    rw [if_neg hinfected]
    split <;> rfl

end MarkerFileScanner

/-- The bytes that are looked at decide the result. -/
theorem markerResult_take (bytes : List Byte) :
    MarkerFileScanner.markerResult (bytes.take 4096) = MarkerFileScanner.markerResult bytes :=
  if_congr (infected_take bytes) rfl (if_congr (inconclusive_take bytes) rfl rfl)

namespace ScannerConfirm
open MarkerFileScanner
variable {W : Type} {provider : Provider W}

/-- The verdict in the words of confirm. -/
def verdictOf (result : FileScanResult) : ScanVerdict := ⟨status result.status, result.threat⟩

/-- Without a provider fault the scan of an object that has any bytes resolves, and says of
it what its bytes say. -/
theorem scan_settles (hdownload : provider.DownloadContract) (hdelete : provider.DeleteContract)
    {key bucket : JsString} {slot : Slot} {object : StoredObject} {w : W}
    (hslot : provider.slot (some bucket) key = some slot) (hobject : (provider.store w).lookup slot = some object)
    (hbody : object.body ≠ []) : (ScannerConfirm.scan provider.service key bucket).Settles w
      (fun verdict _ => verdict = verdictOf (markerResult object.body)) (fun _ _ => False) := by
  rw [ScannerConfirm.scan, scanRange_eq]
  refine (hdownload hslot hobject hbody).bind ?_ (fun _ _ h => h)
  rintro download w₁ ⟨hstream, -, -⟩
  have hresult : MarkerFileScanner.scan ⟨some (.stream download.stream), key⟩ = markerResult object.body := by
    rw [MarkerFileScanner.scan_eq]
    change markerResult (download.stream.flatMap Chunk.bytes) = _
    rw [hstream]
    exact markerResult_take object.body
  dsimp only
  rw [hresult]
  split
  · rename_i hinfected
    refine (@hdelete _ _ _ w₁ hslot).bind ?_ (fun _ _ h => h)
    intro _ w₂ _
    refine Async.settles_pure ?_
    rw [verdictOf, hinfected]
    rfl
  · rename_i hinfected
    refine Async.settles_pure ?_
    rw [verdictOf]
    rw [markerResult_threat hinfected]

end ScannerConfirm

section Delivery
open MarkerFileScanner
variable {W : Type} {provider : Provider W}

/-- However `bytes` is cut into chunks the scan of the stream, of the buffer and of the first
bytes alone are one result, the one the markers in those bytes call for; the stream is pulled
only while there is room; and confirm gives a stored object the same verdict. -/
theorem scan_independent_of_delivery (hdownload : provider.DownloadContract) (hdelete : provider.DeleteContract)
    {bytes : List Byte} {chunks : List Chunk} (hchunks : chunks.flatMap Chunk.bytes = bytes) (key : JsString) :
    scan ⟨some (.stream chunks), key⟩ = markerResult bytes ∧
    scan ⟨some (.buffer bytes), key⟩ = markerResult bytes ∧
    scan ⟨some (.buffer (bytes.take (min 4096 bytes.length))), key⟩ = markerResult bytes ∧
    readPrefix (.stream chunks) = decodeUtf8 (readChunks chunks .start).1.chunks.flatten ∧
    (readChunks chunks .start).1.Bounded chunks (readChunks chunks .start).2 ∧
    ∀ bucket slot object w, provider.slot (some bucket) key = some slot →
      (provider.store w).lookup slot = some object → object.body = bytes → bytes ≠ [] →
      (ScannerConfirm.scan provider.service key bucket).Settles w
        (fun verdict _ => verdict = ScannerConfirm.verdictOf (scan ⟨some (.stream chunks), key⟩))
        (fun _ _ => False) := by
  have hstream : scan ⟨some (.stream chunks), key⟩ = markerResult bytes := by
    rw [scan_eq]
    exact congrArg markerResult hchunks
  refine ⟨hstream, scan_eq _ _, ?_, rfl, readChunks_bounded (Reading.start_bounded chunks) (by decide), ?_⟩
  · rw [scan_eq]
    change markerResult (bytes.take (min 4096 bytes.length)) = _
    rw [← List.take_eq_take_min, markerResult_take]
  · rintro bucket slot object w hslot hobject rfl hbody
    rw [hstream]
    exact ScannerConfirm.scan_settles hdownload hdelete hslot hobject hbody

def straddled : List Chunk :=
  [.buffer (encodeUtf8 (js "X-DEMO-")), .buffer [], .buffer (encodeUtf8 (js "INFECTED"))]

def straddledSlot : Slot := ⟨js "vault", js "media/a"⟩

def straddledVault : Memory :=
  ⟨(∅ : Store).insert straddledSlot (StoredObject.plain (encodeUtf8 infectedMarker) (some (js "text/plain")) [] 0), 1⟩

/-- A marker cut in two by a chunk border, and an object that holds it. -/
theorem straddled_marker_found :
    scan ⟨some (.stream straddled), js "media/a"⟩ = ⟨.infected, engineName, some threatName⟩ ∧
    (ScannerConfirm.scan (Memory.provider (js "vault")).service (js "media/a") (js "vault")).Settles straddledVault
      (fun verdict _ => verdict = ⟨.infected, some threatName⟩) (fun _ _ => False) := by
  have hchunks : straddled.flatMap Chunk.bytes = encodeUtf8 infectedMarker := by decide
  have hresult : markerResult (encodeUtf8 infectedMarker) = ⟨.infected, engineName, some threatName⟩ := by decide
  obtain ⟨hstream, -, -, -, -, hstored⟩ := scan_independent_of_delivery (Memory.download_contract (js "vault"))
    (Memory.delete_contract (js "vault")) hchunks (js "media/a")
  have hverdict := hstored (js "vault") straddledSlot _ straddledVault (by decide) (Finmap.lookup_insert _) rfl
    (by decide)
  rw [hstream, hresult] at hverdict
  rw [hstream, hresult]
  exact ⟨rfl, hverdict⟩

end Delivery

end NestStorageExample.Api
