import NestStorageExample.Api.MarkerFileScanner
import NestStorageExample.Api.Uploads

/-! The scanner lab: the verdict on the submitted text is written into the key, so that a
scanner which only sees the key comes to the same verdict. -/
namespace NestStorageExample.Api
open Text Effects Storage
variable {W : Type}

structure ScannerUploadBody where
  content : JsString
  keySeed : Option KeySeed

structure ScannerUploadResult where
  result : UploadResult
  key : JsString
  verdict : FileScanResult
  warning : Option String

def unknownAcceptedWarning : String :=
  "The scanner returned an inconclusive (unknown) verdict; it was accepted because rejectOnUnknown is off. Set " ++
  "SCANNER_REJECT_ON_UNKNOWN=true to reject unknown verdicts with 422 STORAGE_SCAN_INCONCLUSIVE."

def markerLabel : FileScanStatus → JsString
  | .infected => MarkerFileScanner.infectedMarker ++ js "--"
  | .unknown => MarkerFileScanner.unknownMarker ++ js "--"
  | .clean => []

def scannerLabKey (status : FileScanStatus) (keySeed : Option KeySeed) (uuid : Uuid) : JsString :=
  js "scanner-lab" ++ slash :: (markerLabel status ++ keySeed.elim uuid.text KeySeed.text)

def ScannerLabService.upload (storage : StorageService W) (body : ScannerUploadBody) (uuid : Uuid) :
    Async Rejection W ScannerUploadResult := do
  let buffer := encodeUtf8 body.content
  let verdict := MarkerFileScanner.scan ⟨some (.buffer buffer), js "scanner-lab/diagnostic-probe"⟩
  let key := scannerLabKey verdict.status body.keySeed uuid
  let result ← storage.upload (plainUploadOptions key (.buffer buffer) (js "text/plain") (some buffer.length))
  return ⟨result, key, verdict, if verdict.status = .unknown then some unknownAcceptedWarning else none⟩

theorem markerLabel_plain (status : FileScanStatus) : PlainSegment (markerLabel status) := by
  cases status <;> decide

theorem KeySeed.ne_nil (seed : KeySeed) : seed.text ≠ [] := by
  intro h
  have hlength := seed.accepted _ List.mem_cons_self
  rw [h] at hlength
  cases hlength

theorem keySeed_elim_plain (keySeed : Option KeySeed) (uuid : Uuid) :
    PlainSegment (keySeed.elim uuid.text KeySeed.text) ∧ keySeed.elim uuid.text KeySeed.text ≠ [] := by
  cases keySeed with
  | none => exact ⟨uuid.plain, uuid.ne_nil⟩
  | some seed => exact ⟨seed.plain, seed.ne_nil⟩

/-- The key `upload` composes: it carries the verdict on the content. -/
def ScannerLabService.uploadedKey (body : ScannerUploadBody) (uuid : Uuid) : JsString :=
  scannerLabKey (MarkerFileScanner.scan ⟨some (.buffer (encodeUtf8 body.content)),
    js "scanner-lab/diagnostic-probe"⟩).status body.keySeed uuid

theorem ScannerLabService.upload_asks (storage : StorageService W) (body : ScannerUploadBody) (uuid : Uuid) :
    ∃ answer, ScannerLabService.upload storage body uuid =
      storage.upload (plainUploadOptions (ScannerLabService.uploadedKey body uuid)
        (.buffer (encodeUtf8 body.content)) (js "text/plain") (some (encodeUtf8 body.content).length)) >>= answer :=
  ⟨_, rfl⟩

section ScanModes
open MarkerFileScanner

/-- The front of a key without a marker, and of one that carries the unknown marker: no end
of it begins a marker that runs on into the seed. -/
theorem infected_apart_of_front : ∀ front ∈ [js "scanner-lab/", js "scanner-lab/X-DEMO-UNKNOWN--"],
    ∀ tail ∈ front.tails, tail ≠ [] → ¬ infectedMarker <+: tail ∧ ¬ tail <+: infectedMarker := by
  decide

theorem unknown_apart_of_front : ∀ tail ∈ (js "scanner-lab/").tails, tail ≠ [] →
    ¬ unknownMarker <+: tail ∧ ¬ tail <+: unknownMarker := by
  decide

theorem scannerLabKey_eq (status : FileScanStatus) (keySeed : Option KeySeed) (uuid : Uuid) :
    scannerLabKey status keySeed uuid =
      js "scanner-lab/" ++ (markerLabel status ++ keySeed.elim uuid.text KeySeed.text) := rfl

/-- The scanner finds the infected marker in a key where the label or the seed has it. -/
theorem infectedMarker_infix_key (status : FileScanStatus) (keySeed : Option KeySeed) (uuid : Uuid) :
    infectedMarker <:+: scannerLabKey status keySeed uuid ↔
      status = .infected ∨ infectedMarker <:+: keySeed.elim uuid.text KeySeed.text := by
  rw [scannerLabKey_eq]
  cases status with
  | clean =>
    rw [or_iff_right (by decide)]
    exact infix_append_iff_of_apart (infected_apart_of_front _ List.mem_cons_self) _
  | unknown =>
    rw [or_iff_right (by decide), ← List.append_assoc]
    exact infix_append_iff_of_apart
      (infected_apart_of_front _ (List.mem_cons_of_mem _ List.mem_cons_self)) _
  | infected =>
    refine iff_of_true ⟨js "scanner-lab/", js "--" ++ keySeed.elim uuid.text KeySeed.text, ?_⟩ (Or.inl rfl)
    simp [markerLabel]

theorem unknownMarker_infix_key {status : FileScanStatus} (hstatus : status ≠ .infected) (keySeed : Option KeySeed)
    (uuid : Uuid) : unknownMarker <:+: scannerLabKey status keySeed uuid ↔
      status = .unknown ∨ unknownMarker <:+: keySeed.elim uuid.text KeySeed.text := by
  rw [scannerLabKey_eq]
  cases status with
  | clean =>
    rw [or_iff_right (by decide)]
    exact infix_append_iff_of_apart unknown_apart_of_front _
  | unknown =>
    refine iff_of_true ⟨js "scanner-lab/", js "--" ++ keySeed.elim uuid.text KeySeed.text, ?_⟩ (Or.inl rfl)
    simp [markerLabel]
  | infected => exact absurd rfl hstatus

/-- A generated name has no capital, so it spells no marker. -/
theorem Uuid.no_marker (uuid : Uuid) : ¬ infectedMarker <:+: uuid.text ∧ ¬ unknownMarker <:+: uuid.text := by
  have hcapital : 0x58 ∉ uuid.text := by
    intro hx
    obtain ⟨position, h⟩ := uuid.units _ hx
    unfold isUuidUnit at h
    split_ifs at h <;> exact absurd h (by decide)
  exact ⟨fun h => hcapital (h.subset (by decide)), fun h => hcapital (h.subset (by decide))⟩

/-- The scanner's status of a key, from the status of the content and the seed. -/
theorem scan_key_status (status : FileScanStatus) (keySeed : Option KeySeed) (uuid : Uuid) :
    (scan ⟨none, scannerLabKey status keySeed uuid⟩).status = status ↔
      ∀ seed ∈ keySeed, status = .infected ∨
        (¬ infectedMarker <:+: seed.text ∧ (status = .unknown ∨ ¬ unknownMarker <:+: seed.text)) := by
  have hverdict := verdict_status_iff (scannerLabKey status keySeed uuid)
  rw [infectedMarker_infix_key] at hverdict
  obtain ⟨hinfected, hclean⟩ := hverdict
  have hseed (marker : JsString) (huuid : ¬ marker <:+: uuid.text) :
      ¬ marker <:+: keySeed.elim uuid.text KeySeed.text ↔ ∀ seed ∈ keySeed, ¬ marker <:+: seed.text := by
    cases keySeed <;> simp [huuid]
  have hfirst := hseed infectedMarker uuid.no_marker.1
  have hsecond := hseed unknownMarker uuid.no_marker.2
  change (verdict (scannerLabKey status keySeed uuid)).status = status ↔ _
  cases status with
  | infected => simp [hinfected]
  | unknown =>
    -- the label is there, so the status is `unknown` unless the seed makes it `infected`
    rw [unknownMarker_infix_key (by decide)] at hclean
    have hunknown : (verdict (scannerLabKey .unknown keySeed uuid)).status = .unknown ↔
        ¬ (verdict (scannerLabKey .unknown keySeed uuid)).status = .infected := by
      cases h : (verdict (scannerLabKey .unknown keySeed uuid)).status
      · simp [h] at hclean
      · decide
      · decide
    rw [hunknown, hinfected]
    simpa using hfirst
  | clean =>
    rw [unknownMarker_infix_key (by decide)] at hclean
    rw [hclean]
    simp only [reduceCtorEq, false_or]
    rw [hfirst, hsecond, ← forall₂_and]

/-- The two scan modes agree on exactly the bodies whose seed spells no marker that
outranks the verdict on the content. -/
theorem scan_modes_agree_iff (body : ScannerUploadBody) (uuid : Uuid) (key : JsString) :
    (scan ⟨none, ScannerLabService.uploadedKey body uuid⟩).status =
        (scan ⟨some (.buffer (encodeUtf8 body.content)), key⟩).status ↔
      ∀ seed ∈ body.keySeed, Infected (encodeUtf8 body.content) ∨
        (¬ infectedMarker <:+: seed.text ∧
          (Inconclusive (encodeUtf8 body.content) ∨ ¬ unknownMarker <:+: seed.text)) := by
  obtain ⟨hinfected, hclean⟩ := scan_status (.buffer (encodeUtf8 body.content)) key
  change (scan ⟨none, scannerLabKey (scan ⟨some (.buffer (encodeUtf8 body.content)), key⟩).status
    body.keySeed uuid⟩).status = _ ↔ _
  rw [scan_key_status, hinfected]
  refine forall₂_congr fun seed _ => or_congr_right' fun hnot => and_congr_right' (or_congr_left' fun _ => ?_)
  change _ ↔ Inconclusive (UploadBody.buffer (encodeUtf8 body.content)).bytes
  cases h : (scan ⟨some (.buffer (encodeUtf8 body.content)), key⟩).status
  · simp [(hclean.mp h).2]
  · exact absurd (hinfected.mp h) hnot
  · refine iff_of_true rfl (by_contra fun hn => ?_)
    rw [hclean.mpr ⟨hnot, hn⟩] at h
    cases h

/-- A clean content under a seed that spells the infected marker. -/
theorem seeded_marker_splits_modes :
    (scan ⟨some (.buffer (encodeUtf8 (js "clean content"))), []⟩).status = .clean ∧
    ∃ seed : KeySeed, seed.text = js "X-DEMO-INFECTED" ∧ ∃ uuid : Uuid,
      (scan ⟨none, ScannerLabService.uploadedKey ⟨js "clean content", some seed⟩ uuid⟩).status = .infected := by
  refine ⟨by decide, ⟨js "X-DEMO-INFECTED", by decide⟩, rfl,
    ⟨js "00000000-0000-4000-8000-000000000000", by decide⟩, by decide⟩

end ScanModes

end NestStorageExample.Api
