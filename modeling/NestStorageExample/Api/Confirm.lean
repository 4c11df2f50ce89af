import NestStorageExample.Api.MarkerFileScanner
import NestStorageExample.Storage.InMemory

/-! The check of an object that landed through a presigned PUT: the size and MIME
policy on its metadata, and a scan of its first bytes that removes what is infected. -/
namespace NestStorageExample.Api
open Text Effects Storage

inductive ScanStatus where
  | clean
  | infected
  | unknown
  | skipped
  deriving DecidableEq, Repr

structure ScanVerdict where
  status : ScanStatus
  threat : Option JsString
  deriving DecidableEq

/-- `IConfirmScanner.scan`, given a key and its bucket. -/
abbrev ConfirmScanner (W : Type) := JsString → JsString → Async Rejection W ScanVerdict

structure ValidationPolicy where
  maxSizeBytes : Option Nat
  mimeWhitelist : Option (List JsString)

/-- The resolved options of the storage module, as far as confirm reads them. -/
structure StoragePolicyOptions where
  bucket : JsString
  validation : Option ValidationPolicy

structure ConfirmChecks where
  sizeWithinPolicy : Bool
  mimeAllowed : Bool
  scanClean : Bool

structure ConfirmResult where
  confirmed : Bool
  key : JsString
  metadata : ObjectMetadata
  scan : ScanVerdict
  checks : ConfirmChecks
  note : String

def bypassNote : String :=
  "A presigned PUT bypasses server-side MIME/size validation by design; this confirm re-checks the landed " ++
  "object as the mitigation: its size against the server's CONFIGURED size policy (not any per-request value), " ++
  "its content type against the configured MIME whitelist, and a real scanner verdict (a bounded prefix of the " ++
  "object is downloaded and scanned; an infected object is removed). confirmed is true only when all three pass, " ++
  "and scanClean requires an actual clean verdict, so an unknown or infected object stays unconfirmed (spec §16)."

def isMimeAllowed (contentType : Option JsString) (whitelist : List JsString) : Bool :=
  match contentType with
  | none => false
  | some contentType =>
    if contentType.length = 0 then false
    else whitelist.any fun entry =>
      if entry = js "*" ∨ entry = js "*/*" then true
      else if js "/*" <:+ entry then decide (entry.dropLast <+: contentType)
      else decide (entry = contentType)

namespace ScannerConfirm

def scanPrefixBytes : Nat := 4096

def scanRange : JsString := js s!"bytes=0-{scanPrefixBytes - 1}"

def status : FileScanStatus → ScanStatus
  | .clean => .clean
  | .infected => .infected
  | .unknown => .unknown

def scan {W : Type} (storage : StorageService W) : ConfirmScanner W := fun key bucket => do
  let download ← storage.download ⟨key, some bucket, some scanRange⟩
  let result := MarkerFileScanner.scan ⟨some (.stream download.stream), key⟩
  if result.status = .infected then do
    storage.delete key (some bucket)
    return ⟨.infected, result.threat⟩
  else return ⟨status result.status, none⟩

end ScannerConfirm

namespace ConfirmService
variable {W : Type} (storage : StorageService W) (options : StoragePolicyOptions) (scanner : ConfirmScanner W)

def isSizeWithinPolicy (size : Nat) : Bool :=
  match options.validation.bind ValidationPolicy.maxSizeBytes with
  | none => true
  | some max => decide (size ≤ max)

def isMimeWithinPolicy (contentType : Option JsString) : Bool :=
  match options.validation.bind ValidationPolicy.mimeWhitelist with
  | none => true
  | some whitelist => if whitelist.length = 0 then true else isMimeAllowed contentType whitelist

/-- What `confirm` returns once the metadata is read and the scan is done. -/
def report (key : JsString) (metadata : ObjectMetadata) (scan : ScanVerdict) : ConfirmResult :=
  let sizeWithinPolicy := isSizeWithinPolicy options metadata.size
  let mimeAllowed := isMimeWithinPolicy options metadata.contentType
  let scanClean := decide (scan.status = .clean)
  ⟨sizeWithinPolicy && mimeAllowed && scanClean, key, metadata, scan, ⟨sizeWithinPolicy, mimeAllowed, scanClean⟩,
    bypassNote⟩

def confirm (key : JsString) : Async Rejection W ConfirmResult := do
  let metadata ← storage.head key none
  let scan ← scanner key options.bucket
  return report options key metadata scan

end ConfirmService

/-- A size cap, where there is one, is kept. -/
def SizeWithin (validation : Option ValidationPolicy) (size : Nat) : Prop :=
  ∀ policy ∈ validation, ∀ max ∈ policy.maxSizeBytes, size ≤ max

/-- `*` and `*/*` match every type, `type/*` what begins with `type/`, any other entry itself. -/
def MimeMatches (entry contentType : JsString) : Prop :=
  entry = js "*" ∨ entry = js "*/*" ∨
    (∃ type, entry = type ++ js "/*" ∧ type ++ js "/" <+: contentType) ∨ entry = contentType

/-- A whitelist, where there is a nonempty one, has an entry for the type. -/
def MimeWithin (validation : Option ValidationPolicy) (contentType : Option JsString) : Prop :=
  ∀ policy ∈ validation, ∀ whitelist ∈ policy.mimeWhitelist, whitelist ≠ [] →
    ∃ type ∈ contentType, type ≠ [] ∧ ∃ entry ∈ whitelist, MimeMatches entry type

/-- What the wildcard entry `type/*` asks for. -/
private theorem wildcard_iff {entry : JsString} (h : js "/*" <:+ entry) (contentType : JsString) :
    entry.dropLast <+: contentType ↔ ∃ type, entry = type ++ js "/*" ∧ type ++ js "/" <+: contentType := by
  have hdrop : ∀ type, (type ++ js "/*").dropLast = type ++ js "/" := fun type =>
    List.dropLast_append_of_ne_nil (by decide : js "/*" ≠ [])
  constructor
  · intro hstarts
    obtain ⟨type, rfl⟩ := h
    exact ⟨type, rfl, by rwa [hdrop] at hstarts⟩
  · rintro ⟨type, rfl, hstarts⟩
    rwa [hdrop]

private theorem entry_matches (entry contentType : JsString) :
    (if entry = js "*" ∨ entry = js "*/*" then true
      else if js "/*" <:+ entry then decide (entry.dropLast <+: contentType)
      else decide (entry = contentType)) = true ↔ MimeMatches entry contentType := by
  unfold MimeMatches
  split
  · rename_i hstar
    exact iff_of_true rfl (hstar.elim Or.inl (fun h => Or.inr (Or.inl h)))
  · rename_i hstar
    split
    · rename_i hwildcard
      rw [decide_eq_true_iff]
      constructor
      · exact fun h => Or.inr (Or.inr (Or.inl ((wildcard_iff hwildcard contentType).mp h)))
      · rintro (h | h | h | rfl)
        · exact absurd (Or.inl h) hstar
        · exact absurd (Or.inr h) hstar
        · exact (wildcard_iff hwildcard contentType).mpr h
        · exact List.dropLast_prefix entry
    · rename_i hwildcard
      rw [decide_eq_true_iff]
      constructor
      · exact fun h => Or.inr (Or.inr (Or.inr h))
      · rintro (h | h | ⟨type, rfl, -⟩ | h)
        · exact absurd (Or.inl h) hstar
        · exact absurd (Or.inr h) hstar
        · exact absurd (List.suffix_append type _) hwildcard
        · exact h

theorem isMimeAllowed_iff (contentType : Option JsString) (whitelist : List JsString) :
    isMimeAllowed contentType whitelist = true ↔
      ∃ type ∈ contentType, type ≠ [] ∧ ∃ entry ∈ whitelist, MimeMatches entry type := by
  cases contentType with
  | none => simp [isMimeAllowed]
  | some type =>
    by_cases hempty : type = []
    · simp [isMimeAllowed, hempty]
    · have hlength : ¬ type.length = 0 := fun h => hempty (List.length_eq_zero_iff.mp h)
      simp only [isMimeAllowed, if_neg hlength, List.any_eq_true, entry_matches, Option.mem_def, Option.some.injEq,
        exists_eq_left', ne_eq, hempty, not_false_eq_true, true_and]

theorem isSizeWithinPolicy_iff (options : StoragePolicyOptions) (size : Nat) :
    ConfirmService.isSizeWithinPolicy options size = true ↔ SizeWithin options.validation size := by
  obtain ⟨bucket, _ | ⟨_ | max, whitelist⟩⟩ := options <;> simp [ConfirmService.isSizeWithinPolicy, SizeWithin]

theorem isMimeWithinPolicy_iff (options : StoragePolicyOptions) (contentType : Option JsString) :
    ConfirmService.isMimeWithinPolicy options contentType = true ↔ MimeWithin options.validation contentType := by
  obtain ⟨bucket, _ | ⟨max, _ | whitelist⟩⟩ := options
  · simp [ConfirmService.isMimeWithinPolicy, MimeWithin]
  · simp [ConfirmService.isMimeWithinPolicy, MimeWithin]
  · by_cases hempty : whitelist = []
    · simp [ConfirmService.isMimeWithinPolicy, MimeWithin, hempty]
    · simp [ConfirmService.isMimeWithinPolicy, MimeWithin, hempty, isMimeAllowed_iff]

/-- The three gates of the report. -/
theorem report_confirmed_iff (options : StoragePolicyOptions) (key : JsString) (metadata : ObjectMetadata)
    (scan : ScanVerdict) : (ConfirmService.report options key metadata scan).confirmed = true ↔
      SizeWithin options.validation metadata.size ∧ MimeWithin options.validation metadata.contentType ∧
        scan.status = .clean := by
  simp only [ConfirmService.report, Bool.and_eq_true, isSizeWithinPolicy_iff, isMimeWithinPolicy_iff,
    decide_eq_true_iff, and_assoc]

theorem scanRange_eq : ScannerConfirm.scanRange = js "bytes=0-4095" := by decide

section Runs
variable {W : Type} (storage : StorageService W) (options : StoragePolicyOptions) {key : JsString} {w w₁ w₂ w₃ : W}
  {metadata : ObjectMetadata} {download : DownloadResult}

/-- A scan of bytes that are not infected makes no call after the download. -/
theorem confirm_not_infected (hhead : storage.head key none w = (.ok metadata, w₁))
    (hdownload : storage.download ⟨key, some options.bucket, some (js "bytes=0-4095")⟩ w₁ = (.ok download, w₂))
    (hbytes : ¬ MarkerFileScanner.Infected (download.stream.flatMap Chunk.bytes)) :
    ∃ scan : ScanVerdict,
      (scan.status = .clean ↔ ¬ MarkerFileScanner.Inconclusive (download.stream.flatMap Chunk.bytes)) ∧
      ConfirmService.confirm storage options (ScannerConfirm.scan storage) key w =
        (.ok (ConfirmService.report options key metadata scan), w₂) := by
  obtain ⟨hinfected, hclean⟩ := MarkerFileScanner.scan_status (.stream download.stream) key
  have hstatus : ∀ s, ScannerConfirm.status s = .clean ↔ s = .clean := by
    intro s
    cases s <;> decide
  have hscan : ScannerConfirm.scan storage key options.bucket w₁ = (.ok
      ⟨ScannerConfirm.status (MarkerFileScanner.scan ⟨some (.stream download.stream), key⟩).status, none⟩, w₂) := by
    rw [ScannerConfirm.scan, scanRange_eq, Async.bind_of_ok hdownload]
    rw [Async.ite_apply, if_neg (mt hinfected.mp hbytes), Async.pure_apply]
  refine ⟨_, ?_, by rw [ConfirmService.confirm, Async.bind_of_ok hhead, Async.bind_of_ok hscan, Async.pure_apply]⟩
  rw [hstatus, hclean]
  exact and_iff_right hbytes

/-- A scan of infected bytes deletes, and nothing is confirmed. -/
theorem confirm_infected (hhead : storage.head key none w = (.ok metadata, w₁))
    (hdownload : storage.download ⟨key, some options.bucket, some (js "bytes=0-4095")⟩ w₁ = (.ok download, w₂))
    (hbytes : MarkerFileScanner.Infected (download.stream.flatMap Chunk.bytes))
    (hdelete : storage.delete key (some options.bucket) w₂ = (.ok (), w₃)) :
    ∃ threat, ConfirmService.confirm storage options (ScannerConfirm.scan storage) key w =
        (.ok (ConfirmService.report options key metadata ⟨.infected, threat⟩), w₃) := by
  obtain ⟨hinfected, -⟩ := MarkerFileScanner.scan_status (.stream download.stream) key
  have hscan : ScannerConfirm.scan storage key options.bucket w₁ =
      (.ok ⟨.infected, (MarkerFileScanner.scan ⟨some (.stream download.stream), key⟩).threat⟩, w₃) := by
    rw [ScannerConfirm.scan, scanRange_eq, Async.bind_of_ok hdownload]
    rw [Async.ite_apply, if_pos (hinfected.mpr hbytes), Async.bind_of_ok hdelete, Async.pure_apply]
  exact ⟨_, by rw [ConfirmService.confirm, Async.bind_of_ok hhead, Async.bind_of_ok hscan, Async.pure_apply]⟩

end Runs

variable {W : Type} {provider : Provider W}

private theorem scanned_take (bytes : List Byte) :
    (bytes.take 4096).take MarkerFileScanner.maxScanBytes = bytes.take MarkerFileScanner.maxScanBytes := by
  rw [MarkerFileScanner.maxScanBytes, List.take_take, Nat.min_self]

/-- The range that is downloaded holds all that the scanner looks at. -/
theorem infected_take (bytes : List Byte) :
    MarkerFileScanner.Infected (bytes.take 4096) ↔ MarkerFileScanner.Infected bytes := by
  rw [MarkerFileScanner.Infected, scanned_take, MarkerFileScanner.Infected]

theorem inconclusive_take (bytes : List Byte) :
    MarkerFileScanner.Inconclusive (bytes.take 4096) ↔ MarkerFileScanner.Inconclusive bytes := by
  rw [MarkerFileScanner.Inconclusive, scanned_take, MarkerFileScanner.Inconclusive]

/-- What `confirm` has to say of an object, in the words of the policy. -/
structure Passes (validation : Option ValidationPolicy) (object : StoredObject) : Prop where
  size : SizeWithin validation object.metadata.size
  mime : MimeWithin validation object.metadata.contentType
  not_infected : ¬ MarkerFileScanner.Infected object.body
  not_inconclusive : ¬ MarkerFileScanner.Inconclusive object.body

/-- Alone with the bucket, `confirm` resolves; it confirms exactly what passes the policy
and the scan, and removes exactly what is infected. -/
theorem confirm_exact (hhead : provider.HeadContract) (hdownload : provider.DownloadContract)
    (hdelete : provider.DeleteContract) (validation : Option ValidationPolicy) {key : JsString} {slot : Slot}
    {object : StoredObject} {w : W} (hslot : provider.slot none key = some slot)
    (hobject : (provider.store w).lookup slot = some object) (hbody : object.body ≠ []) :
    (ConfirmService.confirm provider.service ⟨provider.bucket, validation⟩ (ScannerConfirm.scan provider.service)
      key).Settles w
      (fun result w' => (result.confirmed = true ↔ Passes validation object) ∧
        (MarkerFileScanner.Infected object.body → provider.store w' = (provider.store w).erase slot) ∧
        (¬ MarkerFileScanner.Infected object.body → provider.store w' = provider.store w))
      (fun _ _ => False) := by
  obtain ⟨metadata, w₁, hrun₁, rfl, hstore₁⟩ := (hhead.present hslot hobject).exists_ok
  rw [← hstore₁] at hobject
  have hslot' : provider.slot (some provider.bucket) key = some slot := hslot
  obtain ⟨download, w₂, hrun₂, hstream, -, hstore₂⟩ := (hdownload hslot' hobject hbody).exists_ok
  by_cases hinfected : MarkerFileScanner.Infected object.body
  · obtain ⟨_, w₃, hrun₃, hstore₃⟩ := (@hdelete _ _ _ w₂ hslot').exists_ok
    have hbytes := (infected_take object.body).mpr hinfected
    rw [← hstream] at hbytes
    obtain ⟨threat, hrun⟩ :=
      confirm_infected provider.service ⟨provider.bucket, validation⟩ hrun₁ hrun₂ hbytes hrun₃
    rw [Async.Settles, hrun]
    refine ⟨iff_of_false ?_ (fun h => h.not_infected hinfected), fun _ => ?_, fun h => absurd hinfected h⟩
    · rw [report_confirmed_iff]
      rintro ⟨-, -, hclean⟩
      cases hclean
    · rw [hstore₃, hstore₂, hstore₁]
  · have hbytes := mt (infected_take object.body).mp hinfected
    rw [← hstream] at hbytes
    obtain ⟨scan, hclean, hrun⟩ :=
      confirm_not_infected provider.service ⟨provider.bucket, validation⟩ hrun₁ hrun₂ hbytes
    rw [hstream, inconclusive_take] at hclean
    rw [Async.Settles, hrun]
    refine ⟨?_, fun h => absurd h hinfected, fun _ => by rw [hstore₂, hstore₁]⟩
    rw [report_confirmed_iff, hclean]
    exact ⟨fun h => ⟨h.1, h.2.1, hinfected, h.2.2⟩, fun h => ⟨h.size, h.mime, h.not_inconclusive⟩⟩

def shortText : StoredObject := .plain [104, 105] (some (js "text/plain")) [] 0

def shortTextStore : Store := (∅ : Store).insert ⟨js "vault", js "media/a.txt"⟩ shortText

/-- A short text under a policy that takes texts of up to ten bytes. -/
theorem confirm_exact_text :
    (ConfirmService.confirm (Memory.provider (js "vault")).service
      ⟨js "vault", some ⟨some 10, some [js "image/png", js "text/*"]⟩⟩
      (ScannerConfirm.scan (Memory.provider (js "vault")).service) (js "media/a.txt")).Settles
      ⟨shortTextStore, 1⟩
      (fun result w' =>
        (result.confirmed = true ↔ Passes (some ⟨some 10, some [js "image/png", js "text/*"]⟩) shortText) ∧
        (MarkerFileScanner.Infected shortText.body →
          w'.store = shortTextStore.erase ⟨js "vault", js "media/a.txt"⟩) ∧
        (¬ MarkerFileScanner.Infected shortText.body → w'.store = shortTextStore))
      (fun _ _ => False) :=
  confirm_exact (Memory.head_contract _) (Memory.download_contract _) (Memory.delete_contract _) _
    (by decide : (Memory.provider (js "vault")).slot none (js "media/a.txt") = some ⟨js "vault", js "media/a.txt"⟩)
    (Finmap.lookup_insert _) (List.cons_ne_nil _ _)

end NestStorageExample.Api
