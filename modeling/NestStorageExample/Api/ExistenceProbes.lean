import NestStorageExample.Api.ScannerLab
import NestStorageExample.Api.VaultCopy

/-! Three probes for one object, over the library's two ways to ask for it, and which
of them can tell an outage from an absence. -/
namespace NestStorageExample.Api
open Text Effects Storage Async
variable {W : Type}

structure ScannerExistsResult where
  key : JsString
  present : Bool
  deriving DecidableEq

/-- `ScannerLabService.exists`, over the library's own `exists`. -/
def ScannerLabService.exists_ (libraryExists : JsString → Async Rejection W Bool) (key : JsString) :
    Async Rejection W ScannerExistsResult := do
  return ⟨key, ← libraryExists key⟩

def healthSentinelKey : JsString := js "health/sentinel"

inductive HealthStatus where
  | up
  | down
  deriving DecidableEq, Repr

structure HealthReport where
  status : HealthStatus
  latencyMs : Int
  bucket : JsString
  deriving DecidableEq

/-- The exception behind a 503, with the report it carries. -/
structure ServiceUnavailableException where
  report : HealthReport
  deriving DecidableEq

def ServiceUnavailableException.getStatus (_ : ServiceUnavailableException) : Nat := 503

/-- `HealthController.health`; `now` is the clock, read before and after the probe. -/
def HealthController.health (libraryExists : JsString → Async Rejection W Bool) (now : W → Int) (bucket : JsString) :
    Async ServiceUnavailableException W HealthReport := fun w =>
  match libraryExists healthSentinelKey w with
  | (.ok _, w') => (.ok ⟨.up, now w' - now w, bucket⟩, w')
  | (.error _, w') => (.error ⟨⟨.down, now w' - now w, bucket⟩⟩, w')

/-- What the provider had to say about an object. -/
inductive ProviderOutcome where
  | present
  | absent
  | fault
  deriving DecidableEq, Repr

/-- `head` rejects on every error, and one code is the confirmed absence. -/
def providerOutcome (storage : StorageService W) (key : JsString) (bucket : Option JsString) (w : W) : ProviderOutcome :=
  match (storage.head key bucket w).1 with
  | .ok _ => .present
  | .error (.storage ⟨.objectNotFound, _⟩) => .absent
  | .error _ => .fault

/-- The library's `exists` is a `head` in the default bucket with every error turned into `false`. -/
def BestEffort (storage : StorageService W) (libraryExists : JsString → Async Rejection W Bool) : Prop :=
  ∀ key w, libraryExists key w = (.ok (storage.head key none w).1.isOk, (storage.head key none w).2)

/-- A probe that answers what the provider said, and rejects when it said neither. -/
def ProbeTellsFaults (outcome : ProviderOutcome) (result : Except Rejection Bool) : Prop :=
  match outcome with
  | .present => result = .ok true
  | .absent => result = .ok false
  | .fault => ∃ error, result = .error error

/-- `up` where the provider responded, a 503 with `down` where it did not. -/
def HealthTellsFaults (outcome : ProviderOutcome) (result : Except ServiceUnavailableException HealthReport) : Prop :=
  match outcome with
  | .fault => ∃ error, result = .error error ∧ error.getStatus = 503 ∧ error.report.status = .down
  | _ => ∃ report, result = .ok report ∧ report.status = .up

section Probes
variable {storage : StorageService W} {libraryExists : JsString → Async Rejection W Bool}

/-- The three ways a `head` can settle. -/
theorem providerOutcome_cases (storage : StorageService W) (key : JsString) (bucket : Option JsString) (w : W) :
    (∃ metadata w', storage.head key bucket w = (.ok metadata, w') ∧
      providerOutcome storage key bucket w = .present) ∨
    (∃ details w', storage.head key bucket w = (.error (.storage ⟨.objectNotFound, details⟩), w') ∧
      providerOutcome storage key bucket w = .absent) ∨
    (∃ error w', storage.head key bucket w = (.error error, w') ∧
      providerOutcome storage key bucket w = .fault ∧ ∀ details, error ≠ .storage ⟨.objectNotFound, details⟩) := by
  unfold providerOutcome
  obtain ⟨result, w', h⟩ : ∃ result w', storage.head key bucket w = (result, w') := ⟨_, _, rfl⟩
  rw [h]
  cases result with
  | ok metadata => exact Or.inl ⟨metadata, w', rfl, rfl⟩
  | error error =>
    by_cases habsent : ∃ details, error = .storage ⟨.objectNotFound, details⟩
    · obtain ⟨details, rfl⟩ := habsent
      exact Or.inr (Or.inl ⟨details, w', rfl, rfl⟩)
    · simp only [not_exists] at habsent
      refine Or.inr (Or.inr ⟨error, w', rfl, ?_, habsent⟩)
      dsimp only
      split
      · cases ‹Except.error error = Except.ok _›
      · rename_i heq
        cases heq
        exact absurd rfl (habsent _)
      · rfl

/-- The vault asks `head`, and lets every error but the absence through. -/
theorem vault_probe_tells_faults (storage : StorageService W) (key : JsString) (bucket : Option JsString) (w : W) :
    ProbeTellsFaults (providerOutcome storage key bucket w) (VaultService.exists_ storage key bucket w).1 := by
  unfold VaultService.exists_
  obtain ⟨metadata, w', h, houtcome⟩ | ⟨details, w', h, houtcome⟩ | ⟨error, w', h, houtcome, hother⟩ :=
    providerOutcome_cases storage key bucket w
  · have hprobe : (storage.head key bucket >>= fun _ => pure true) w = (.ok true, w') := bind_of_ok h
    rw [houtcome, tryCatch_of_ok hprobe]
    rfl
  · have hprobe : (storage.head key bucket >>= fun _ => pure true) w = (.error _, w') := bind_of_error h
    rw [houtcome, tryCatch_of_error hprobe]
    rfl
  · have hprobe : (storage.head key bucket >>= fun _ => pure true) w = (.error error, w') := bind_of_error h
    rw [houtcome, tryCatch_of_error hprobe]
    refine ⟨error, ?_⟩
    split
    · exact absurd rfl (hother _)
    · rfl

/-- The best-effort `exists` says `false` for an absence and for a fault alike. -/
theorem bestEffort_run (hexists : BestEffort storage libraryExists) (key : JsString) (w : W) :
    ∃ w', libraryExists key w = (.ok (providerOutcome storage key none w = .present), w') := by
  refine ⟨(storage.head key none w).2, ?_⟩
  rw [hexists key w]
  obtain ⟨metadata, w', h, houtcome⟩ | ⟨details, w', h, houtcome⟩ | ⟨error, w', h, houtcome, -⟩ :=
    providerOutcome_cases storage key none w <;> rw [h, houtcome] <;> rfl

theorem scanner_probe_tells_faults_iff (hexists : BestEffort storage libraryExists) (key : JsString) (w : W) :
    ProbeTellsFaults (providerOutcome storage key none w)
      ((ScannerLabService.exists_ libraryExists key w).1.map ScannerExistsResult.present) ↔
    providerOutcome storage key none w ≠ .fault := by
  obtain ⟨w', h⟩ := bestEffort_run hexists key w
  rw [ScannerLabService.exists_, bind_of_ok h]
  cases providerOutcome storage key none w with
  | present => exact iff_of_true rfl (by decide)
  | absent => exact iff_of_true rfl (by decide)
  | fault =>
    refine iff_of_false ?_ (fun hne => hne rfl)
    rintro ⟨error, herror⟩
    cases herror

theorem health_tells_faults_iff (hexists : BestEffort storage libraryExists) (now : W → Int) (bucket : JsString) (w : W) :
    HealthTellsFaults (providerOutcome storage healthSentinelKey none w)
      (HealthController.health libraryExists now bucket w).1 ↔
    providerOutcome storage healthSentinelKey none w ≠ .fault := by
  obtain ⟨w', h⟩ := bestEffort_run hexists healthSentinelKey w
  rw [HealthController.health, h]
  cases providerOutcome storage healthSentinelKey none w with
  | present => exact iff_of_true ⟨_, rfl, rfl⟩ (by decide)
  | absent => exact iff_of_true ⟨_, rfl, rfl⟩ (by decide)
  | fault =>
    refine iff_of_false ?_ (fun hne => hne rfl)
    rintro ⟨error, herror, -⟩
    cases herror

/-- The vault's probe masks no fault. The scanner lab's probe and the health check do so
exactly where there is none to mask. -/
theorem probes_tell_faults_apart_iff (hexists : BestEffort storage libraryExists) (now : W → Int)
    (bucket key : JsString) (vaultBucket : Option JsString) (w : W) :
    ProbeTellsFaults (providerOutcome storage key vaultBucket w)
      (VaultService.exists_ storage key vaultBucket w).1 ∧
    (ProbeTellsFaults (providerOutcome storage key none w)
      ((ScannerLabService.exists_ libraryExists key w).1.map ScannerExistsResult.present) ↔
        providerOutcome storage key none w ≠ .fault) ∧
    (HealthTellsFaults (providerOutcome storage healthSentinelKey none w)
      (HealthController.health libraryExists now bucket w).1 ↔
        providerOutcome storage healthSentinelKey none w ≠ .fault) :=
  ⟨vault_probe_tells_faults storage key vaultBucket w, scanner_probe_tells_faults_iff hexists key w,
    health_tells_faults_iff hexists now bucket w⟩

end Probes

/-- A provider that answers no call. -/
def outage : StorageService Unit where
  upload _ := throw (.storage ⟨.providerError, []⟩)
  head _ _ := throw (.storage ⟨.providerError, []⟩)
  download _ := throw (.storage ⟨.providerError, []⟩)
  list _ := throw (.storage ⟨.providerError, []⟩)
  delete _ _ := throw (.storage ⟨.providerError, []⟩)
  deleteMany _ := throw (.storage ⟨.providerError, []⟩)
  copy _ := throw (.storage ⟨.providerError, []⟩)

def bestEffortExists (storage : StorageService W) (key : JsString) : Async Rejection W Bool :=
  tryCatch (do
    let _ ← storage.head key none
    return true) (fun _ => return false)

theorem bestEffort_outage : BestEffort outage (bestEffortExists outage) := fun _ _ => rfl

theorem outage_reaches_vault_probe :
    ProbeTellsFaults .fault (VaultService.exists_ outage (js "scanner-lab/gone") none ()).1 :=
  (probes_tell_faults_apart_iff bestEffort_outage (fun _ => 0) (js "vault") (js "scanner-lab/gone") none ()).1

/-- In an outage the lab reports the object removed, and the instance reports itself up. -/
theorem outage_masked :
    providerOutcome outage (js "scanner-lab/gone") none () = .fault ∧
    providerOutcome outage healthSentinelKey none () = .fault ∧
    (ScannerLabService.exists_ (bestEffortExists outage) (js "scanner-lab/gone") ()).1 =
      .ok ⟨js "scanner-lab/gone", false⟩ ∧
    (HealthController.health (bestEffortExists outage) (fun _ => 0) (js "vault") ()).1 = .ok ⟨.up, 0, js "vault"⟩ :=
  ⟨rfl, rfl, rfl, rfl⟩

end NestStorageExample.Api
