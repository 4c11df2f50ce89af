import NestStorageExample.Api.EnvSchema
import NestStorageExample.Runs.Gathered

/-! The versioning status of the three buckets, which the raw client is asked for at once. -/
namespace NestStorageExample.Api
open Text Storage Runs

/-- `response.Status`, where the provider reports one. -/
inductive ProviderStatus where
  | enabled
  | suspended
  deriving DecidableEq, Repr

inductive VersioningStatus where
  | enabled
  | suspended
  | unversioned
  deriving DecidableEq, Repr

structure BucketVersioning where
  bucket : JsString
  status : VersioningStatus
  deriving DecidableEq

structure VersioningView where
  buckets : List BucketVersioning
  tradeOffNote : String
  deriving DecidableEq

def tradeOffNote : String :=
  "This status comes from the raw S3Client (BYMAX_STORAGE_S3_CLIENT), not the library facade. Reaching past the " ++
  "facade couples this call to the AWS SDK and forgoes the library key-prefix, error mapping, and " ++
  "provider-agnostic guarantees; reserve it for advanced operations the facade does not cover."

/-- The provider's answer to the request for the bucket with this number. -/
abbrev VersioningAnswer := Nat × Except Rejection (Option ProviderStatus)

structure VersioningService where
  clientPresent : Bool
  buckets : List JsString

namespace VersioningService

def ofEnv (clientPresent : Bool) (env : AppEnv) : VersioningService :=
  ⟨clientPresent, [env.storageBucket, env.storageArchiveBucket, env.storageVersionedBucket]⟩

/-- `response.Status ?? 'Unversioned'` -/
def reported : Option ProviderStatus → VersioningStatus
  | some .enabled => .enabled
  | some .suspended => .suspended
  | none => .unversioned

/-- `statusFor`, once its request is answered. -/
def statusFor (bucket : JsString) (response : Except Rejection (Option ProviderStatus)) :
    Except Rejection BucketVersioning :=
  response.map fun status => ⟨bucket, reported status⟩

variable (service : VersioningService)

def settled (answer : VersioningAnswer) : Nat × Except Rejection BucketVersioning :=
  (answer.1, statusFor (service.buckets.getD answer.1 []) answer.2)

/-- The promise of `versioningStatus` after these answers, none while it is open; answers that
no request is waiting for cannot come. -/
def versioningStatus (answers : List VersioningAnswer) : Option (Option (Except Rejection VersioningView)) :=
  if service.clientPresent then
    (run Gathering.settle (Gathering.start service.buckets.length) (answers.map service.settled)).map fun s =>
      s.outcome.map (Except.map fun buckets => ⟨buckets, tradeOffNote⟩)
  else if answers = [] then some (some (.error (.storage ⟨.notConfigured, []⟩)))
  else none

/-- What the promise has become: the first rejection, or every bucket in its place. -/
structure Told (answers : List VersioningAnswer) (outcome : Option (Except Rejection VersioningView)) : Prop where
  rejects : ∀ e, outcome = some (.error e) ↔ firstRejection answers = some e
  resolves : ∀ view, outcome = some (.ok view) ↔ view.tradeOffNote = tradeOffNote ∧
    view.buckets.map BucketVersioning.bucket = service.buckets ∧
      ∀ i row, view.buckets[i]? = some row → ∃ status, (i, .ok status) ∈ answers ∧ row.status = reported status
  waits : outcome = none ↔
    firstRejection answers = none ∧ ∃ i < service.buckets.length, ∀ response, (i, response) ∉ answers

variable {service} {answers : List VersioningAnswer}

theorem rejection_statusFor (bucket : JsString) (response : Except Rejection (Option ProviderStatus)) :
    rejection (statusFor bucket response) = rejection response := by
  cases response <;> rfl

theorem firstRejection_settled : firstRejection (answers.map service.settled) = firstRejection answers := by
  rw [firstRejection, firstRejection, List.findSome?_map]
  congr 1
  funext answer
  exact rejection_statusFor _ _

theorem mem_settled_ok {i : Nat} {row : BucketVersioning} : (i, .ok row) ∈ answers.map service.settled ↔
    row.bucket = service.buckets.getD i [] ∧ ∃ status, (i, .ok status) ∈ answers ∧ row.status = reported status := by
  rw [List.mem_map]
  constructor
  · rintro ⟨⟨j, response⟩, hmem, hsettled⟩
    cases response with
    | error e => cases hsettled
    | ok status =>
      cases hsettled
      exact ⟨rfl, status, hmem, rfl⟩
  · rintro ⟨hbucket, status, hmem, hstatus⟩
    refine ⟨(i, .ok status), hmem, ?_⟩
    obtain ⟨bucket, rowStatus⟩ := row
    cases hbucket
    cases hstatus
    rfl

theorem versioningStatus_of_client (hclient : service.clientPresent = true)
    {outcome : Option (Except Rejection VersioningView)} (h : service.versioningStatus answers = some outcome) :
    ∃ s, run Gathering.settle (Gathering.start service.buckets.length) (answers.map service.settled) = some s ∧
      s.outcome.map (Except.map fun buckets => (⟨buckets, tradeOffNote⟩ : VersioningView)) = outcome := by
  rw [versioningStatus, if_pos hclient] at h
  exact Option.map_eq_some_iff.mp h

theorem mem_settled {i : Nat} : (∃ result, (i, result) ∈ answers.map service.settled) ↔
    ∃ response, (i, response) ∈ answers := by
  constructor
  · rintro ⟨result, hmem⟩
    obtain ⟨⟨j, response⟩, hanswer, hsettled⟩ := List.mem_map.mp hmem
    cases hsettled
    exact ⟨response, hanswer⟩
  · rintro ⟨response, hmem⟩
    exact ⟨_, List.mem_map.mpr ⟨_, hmem, rfl⟩⟩

theorem told_of_run {s : Gathering Rejection BucketVersioning}
    (h : Gathering.Told service.buckets.length (answers.map service.settled) s) :
    service.Told answers (s.outcome.map (Except.map fun buckets => ⟨buckets, tradeOffNote⟩)) := by
  constructor
  · intro e
    rw [← firstRejection_settled, ← h.error_iff]
    rcases s.outcome with _ | error | buckets <;> simp [Except.map]
  · intro view
    have hview : s.outcome.map (Except.map fun buckets => (⟨buckets, tradeOffNote⟩ : VersioningView)) = some (.ok view) ↔
        s.outcome = some (.ok view.buckets) ∧ view.tradeOffNote = tradeOffNote := by
      obtain ⟨rows, note⟩ := view
      rcases s.outcome with _ | error | buckets <;> simp [Except.map, eq_comm]
    rw [hview, h.ok_iff, and_comm]
    refine and_congr_right' ?_
    constructor
    · rintro ⟨hlength, hrows⟩
      refine ⟨?_, fun i row hrow => (mem_settled_ok.mp (hrows i row hrow)).2⟩
      apply List.ext_getElem (by rw [List.length_map, hlength])
      intro i hi hi'
      rw [List.length_map] at hi
      rw [List.getElem_map, (mem_settled_ok.mp (hrows i _ (List.getElem?_eq_getElem hi))).1,
        List.getD_eq_getElem?_getD, List.getElem?_eq_getElem hi', Option.getD_some]
    · rintro ⟨hbuckets, hrows⟩
      refine ⟨by rw [← hbuckets, List.length_map], fun i row hrow => mem_settled_ok.mpr ⟨?_, hrows i row hrow⟩⟩
      rw [← hbuckets, List.getD_eq_getElem?_getD, List.getElem?_map, hrow]
      rfl
  · rw [Option.map_eq_none_iff, h.none_iff, firstRejection_settled]
    simp only [← not_exists, mem_settled]

end VersioningService

end NestStorageExample.Api
