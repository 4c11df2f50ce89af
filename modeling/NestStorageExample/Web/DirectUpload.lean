import NestStorageExample.Runs.Guarded
import NestStorageExample.Text.CodeUnits

/-! The direct-upload page: its state variables, and the continuations of its two
async handlers as events that may come in any order. -/
namespace NestStorageExample.Web
open Text Runs

/-- A `File` object; `identity` tells two objects with equal contents apart. -/
structure File where
  identity : Nat
  name : JsString
  type : JsString
  size : Nat
  deriving DecidableEq, Repr

structure UploadUrlResponse where
  url : JsString
  key : JsString
  requiredHeaders : List (JsString × JsString)
  deriving DecidableEq, Repr

structure ConfirmResult where
  confirmed : Bool
  key : JsString
  scan : Option JsString
  deriving DecidableEq, Repr

/-- A response the page holds. The file it was requested for is not in the page's
state; it is remembered here to speak about it. -/
structure Issued where
  response : UploadUrlResponse
  requestedFor : File
  deriving DecidableEq, Repr

inductive Step where
  | idle
  | issued
  | uploading
  | confirming
  | done
  deriving DecidableEq, Repr

/-- A PUT as `handlePut` sends it: to the URL and with the headers it closed over. -/
structure Put where
  issued : Issued
  file : File
  deriving DecidableEq, Repr

structure DirectUpload where
  step : Step
  issued : Option Issued
  progress : Option (Nat × Nat)
  confirmResult : Option ConfirmResult
  selectedFile : Option File
  /-- the files whose issuance is still awaited -/
  issuing : List File
  /-- the `handlePut` calls that await their PUT, and those that await the confirm -/
  uploading : List Put
  confirming : List Put
  /-- every PUT ever sent -/
  sent : List Put
  deriving DecidableEq, Repr

namespace DirectUpload

def initial : DirectUpload := ⟨.idle, none, none, none, none, [], [], [], []⟩

/-- The condition under which the PUT button is rendered. -/
def PutShown (s : DirectUpload) : Prop :=
  s.step = .issued ∧ s.issued.isSome = true ∧ s.selectedFile.isSome = true

instance (s : DirectUpload) : Decidable s.PutShown := inferInstanceAs (Decidable (_ ∧ _))

inductive Event where
  | select (file : File)
  | issueResolved (i : Nat) (response : UploadUrlResponse)
  | issueRejected (i : Nat)
  | clickPut
  | progressed (i : Nat) (loaded total : Nat)
  | putResolved (i : Nat)
  | putRejected (i : Nat)
  | confirmResolved (i : Nat) (result : ConfirmResult)
  | confirmRejected (i : Nat)
  deriving DecidableEq, Repr

/-- The click on PUT, up to the first `await`. -/
def handlePut (s : DirectUpload) : Option DirectUpload :=
  match s.step, s.issued, s.selectedFile with
  | .issued, some issued, some file =>
    some { s with
      step := .uploading
      progress := some (0, file.size)
      uploading := s.uploading ++ [⟨issued, file⟩]
      sent := s.sent ++ [⟨issued, file⟩] }
  | _, _, _ => none

/-- What an event makes of the page, `none` where it cannot happen: an answer to a
request that is not awaited, or a click on a button that is not there. -/
def next (s : DirectUpload) : Event → Option DirectUpload
  | .select file =>
    some { s with selectedFile := some file, step := .idle, issuing := s.issuing ++ [file] }
  | .issueResolved i response =>
    s.issuing[i]?.map fun file =>
      { s with issued := some ⟨response, file⟩, step := .issued, issuing := s.issuing.eraseIdx i }
  | .issueRejected i =>
    s.issuing[i]?.map fun _ => { s with step := .idle, issuing := s.issuing.eraseIdx i }
  | .clickPut => s.handlePut
  | .progressed i loaded total =>
    s.uploading[i]?.map fun _ => { s with progress := some (loaded, total) }
  | .putResolved i =>
    s.uploading[i]?.map fun put =>
      { s with step := .confirming, uploading := s.uploading.eraseIdx i, confirming := s.confirming ++ [put] }
  | .putRejected i =>
    s.uploading[i]?.map fun _ => { s with step := .issued, uploading := s.uploading.eraseIdx i }
  | .confirmResolved i result =>
    s.confirming[i]?.map fun _ =>
      { s with confirmResult := some result, step := .done, confirming := s.confirming.eraseIdx i }
  | .confirmRejected i =>
    s.confirming[i]?.map fun _ => { s with step := .issued, confirming := s.confirming.eraseIdx i }

/-- Wherever the PUT button is shown the held URL was issued for the selected file, and
so was the URL of every PUT sent. -/
structure Coherent (s : DirectUpload) : Prop where
  shown : ∀ issued file, s.step = .issued → s.issued = some issued → s.selectedFile = some file →
    issued.requestedFor = file
  sent : ∀ put ∈ s.sent, put.issued.requestedFor = put.file

/-- A URL arrives for the selected file, and a handler falls back to step `issued` only
while the held URL is the selected file's. -/
def Guard (s : DirectUpload) : Event → Prop
  | .issueResolved i _ => ∀ file ∈ s.issuing[i]?, s.selectedFile = some file
  | .putRejected _ | .confirmRejected _ => ∀ issued ∈ s.issued, s.selectedFile = some issued.requestedFor
  | _ => True

/-- Nothing is awaited or held before the first selection. -/
def Selected (s : DirectUpload) : Prop := s.selectedFile = none → s.issuing = [] ∧ s.issued = none

theorem handlePut_eq_some {s s' : DirectUpload} (h : s.handlePut = some s') :
    ∃ issued file, s.step = .issued ∧ s.issued = some issued ∧ s.selectedFile = some file ∧
      s' = { s with
        step := .uploading
        progress := some (0, file.size)
        uploading := s.uploading ++ [⟨issued, file⟩]
        sent := s.sent ++ [⟨issued, file⟩] } := by
  unfold handlePut at h
  split at h
  · rename_i issued file hstep hissued hfile
    exact ⟨issued, file, hstep, hissued, hfile, (Option.some.inj h).symm⟩
  · cases h

theorem selected_next {s s' : DirectUpload} {e : Event} (hs : s.Selected) (h : s.next e = some s') : s'.Selected := by
  cases e with
  | select file =>
    cases h
    intro hnone
    cases hnone
  | clickPut =>
    obtain ⟨issued, file, -, -, -, rfl⟩ := handlePut_eq_some h
    exact hs
  | issueResolved i response =>
    obtain ⟨file, hfile, rfl⟩ := Option.map_eq_some_iff.mp h
    intro hnone
    rw [(hs hnone).1] at hfile
    cases hfile
  | issueRejected i =>
    obtain ⟨file, hfile, rfl⟩ := Option.map_eq_some_iff.mp h
    intro hnone
    rw [(hs hnone).1] at hfile
    cases hfile
  | progressed i loaded total =>
    obtain ⟨put, -, rfl⟩ := Option.map_eq_some_iff.mp h
    exact hs
  | putResolved i =>
    obtain ⟨put, -, rfl⟩ := Option.map_eq_some_iff.mp h
    exact hs
  | putRejected i =>
    obtain ⟨put, -, rfl⟩ := Option.map_eq_some_iff.mp h
    exact hs
  | confirmResolved i result =>
    obtain ⟨put, -, rfl⟩ := Option.map_eq_some_iff.mp h
    exact hs
  | confirmRejected i =>
    obtain ⟨put, -, rfl⟩ := Option.map_eq_some_iff.mp h
    exact hs

private theorem coherent_of_step_ne {s : DirectUpload} (hstep : s.step ≠ .issued)
    (hsent : ∀ put ∈ s.sent, put.issued.requestedFor = put.file) : s.Coherent :=
  ⟨fun _ _ h => absurd h hstep, hsent⟩

/-- Falling back to step `issued` shows the button for whatever is held and selected. -/
private theorem coherent_issued_iff {s s' : DirectUpload} (hs : s.Selected) (hc : s.Coherent)
    (hstep : s'.step = .issued) (hissued : s'.issued = s.issued) (hfile : s'.selectedFile = s.selectedFile)
    (hsent : s'.sent = s.sent) :
    s'.Coherent ↔ ∀ issued ∈ s.issued, s.selectedFile = some issued.requestedFor := by
  constructor
  · intro h issued hi
    cases hf : s.selectedFile with
    | none =>
      rw [(hs hf).2] at hi
      cases hi
    | some file => rw [h.shown issued file hstep (hissued.trans hi) (hfile.trans hf)]
  · intro h
    refine ⟨fun issued file _ hi hf => ?_, hsent ▸ hc.sent⟩
    rw [hissued] at hi
    rw [hfile, h issued hi] at hf
    exact Option.some.inj hf

/-- A step from a coherent state leads to a coherent one exactly under the guard. -/
theorem coherent_next_iff {s s' : DirectUpload} {e : Event} (hs : s.Selected) (hc : s.Coherent)
    (h : s.next e = some s') : s'.Coherent ↔ s.Guard e := by
  cases e with
  | select file =>
    cases h
    exact iff_of_true (coherent_of_step_ne (by simp) hc.sent) trivial
  | issueResolved i response =>
    obtain ⟨file, hfile, rfl⟩ := Option.map_eq_some_iff.mp h
    constructor
    · intro h' file' hfile'
      rw [Option.mem_def, hfile, Option.some.injEq] at hfile'
      subst hfile'
      cases hf : s.selectedFile with
      | none =>
        rw [(hs hf).1] at hfile
        cases hfile
      | some selected => exact congrArg some (h'.shown _ selected rfl rfl hf).symm
    · intro hguard
      refine ⟨fun issued selected _ hi hf => ?_, hc.sent⟩
      cases hi
      exact Option.some.inj ((hguard file hfile).symm.trans hf)
  | issueRejected i =>
    obtain ⟨file, -, rfl⟩ := Option.map_eq_some_iff.mp h
    exact iff_of_true (coherent_of_step_ne (by simp) hc.sent) trivial
  | clickPut =>
    obtain ⟨issued, file, hstep, hissued, hfile, rfl⟩ := handlePut_eq_some h
    refine iff_of_true (coherent_of_step_ne (by simp) ?_) trivial
    intro put hput
    rcases List.mem_append.mp hput with hput | hput
    · exact hc.sent put hput
    · rw [List.mem_singleton.mp hput]
      exact hc.shown issued file hstep hissued hfile
  | progressed i loaded total =>
    obtain ⟨put, -, rfl⟩ := Option.map_eq_some_iff.mp h
    exact iff_of_true ⟨hc.shown, hc.sent⟩ trivial
  | putResolved i =>
    obtain ⟨put, -, rfl⟩ := Option.map_eq_some_iff.mp h
    exact iff_of_true (coherent_of_step_ne (by simp) hc.sent) trivial
  | putRejected i =>
    obtain ⟨put, -, rfl⟩ := Option.map_eq_some_iff.mp h
    exact coherent_issued_iff hs hc rfl rfl rfl rfl
  | confirmResolved i result =>
    obtain ⟨put, -, rfl⟩ := Option.map_eq_some_iff.mp h
    exact iff_of_true (coherent_of_step_ne (by simp) hc.sent) trivial
  | confirmRejected i =>
    obtain ⟨put, -, rfl⟩ := Option.map_eq_some_iff.mp h
    exact coherent_issued_iff hs hc rfl rfl rfl rfl

/-- A run of the page mixes no files exactly when each of its steps is guarded. -/
theorem direct_upload_coherent_iff (events : List Event) :
    AlwaysSafe next Coherent initial events ↔ AlwaysGuarded next Guard initial events :=
  alwaysSafe_iff_alwaysGuarded next (fun _ _ _ => selected_next) (fun _ _ _ => coherent_next_iff)
    (fun _ => ⟨rfl, rfl⟩) (coherent_of_step_ne (by simp [initial]) (fun _ h => by cases h)) events

/-- A second file is selected while the PUT of the first is under way; when that PUT
fails, the button comes back with the first file's URL. -/
theorem rejected_put_offers_stale_url :
    ∃ s, run next initial
        [.select ⟨0, js "a.txt", js "text/plain", 1⟩, .issueResolved 0 ⟨js "https://s3/a", js "attachments/a", []⟩,
          .clickPut, .select ⟨1, js "b.png", js "image/png", 2⟩, .putRejected 0] = some s ∧
      s.PutShown ∧ ¬ s.Coherent := by
  refine ⟨_, rfl, by decide, fun h => ?_⟩
  exact absurd (h.shown _ _ rfl rfl rfl) (by decide)

end DirectUpload

end NestStorageExample.Web
