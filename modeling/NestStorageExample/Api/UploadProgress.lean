import NestStorageExample.Api.UploadSessionStore
import NestStorageExample.Runs.Guarded
import NestStorageExample.Storage.Service

/-! The two uploads that record their progress: their callbacks and last snapshots as
events on one shared session store, polls in between. -/
namespace NestStorageExample.Api
open Text Storage Runs

/-- What the library hands to `onProgress`. -/
structure ProgressEvent where
  loaded : Nat
  total : Option Nat
  part : Option Nat
  deriving DecidableEq, Repr

/-- The snapshot that both callbacks append. -/
def ProgressEvent.snapshot (event : ProgressEvent) : ProgressSnapshot :=
  ⟨event.loaded, event.total, event.part, none⟩

/-- A file that multer has read, whose `size` is its buffer's, or a request stream with the
`Content-Length` that came with it. -/
inductive UploadSource where
  | multipart (fileSize : Nat)
  | stream (bodySize : Nat) (contentLength : Option Nat)
  deriving DecidableEq, Repr

def UploadSource.bodySize : UploadSource → Nat
  | multipart fileSize => fileSize
  | stream bodySize _ => bodySize

/-- The stream came with the length that it has. -/
def UploadSource.Announced : UploadSource → Prop
  | multipart _ => False
  | stream bodySize contentLength => contentLength = some bodySize

inductive UploadOutcome where
  | pending
  | resolved (multipart : Bool)
  | rejected
  deriving DecidableEq, Repr

/-- One call of `uploadMultipart` or `uploadStream`; `lastLoaded` is the local variable of the
latter. The events of its callback are kept to speak about them. -/
structure UploadRun where
  sessionId : JsString
  source : UploadSource
  lastLoaded : Nat
  events : List ProgressEvent
  outcome : UploadOutcome
  deriving DecidableEq, Repr

namespace UploadRun

/-- The snapshot behind the `await`: the file's size, or the last progress seen. -/
def finalSnapshot (run : UploadRun) (multipart : Bool) : ProgressSnapshot :=
  match run.source with
  | .multipart fileSize => ⟨fileSize, some fileSize, none, some (if multipart then .multipart else .single)⟩
  | .stream _ contentLength =>
    ⟨run.lastLoaded, contentLength, none, some (if multipart then .multipart else .single)⟩

def final (run : UploadRun) : List ProgressSnapshot :=
  match run.outcome with
  | .resolved multipart => [run.finalSnapshot multipart]
  | _ => []

/-- All that the run has appended. -/
def log (run : UploadRun) : List ProgressSnapshot := run.events.map ProgressEvent.snapshot ++ run.final

/-- What the library promises of a run's progress. -/
structure Orderly (run : UploadRun) : Prop where
  ascending : (run.events.map ProgressEvent.loaded).Pairwise (· ≤ ·)
  last : ∀ event ∈ run.events, event.loaded ≤ run.lastLoaded
  within : run.lastLoaded ≤ run.source.bodySize

end UploadRun

/-- The calls made to the session store, the latest first, and the uploads that make them. -/
structure UploadProgress where
  calls : List SessionCall
  runs : List UploadRun

inductive UploadEvent where
  | started (sessionId : JsString) (source : UploadSource)
  | progressed (index : Nat) (event : ProgressEvent)
  | resolved (index : Nat) (multipart : Bool)
  | rejected (index : Nat)
  | polled (sessionId : JsString)

namespace UploadProgress

def initial : UploadProgress := ⟨[], []⟩

def store (s : UploadProgress) : UploadSessionStore := sessionStore s.calls

/-- The library may still report: it has not settled, and reports no less than before and
no more than there is. -/
def MayReport (run : UploadRun) (event : ProgressEvent) : Prop :=
  run.outcome = .pending ∧ run.lastLoaded ≤ event.loaded ∧ event.loaded ≤ run.source.bodySize

instance (run : UploadRun) (event : ProgressEvent) : Decidable (MayReport run event) :=
  inferInstanceAs (Decidable (_ ∧ _))

def next (s : UploadProgress) : UploadEvent → Option UploadProgress
  | .started sessionId source =>
    -- `randomUUID()` gives no id twice
    if sessionId ∈ createdIds s.calls then none
    else some ⟨.create sessionId :: s.calls, s.runs ++ [⟨sessionId, source, 0, [], .pending⟩]⟩
  | .progressed index event => (s.runs[index]?).bind fun run =>
    if MayReport run event then
      some ⟨.append run.sessionId event.snapshot :: s.calls,
        s.runs.set index { run with lastLoaded := event.loaded, events := run.events ++ [event] }⟩
    else none
  | .resolved index multipart => (s.runs[index]?).bind fun run =>
    if run.outcome = .pending then
      some ⟨.append run.sessionId (run.finalSnapshot multipart) :: s.calls,
        s.runs.set index { run with outcome := .resolved multipart }⟩
    else none
  | .rejected index => (s.runs[index]?).bind fun run =>
    if run.outcome = .pending then some ⟨s.calls, s.runs.set index { run with outcome := .rejected }⟩ else none
  | .polled sessionId => some ⟨.get sessionId :: s.calls, s.runs⟩

/-- The log of one upload: its own events in order, then one snapshot with a strategy if and
only if it resolved; never a step back; complete if it names the size of what was stored. -/
structure LogCoherent (run : UploadRun) (snapshots : List ProgressSnapshot) : Prop where
  own : ∃ final, snapshots = run.events.map ProgressEvent.snapshot ++ final ∧
    ((∃ multipart, run.outcome = .resolved multipart) →
      ∃ last, final = [last] ∧ last.strategy.isSome = true) ∧
    ((¬ ∃ multipart, run.outcome = .resolved multipart) → final = [])
  ascending : (snapshots.map ProgressSnapshot.loaded).Pairwise (· ≤ ·)
  complete : ∀ last ∈ snapshots.getLast?, last.strategy.isSome = true →
    last.total = some run.source.bodySize → last.loaded = run.source.bodySize

/-- Every session that is still held has a coherent log. -/
def Coherent (s : UploadProgress) : Prop :=
  ∀ run ∈ s.runs, s.store.Holds run.sessionId →
    ∃ snapshots, (s.store.get run.sessionId).1 = some snapshots ∧ LogCoherent run snapshots

/-- When a stream whose length was announced resolves, the library has reported all of it. -/
def Guard (s : UploadProgress) : UploadEvent → Prop
  | .resolved index _ => ∀ run ∈ s.runs[index]?, s.store.Holds run.sessionId →
      run.source.Announced → run.lastLoaded = run.source.bodySize
  | _ => True

/-- What holds of every history: the sessions are the runs' own, and each has recorded
exactly its run's log. -/
structure Invariant (s : UploadProgress) : Prop where
  fresh : FreshCreates s.calls
  created : ∀ run ∈ s.runs, run.sessionId ∈ createdIds s.calls
  nodup : (s.runs.map UploadRun.sessionId).Nodup
  recorded : ∀ run ∈ s.runs, appendedSince run.sessionId s.calls = run.log
  orderly : ∀ run ∈ s.runs, run.Orderly

section Logs
variable {run : UploadRun}

theorem log_ascending (h : run.Orderly) : (run.log.map ProgressSnapshot.loaded).Pairwise (· ≤ ·) := by
  have hevents : run.events.map (ProgressSnapshot.loaded ∘ ProgressEvent.snapshot) =
      run.events.map ProgressEvent.loaded := rfl
  rw [UploadRun.log, List.map_append, List.map_map, hevents, List.pairwise_append]
  refine ⟨h.ascending, ?_, ?_⟩
  · unfold UploadRun.final
    split
    · exact List.pairwise_singleton _ _
    · exact List.Pairwise.nil
  · intro loaded hloaded last hlast
    obtain ⟨event, hevent, rfl⟩ := List.mem_map.mp hloaded
    unfold UploadRun.final at hlast
    split at hlast
    · rw [List.map_singleton, List.mem_singleton] at hlast
      rw [hlast, UploadRun.finalSnapshot]
      have hle := (h.last event hevent).trans h.within
      split
      · rename_i hsource
        rwa [hsource] at hle
      · exact h.last event hevent
    · cases hlast

/-- The last snapshot of a resolved run is complete unless the run is a stream that announced
its length, and did not report all of it. -/
def CompleteAtEnd (run : UploadRun) : Prop :=
  (∃ multipart, run.outcome = .resolved multipart) → run.source.Announced → run.lastLoaded = run.source.bodySize

theorem finalSnapshot_strategy (run : UploadRun) (multipart : Bool) :
    (run.finalSnapshot multipart).strategy.isSome = true := by
  unfold UploadRun.finalSnapshot
  cases run.source <;> rfl

theorem finalSnapshot_complete_iff (run : UploadRun) (multipart : Bool) :
    ((run.finalSnapshot multipart).total = some run.source.bodySize →
      (run.finalSnapshot multipart).loaded = run.source.bodySize) ↔
    (run.source.Announced → run.lastLoaded = run.source.bodySize) := by
  unfold UploadRun.finalSnapshot
  cases run.source with
  | multipart fileSize => exact iff_of_true (fun _ => rfl) (fun h => h.elim)
  | stream bodySize contentLength => exact Iff.rfl

/-- A run's log is coherent exactly when it is complete at its end. -/
theorem logCoherent_log_iff (h : run.Orderly) : LogCoherent run run.log ↔ CompleteAtEnd run := by
  constructor
  · rintro hlog ⟨multipart, hresolved⟩
    rw [← finalSnapshot_complete_iff run multipart]
    intro htotal
    have hlast : run.log.getLast? = some (run.finalSnapshot multipart) := by
      rw [UploadRun.log, UploadRun.final, hresolved, List.getLast?_append, List.getLast?_singleton, Option.some_or]
    exact hlog.complete _ hlast (finalSnapshot_strategy run multipart) htotal
  · intro hcomplete
    refine ⟨⟨run.final, rfl, ?_, ?_⟩, log_ascending h, ?_⟩
    · rintro ⟨multipart, hresolved⟩
      exact ⟨run.finalSnapshot multipart, by rw [UploadRun.final, hresolved], finalSnapshot_strategy run multipart⟩
    · intro hnot
      unfold UploadRun.final
      split
      · exact absurd ⟨_, ‹_›⟩ hnot
      · rfl
    · intro last hlast hstrategy
      rw [UploadRun.log, List.getLast?_append] at hlast
      unfold UploadRun.final at hlast
      split at hlast
      · rename_i multipart hresolved
        rw [List.getLast?_singleton, Option.some_or] at hlast
        cases hlast
        exact (finalSnapshot_complete_iff run multipart).mpr (hcomplete ⟨multipart, hresolved⟩)
      · -- the last snapshot is one of the library's events, which carry no strategy
        rw [List.getLast?_nil, Option.none_or] at hlast
        obtain ⟨event, -, rfl⟩ := List.mem_map.mp (List.mem_of_getLast? hlast)
        cases hstrategy

end Logs

section Steps
variable {s s' : UploadProgress}

/-- On the histories that occur, coherence is a matter of the resolved streams alone. -/
theorem coherent_iff (h : s.Invariant) :
    s.Coherent ↔ ∀ run ∈ s.runs, s.store.Holds run.sessionId → CompleteAtEnd run := by
  refine forall₂_congr fun run hrun => forall_congr' fun hholds => ?_
  rw [store, (sessionInvariant h.fresh).get_eq hholds, h.recorded run hrun, ← logCoherent_log_iff (h.orderly run hrun)]
  constructor
  · rintro ⟨_, ⟨rfl⟩, hlog⟩
    exact hlog
  · exact fun hlog => ⟨_, rfl, hlog⟩

theorem invariant_initial : initial.Invariant where
  fresh := List.nodup_nil
  created _ h := by cases h
  nodup := List.nodup_nil
  recorded _ h := by cases h
  orderly _ h := by cases h

/-- Creating another session records nothing for this one. -/
theorem appendedSince_create_of_ne {id id' : JsString} (h : id' ≠ id) (calls : List SessionCall) :
    appendedSince id (.create id' :: calls) = appendedSince id calls := by
  rw [appendedSince, SessionCall.record, if_neg h]

/-- A new id has recorded nothing. -/
theorem invariant_started (h : s.Invariant) {sessionId : JsString} (hfresh : sessionId ∉ createdIds s.calls)
    (source : UploadSource) :
    Invariant ⟨.create sessionId :: s.calls, s.runs ++ [⟨sessionId, source, 0, [], .pending⟩]⟩ := by
  have hne (run : UploadRun) (hrun : run ∈ s.runs) : sessionId ≠ run.sessionId :=
    fun he => hfresh (he ▸ h.created run hrun)
  refine ⟨List.nodup_cons.mpr ⟨hfresh, h.fresh⟩, ?_, ?_, ?_, ?_⟩
  · intro run hrun
    rcases List.mem_append.mp hrun with hrun | hrun
    · exact List.mem_cons_of_mem _ (h.created run hrun)
    · rw [List.mem_singleton.mp hrun]
      exact List.mem_cons_self
  · rw [List.map_append]
    apply List.Nodup.append h.nodup (List.nodup_singleton _)
    apply List.disjoint_singleton.mpr
    intro hmem
    obtain ⟨run, hrun, he⟩ := List.mem_map.mp hmem
    exact hne run hrun he.symm
  · intro run hrun
    rcases List.mem_append.mp hrun with hrun | hrun
    · rw [appendedSince_create_of_ne (hne run hrun)]
      exact h.recorded run hrun
    · rw [List.mem_singleton.mp hrun, appendedSince, SessionCall.record, if_pos rfl]
      rfl
  · intro run hrun
    rcases List.mem_append.mp hrun with hrun | hrun
    · exact h.orderly run hrun
    · rw [List.mem_singleton.mp hrun]
      exact ⟨List.Pairwise.nil, fun _ hevent => (List.not_mem_nil hevent).elim, Nat.zero_le _⟩

theorem mem_set_of_nodup (h : s.Invariant) {index : Nat} {run run' q : UploadRun}
    (hrun : s.runs[index]? = some run) (hq : q ∈ s.runs.set index run') :
    q = run' ∨ (q ∈ s.runs ∧ q.sessionId ≠ run.sessionId) := by
  obtain ⟨j, hj⟩ := List.mem_iff_getElem?.mp hq
  rw [List.getElem?_set] at hj
  split at hj
  · split at hj
    · exact Or.inl (Option.some.inj hj).symm
    · cases hj
  · rename_i hne
    refine Or.inr ⟨List.mem_of_getElem? hj, fun he => hne ?_⟩
    have hlt : index < (s.runs.map UploadRun.sessionId).length := by
      rw [List.length_map]
      exact (List.getElem?_eq_some_iff.mp hrun).1
    apply (List.getElem?_inj hlt h.nodup).mp
    rw [List.getElem?_map, List.getElem?_map, hrun, hj, Option.map_some, Option.map_some, he]

/-- A run that goes on: the calls made for it are its own, and it has appended what they record. -/
theorem invariant_update (h : s.Invariant) {index : Nat} {run run' : UploadRun} {calls : List SessionCall}
    (hrun : s.runs[index]? = some run) (hid : run'.sessionId = run.sessionId)
    (hcreated : createdIds calls = createdIds s.calls)
    (hothers : ∀ id, id ≠ run.sessionId → appendedSince id calls = appendedSince id s.calls)
    (hown : appendedSince run.sessionId calls = run'.log) (horderly : run'.Orderly) :
    Invariant ⟨calls, s.runs.set index run'⟩ := by
  have hmem := List.mem_of_getElem? hrun
  refine ⟨?_, ?_, ?_, ?_, ?_⟩
  · rw [FreshCreates, hcreated]
    exact h.fresh
  · intro q hq
    rw [hcreated]
    rcases mem_set_of_nodup h hrun hq with rfl | ⟨hq, -⟩
    · rw [hid]
      exact h.created run hmem
    · exact h.created q hq
  · have hsame : (s.runs.set index run').map UploadRun.sessionId = s.runs.map UploadRun.sessionId := by
      apply List.ext_getElem?
      intro j
      rw [List.map_set, List.getElem?_set]
      split
      · rename_i hj
        subst hj
        rw [List.getElem?_map, hrun, Option.map_some, hid, List.length_map,
          if_pos (List.getElem?_eq_some_iff.mp hrun).1]
      · rfl
    rw [hsame]
    exact h.nodup
  · intro q hq
    rcases mem_set_of_nodup h hrun hq with rfl | ⟨hq, hne⟩
    · rw [hid]
      exact hown
    · rw [hothers q.sessionId hne]
      exact h.recorded q hq
  · intro q hq
    rcases mem_set_of_nodup h hrun hq with rfl | ⟨hq, -⟩
    · exact horderly
    · exact h.orderly q hq

theorem appendedSince_append (id : JsString) (snapshot : ProgressSnapshot) (calls : List SessionCall) :
    appendedSince id (.append id snapshot :: calls) = appendedSince id calls ++ [snapshot] := by
  rw [appendedSince, SessionCall.record, if_pos rfl]

theorem appendedSince_append_of_ne {id id' : JsString} (h : id ≠ id') (snapshot : ProgressSnapshot)
    (calls : List SessionCall) : appendedSince id (.append id' snapshot :: calls) = appendedSince id calls := by
  rw [appendedSince, SessionCall.record, if_neg (Ne.symm h)]

theorem log_of_pending {run : UploadRun} (h : run.outcome = .pending) :
    run.log = run.events.map ProgressEvent.snapshot := by
  rw [UploadRun.log, UploadRun.final, h, List.append_nil]

/-- A pending run's own snapshots and the next one. -/
theorem Invariant.recorded_append (h : s.Invariant) {run : UploadRun} (hmem : run ∈ s.runs)
    (hpending : run.outcome = .pending) (snapshot : ProgressSnapshot) :
    appendedSince run.sessionId (.append run.sessionId snapshot :: s.calls) =
      run.events.map ProgressEvent.snapshot ++ [snapshot] := by
  rw [appendedSince_append, h.recorded run hmem, log_of_pending hpending]

theorem invariant_progressed (h : s.Invariant) {index : Nat} {run : UploadRun} (hrun : s.runs[index]? = some run)
    {event : ProgressEvent} (hmay : MayReport run event) :
    Invariant ⟨.append run.sessionId event.snapshot :: s.calls,
      s.runs.set index { run with lastLoaded := event.loaded, events := run.events ++ [event] }⟩ := by
  obtain ⟨hpending, hnext, hwithin⟩ := hmay
  have hmem := List.mem_of_getElem? hrun
  have horderly := h.orderly run hmem
  refine invariant_update h hrun rfl rfl ?_ ?_ ?_
  · exact fun id hid => appendedSince_append_of_ne hid _ _
  · rw [h.recorded_append hmem hpending]
    refine Eq.trans ?_ (log_of_pending (by exact hpending)).symm
    rw [List.map_append, List.map_singleton]
  · refine ⟨?_, ?_, hwithin⟩
    · rw [List.map_append, List.pairwise_append]
      refine ⟨horderly.ascending, List.pairwise_singleton _ _, ?_⟩
      intro loaded hloaded last hlast
      obtain ⟨earlier, hearlier, rfl⟩ := List.mem_map.mp hloaded
      rw [List.map_singleton, List.mem_singleton] at hlast
      rw [hlast]
      exact (horderly.last earlier hearlier).trans hnext
    · intro earlier hearlier
      rcases List.mem_append.mp hearlier with hearlier | hearlier
      · exact (horderly.last earlier hearlier).trans hnext
      · rw [List.mem_singleton.mp hearlier]

theorem invariant_resolved (h : s.Invariant) {index : Nat} {run : UploadRun} (hrun : s.runs[index]? = some run)
    (hpending : run.outcome = .pending) (multipart : Bool) :
    Invariant ⟨.append run.sessionId (run.finalSnapshot multipart) :: s.calls,
      s.runs.set index { run with outcome := .resolved multipart }⟩ := by
  have hmem := List.mem_of_getElem? hrun
  have horderly := h.orderly run hmem
  refine invariant_update h hrun rfl rfl ?_ ?_ ?_
  · exact fun id hid => appendedSince_append_of_ne hid _ _
  · rw [h.recorded_append hmem hpending]
    rfl
  · exact ⟨horderly.ascending, horderly.last, horderly.within⟩

theorem invariant_rejected (h : s.Invariant) {index : Nat} {run : UploadRun} (hrun : s.runs[index]? = some run)
    (hpending : run.outcome = .pending) :
    Invariant ⟨s.calls, s.runs.set index { run with outcome := .rejected }⟩ := by
  have hmem := List.mem_of_getElem? hrun
  have horderly := h.orderly run hmem
  refine invariant_update h hrun rfl rfl ?_ ?_ ?_
  · exact fun id _ => rfl
  · rw [h.recorded run hmem, log_of_pending hpending]
    exact (List.append_nil _).symm
  · exact ⟨horderly.ascending, horderly.last, horderly.within⟩

theorem invariant_polled (h : s.Invariant) (sessionId : JsString) :
    Invariant ⟨.get sessionId :: s.calls, s.runs⟩ :=
  ⟨h.fresh, h.created, h.nodup, h.recorded, h.orderly⟩

/-- The four ways on: a new session, a call that leaves the runs alone, and an open run that
reports or settles. -/
theorem next_cases {e : UploadEvent} (h : s.next e = some s') :
    (∃ sessionId source, e = .started sessionId source ∧ sessionId ∉ createdIds s.calls ∧
      s' = ⟨.create sessionId :: s.calls, s.runs ++ [⟨sessionId, source, 0, [], .pending⟩]⟩) ∨
    (∃ index run event, e = .progressed index event ∧ s.runs[index]? = some run ∧ MayReport run event ∧
      s' = ⟨.append run.sessionId event.snapshot :: s.calls,
        s.runs.set index { run with lastLoaded := event.loaded, events := run.events ++ [event] }⟩) ∨
    (∃ index run multipart, e = .resolved index multipart ∧ s.runs[index]? = some run ∧ run.outcome = .pending ∧
      s' = ⟨.append run.sessionId (run.finalSnapshot multipart) :: s.calls,
        s.runs.set index { run with outcome := .resolved multipart }⟩) ∨
    (∃ index run, e = .rejected index ∧ s.runs[index]? = some run ∧ run.outcome = .pending ∧
      s' = ⟨s.calls, s.runs.set index { run with outcome := .rejected }⟩) ∨
    ∃ sessionId, e = .polled sessionId ∧ s' = ⟨.get sessionId :: s.calls, s.runs⟩ := by
  cases e with
  | started sessionId source =>
    obtain ⟨hfresh, heq⟩ := Option.ite_none_left_eq_some.mp h
    exact Or.inl ⟨sessionId, source, rfl, hfresh, (Option.some.inj heq).symm⟩
  | progressed index event =>
    obtain ⟨run, hrun, hstep⟩ := Option.bind_eq_some_iff.mp h
    obtain ⟨hmay, heq⟩ := Option.ite_none_right_eq_some.mp hstep
    exact Or.inr (Or.inl ⟨index, run, event, rfl, hrun, hmay, (Option.some.inj heq).symm⟩)
  | resolved index multipart =>
    obtain ⟨run, hrun, hstep⟩ := Option.bind_eq_some_iff.mp h
    obtain ⟨hpending, heq⟩ := Option.ite_none_right_eq_some.mp hstep
    exact Or.inr (Or.inr (Or.inl ⟨index, run, multipart, rfl, hrun, hpending, (Option.some.inj heq).symm⟩))
  | rejected index =>
    obtain ⟨run, hrun, hstep⟩ := Option.bind_eq_some_iff.mp h
    obtain ⟨hpending, heq⟩ := Option.ite_none_right_eq_some.mp hstep
    exact Or.inr (Or.inr (Or.inr (Or.inl ⟨index, run, rfl, hrun, hpending, (Option.some.inj heq).symm⟩)))
  | polled sessionId =>
    exact Or.inr (Or.inr (Or.inr (Or.inr ⟨sessionId, rfl, (Option.some.inj h).symm⟩)))

theorem invariant_next (h : s.Invariant) {e : UploadEvent} (hstep : s.next e = some s') : s'.Invariant := by
  obtain ⟨sessionId, source, -, hfresh, rfl⟩ | ⟨index, run, event, -, hrun, hmay, rfl⟩ |
    ⟨index, run, multipart, -, hrun, hpending, rfl⟩ | ⟨index, run, -, hrun, hpending, rfl⟩ | ⟨sessionId, -, rfl⟩ :=
    next_cases hstep
  · exact invariant_started h hfresh source
  · exact invariant_progressed h hrun hmay
  · exact invariant_resolved h hrun hpending multipart
  · exact invariant_rejected h hrun hpending
  · exact invariant_polled h sessionId

/-- No call but its creation makes a session held that was not. -/
theorem holds_of_cons {call : SessionCall} {id : JsString} (hnew : id ∉ createdIds [call])
    {runs : List UploadRun} (h : (UploadProgress.mk (call :: s.calls) runs).store.Holds id) : s.store.Holds id :=
  holds_of_step hnew h

/-- Where the other runs are complete and no session comes back, only the run that went on counts. -/
theorem coherent_update_iff (h : s.Invariant) {index : Nat} {run run' : UploadRun} {calls : List SessionCall}
    (hrun : s.runs[index]? = some run) (hsafe : s.Coherent) (hinv : Invariant ⟨calls, s.runs.set index run'⟩)
    (hid : run'.sessionId = run.sessionId) (hholds : ∀ id, (sessionStore calls).Holds id → s.store.Holds id) :
    Coherent ⟨calls, s.runs.set index run'⟩ ↔ ((sessionStore calls).Holds run.sessionId → CompleteAtEnd run') := by
  rw [coherent_iff hinv]
  rw [coherent_iff h] at hsafe
  constructor
  · intro hall hheld
    apply hall run' _ (hid ▸ hheld)
    exact List.mem_set (List.getElem?_eq_some_iff.mp hrun).1 run'
  · intro hcomplete q hq hheld
    rcases mem_set_of_nodup h hrun hq with rfl | ⟨hq, -⟩
    · exact hcomplete (hid ▸ hheld)
    · exact hsafe q hq (hholds q.sessionId hheld)

theorem coherent_next_iff (h : s.Invariant) (hsafe : s.Coherent) {e : UploadEvent} (hstep : s.next e = some s') :
    s'.Coherent ↔ s.Guard e := by
  have hinv := invariant_next h hstep
  obtain ⟨sessionId, source, rfl, hfresh, rfl⟩ | ⟨index, run, event, rfl, hrun, hmay, rfl⟩ |
    ⟨index, run, multipart, rfl, hrun, hpending, rfl⟩ | ⟨index, run, rfl, hrun, hpending, rfl⟩ | ⟨sessionId, rfl, rfl⟩ :=
    next_cases hstep
  · refine iff_of_true ((coherent_iff hinv).mpr ?_) trivial
    rw [coherent_iff h] at hsafe
    intro run hrun hholds
    rcases List.mem_append.mp hrun with hrun | hrun
    · apply hsafe run hrun
      apply holds_of_cons _ hholds
      intro hnew
      exact hfresh (List.mem_singleton.mp hnew ▸ h.created run hrun)
    · rw [List.mem_singleton.mp hrun]
      rintro ⟨multipart, hresolved⟩
      cases hresolved
  · refine iff_of_true ((coherent_update_iff h hrun hsafe hinv rfl ?_).mpr ?_) trivial
    · exact fun id hheld => (holds_append_iff _ _ _ _).mp hheld
    · rintro - ⟨multipart, hresolved⟩
      rw [hmay.1] at hresolved
      cases hresolved
  · rw [coherent_update_iff h hrun hsafe hinv rfl (fun id hheld => (holds_append_iff _ _ _ _).mp hheld)]
    have hheld : (sessionStore (.append run.sessionId (run.finalSnapshot multipart) :: s.calls)).Holds run.sessionId ↔
        s.store.Holds run.sessionId := holds_append_iff _ _ _ _
    rw [hheld]
    constructor
    · intro hcomplete q hq hholds hannounced
      rw [hrun] at hq
      cases hq
      exact hcomplete hholds ⟨multipart, rfl⟩ hannounced
    · rintro hguard hholds - hannounced
      exact hguard run hrun hholds hannounced
  · refine iff_of_true ((coherent_update_iff h hrun hsafe hinv rfl (fun _ hheld => hheld)).mpr ?_) trivial
    rintro - ⟨multipart, hresolved⟩
    cases hresolved
  · refine iff_of_true ((coherent_iff hinv).mpr ?_) trivial
    rw [coherent_iff h] at hsafe
    exact fun run hrun hholds => hsafe run hrun (holds_of_cons (List.not_mem_nil) hholds)

end Steps

/-- In every interleaving of uploads, their progress and polls: the logs of the sessions still
held are coherent exactly as long as each announced stream has reported all of itself when it
resolves. -/
theorem upload_progress_coherent_iff (events : List UploadEvent) :
    AlwaysSafe next Coherent initial events ↔ AlwaysGuarded next Guard initial events := by
  apply alwaysSafe_iff_alwaysGuarded next (fun s e s' hinv hstep => invariant_next hinv hstep)
    (fun s e s' hinv hsafe hstep => coherent_next_iff hinv hsafe hstep) invariant_initial
  intro run hrun
  cases hrun

/-- A stream with its `Content-Length`, for which the library never calls `onProgress`. -/
theorem silent_stream_ends_incomplete :
    ¬ AlwaysSafe next Coherent initial [.started (js "session") (.stream 5 (some 5)), .resolved 0 false] := by
  intro hsafe
  have hinv := sessionInvariant
    (show FreshCreates [.append (js "session") ⟨0, some 5, none, some .single⟩, .create (js "session")] by decide)
  have hcreated : (sessionStore [.create (js "session")]).Holds (js "session") :=
    ((@sessionInvariant [.create (js "session")] (by decide)).created_holds_iff (by decide)).mpr (by decide)
  have hholds := (holds_append_iff _ (js "session") _ ⟨0, some 5, none, some .single⟩).mpr hcreated
  obtain ⟨snapshots, hget, hlog⟩ := hsafe _ _ (List.prefix_refl _) rfl _ List.mem_cons_self hholds
  cases (hinv.get_eq hholds).symm.trans hget
  exact absurd (hlog.complete _ rfl rfl rfl) (by decide)

end UploadProgress

end NestStorageExample.Api
