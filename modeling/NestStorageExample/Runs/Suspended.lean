import NestStorageExample.Runs.Guarded

/-! Handlers that are suspended at the calls they await, and pools of them over one world,
whose calls are served one at a time and in any order. -/
namespace NestStorageExample.Runs
variable {C : Type} {A : C → Type} {Q R S W : Type}

/-- A handler that has its result, or that stands at its next call. -/
inductive Suspended (C : Type) (A : C → Type) (R : Type) where
  | finished (result : R)
  | awaiting (call : C) (resume : A call → Suspended C A R)

namespace Suspended
variable (serve : (call : C) → W → A call × W)

/-- The handler with nobody beside it. -/
def alone : Suspended C A R → W → R × W
  | finished result, w => (result, w)
  | awaiting call resume, w => alone (resume (serve call w).1) (serve call w).2

/-- Of what a world holds, only the last call before the result may change anything. -/
def ActsLast (view : W → S) : Suspended C A R → Prop
  | finished _ => True
  | awaiting call resume => ∀ w,
    (∃ result, resume (serve call w).1 = finished result) ∨
      (view (serve call w).2 = view w ∧ ActsLast view (resume (serve call w).1))

/-- The handler's next call is its last. -/
def AtLast : Suspended C A R → Prop
  | finished _ => True
  | awaiting _ resume => ∀ answer, ∃ result, resume answer = finished result

/-- What is left of a handler some of whose calls were served, in worlds of `past`. -/
inductive LeftOf (past : List W) (h : Suspended C A R) : Suspended C A R → Prop where
  | whole : LeftOf past h h
  | resumed {call : C} {resume : A call → Suspended C A R} {v : W} :
    LeftOf past h (awaiting call resume) → v ∈ past → LeftOf past h (resume (serve call v).1)

/-- The handler's next call, served in `v`, brings the result and leaves `v'`. -/
def EndsIn (h : Suspended C A R) (v : W) (result : R) (v' : W) : Prop :=
  ∃ call resume, h = awaiting call resume ∧ resume (serve call v).1 = finished result ∧ (serve call v).2 = v'

/-- While the world `holds`, each call leaves it so, or brings a result that reports it. -/
def KeepsOrReports (holds : W → Prop) (reports : R → Prop) : Suspended C A R → Prop
  | finished _ => True
  | awaiting call resume => ∀ w, holds w →
    (∃ result, resume (serve call w).1 = finished result ∧ reports result) ∨
      (holds (serve call w).2 ∧ KeepsOrReports holds reports (resume (serve call w).1))

variable {serve}

theorem LeftOf.mono {past past' : List W} {h rest : Suspended C A R} (hleft : LeftOf serve past h rest)
    (hpast : past ⊆ past') : LeftOf serve past' h rest := by
  induction hleft with
  | whole => exact .whole
  | resumed _ hv ih => exact .resumed ih (hpast hv)

theorem AtLast.actsLast {view : W → S} {h : Suspended C A R} (hlast : h.AtLast) : h.ActsLast serve view := by
  cases h with
  | finished result => trivial
  | awaiting call resume => exact fun w => Or.inl (hlast _)

/-- A handler that probes with a first call, and goes on with a last one at most. -/
theorem LeftOf.of_probe {past : List W} {call : C} {resume : A call → Suspended C A R} {rest : Suspended C A R}
    (hlast : ∀ answer, (resume answer).AtLast) (hleft : LeftOf serve past (awaiting call resume) rest) :
    rest = awaiting call resume ∨ (∃ v ∈ past, rest = resume (serve call v).1) ∨ ∃ result, rest = finished result := by
  induction hleft with
  | whole => exact Or.inl rfl
  | @resumed call' resume' v _ hv ih =>
    rcases ih with hwhole | ⟨v₀, -, hprobed⟩ | ⟨result, hfinished⟩
    · cases hwhole
      exact Or.inr (Or.inl ⟨v, hv, rfl⟩)
    · have hnext := hlast (serve call v₀).1
      rw [← hprobed] at hnext
      exact Or.inr (Or.inr (hnext _))
    · cases hfinished

theorem LeftOf.of_atLast {past : List W} {h rest : Suspended C A R} (hlast : h.AtLast)
    (hleft : LeftOf serve past h rest) :
    rest = h ∨ ∃ result, rest = finished result := by
  induction hleft with
  | whole => exact Or.inl rfl
  | @resumed call resume v _ _ ih =>
    rcases ih with rfl | ⟨result, hfinished⟩
    · exact Or.inr (hlast _)
    · cases hfinished

theorem EndsIn.not_finished {v v' : W} {result : R} {h : Suspended C A R} (hends : h.EndsIn serve v result v') :
    ¬ ∃ result', h = finished result' := by
  rintro ⟨result', rfl⟩
  obtain ⟨call, resume, hawaiting, -⟩ := hends
  cases hawaiting

theorem EndsIn.alone {h : Suspended C A R} {v v' : W} {result : R} (hends : h.EndsIn serve v result v') :
    h.alone serve v = (result, v') := by
  obtain ⟨call, resume, rfl, hresult, rfl⟩ := hends
  rw [Suspended.alone, hresult, Suspended.alone]

end Suspended

/-- A world, the requests whose handlers wait for a call, and those that are answered, in the
order of their answers. -/
structure Pool (W C : Type) (A : C → Type) (Q R : Type) where
  world : W
  waiting : List (Q × Suspended C A R)
  answered : List (Q × R)

inductive PoolEvent (Q : Type) where
  | arrive (request : Q)
  | serve (i : Nat)
  deriving DecidableEq, Repr

namespace Pool

def opened (w : W) : Pool W C A Q R := ⟨w, [], []⟩

/-- The handler waits for its next call, or answers. -/
def settle (s : Pool W C A Q R) (request : Q) : Suspended C A R → Pool W C A Q R
  | .finished result => { s with answered := s.answered ++ [(request, result)] }
  | .awaiting call resume => { s with waiting := s.waiting ++ [(request, .awaiting call resume)] }

variable (handler : Q → Suspended C A R) (serve : (call : C) → W → A call × W)

/-- The call of a waiting handler is served; `none` where nothing waits. -/
def served (s : Pool W C A Q R) (i : Nat) : Option (Pool W C A Q R) :=
  match s.waiting[i]? with
  | some (request, .awaiting call resume) =>
    some (settle ⟨(serve call s.world).2, s.waiting.eraseIdx i, s.answered⟩ request (resume (serve call s.world).1))
  | _ => none

def next (s : Pool W C A Q R) : PoolEvent Q → Option (Pool W C A Q R)
  | .arrive request => some (s.settle request (handler request))
  | .serve i => s.served serve i

variable {handler} {serve}

@[simp] theorem settle_finished (s : Pool W C A Q R) (request : Q) (result : R) :
    s.settle request (.finished result) = { s with answered := s.answered ++ [(request, result)] } := rfl

@[simp] theorem settle_world (s : Pool W C A Q R) (request : Q) (h : Suspended C A R) :
    (s.settle request h).world = s.world := by
  cases h <;> rfl

/-- What answers a pool has, settling keeps. -/
theorem settle_answered (s : Pool W C A Q R) (request : Q) (h : Suspended C A R) :
    s.answered <+: (s.settle request h).answered := by
  cases h with
  | finished result => exact List.prefix_append _ _
  | awaiting call resume => exact List.prefix_rfl

theorem mem_settle_waiting {s : Pool W C A Q R} {request : Q} {h : Suspended C A R} {entry : Q × Suspended C A R}
    (hentry : entry ∈ (s.settle request h).waiting) : entry ∈ s.waiting ∨ entry = (request, h) := by
  cases h with
  | finished result => exact Or.inl hentry
  | awaiting call resume => simpa [settle] using hentry

theorem served_eq_some {s s' : Pool W C A Q R} {i : Nat} (h : s.served serve i = some s') :
    ∃ request call resume, (request, .awaiting call resume) ∈ s.waiting ∧
      s' = settle ⟨(serve call s.world).2, s.waiting.eraseIdx i, s.answered⟩ request
        (resume (serve call s.world).1) := by
  unfold served at h
  split at h
  · rename_i request call resume hi
    exact ⟨request, call, resume, List.mem_of_getElem? hi, (Option.some.inj h).symm⟩
  · cases h

end Pool

/-- Answered requests one after another, each from what the one before it left; `past` is where
the run had been by then. -/
inductive Sequential (spec : List W → Q → S → R → S → Prop) (s : S) : List W → List (Q × R) → S → Prop where
  | nil (past : List W) : Sequential spec s past [] s
  | snoc {earlier past later : List W} {done : List (Q × R)} {request : Q} {result : R} {s' s'' : S} :
    Sequential spec s earlier done s' → earlier <+: past → spec past request s' result s'' → past <+: later →
    Sequential spec s later (done ++ [(request, result)]) s''

section History
variable {spec spec' : List W → Q → S → R → S → Prop} {s s' : S} {past later : List W} {done : List (Q × R)}

theorem Sequential.append (h : Sequential spec s past done s') (more : List W) :
    Sequential spec s (past ++ more) done s' := by
  cases h with
  | nil => exact .nil _
  | snoc hdone hearlier hspec hlater => exact .snoc hdone hearlier hspec (hlater.trans (List.prefix_append _ _))

theorem Sequential.mono (h : Sequential spec s past done s')
    (hspec : ∀ past request before result after, spec past request before result after →
      spec' past request before result after) : Sequential spec' s past done s' := by
  induction h with
  | nil past => exact .nil past
  | snoc _ hearlier hstep hlater ih => exact .snoc ih hearlier (hspec _ _ _ _ _ hstep) hlater

end History

namespace Pool
variable {handler : Q → Suspended C A R} {serve : (call : C) → W → A call × W} {view : W → S}
variable {arrives : Q → Prop}

/-- The requests of a list of events. -/
def Arrivals (arrives : Q → Prop) (events : List (PoolEvent Q)) : Prop :=
  ∀ request, PoolEvent.arrive request ∈ events → arrives request

/-- The worlds a pool goes through, one after each event. -/
def worlds (handler : Q → Suspended C A R) (serve : (call : C) → W → A call × W) (s : Pool W C A Q R) :
    List (PoolEvent Q) → List W
  | [] => []
  | event :: events =>
    match next handler serve s event with
    | some s' => s'.world :: worlds handler serve s' events
    | none => []

/-- An invariant of pools and where they have been, carried through the events of requests that
`arrives` admits. -/
theorem run_of_arrivals {inv : List W → Pool W C A Q R → Prop}
    (harrive : ∀ past s request, inv past s → arrives request →
      inv (past ++ [s.world]) (s.settle request (handler request)))
    (hserve : ∀ past s i s', inv past s → s.served serve i = some s' → inv (past ++ [s'.world]) s')
    {past : List W} {s s' : Pool W C A Q R} {events : List (PoolEvent Q)} (hs : inv past s)
    (harrivals : Arrivals arrives events) (h : run (next handler serve) s events = some s') :
    inv (past ++ worlds handler serve s events) s' := by
  induction events generalizing past s with
  | nil =>
    cases h
    rwa [worlds, List.append_nil]
  | cons event events ih =>
    obtain ⟨s₁, h₁, hrest⟩ := Option.bind_eq_some_iff.mp h
    rw [worlds, h₁]
    dsimp only
    rw [List.append_cons]
    apply ih _ (fun request hmem => harrivals request (List.mem_cons_of_mem _ hmem)) hrest
    cases event with
    | arrive request =>
      cases h₁
      rw [settle_world]
      exact harrive past s request hs (harrivals request List.mem_cons_self)
    | serve i => exact hserve past s i s₁ hs h₁

/-- One moment's execution of an admitted request: what is left of its handler, after calls that
were served in worlds of `past`, ends with a call served in such a world. -/
def Executed (arrives : Q → Prop) (handler : Q → Suspended C A R) (serve : (call : C) → W → A call × W) (view : W → S)
    (past : List W) (request : Q) (before : S) (result : R) (after : S) : Prop :=
  arrives request ∧ ((handler request = .finished result ∧ after = before) ∨
    ∃ rest, ∃ v ∈ past, ∃ v', (handler request).LeftOf serve past rest ∧ rest.EndsIn serve v result v' ∧
      view v = before ∧ view v' = after)

/-- The answers so far are those of a sequential run, and every handler that waits is what is
left of its request's and acts with its last call. -/
structure Linear (arrives : Q → Prop) (handler : Q → Suspended C A R) (serve : (call : C) → W → A call × W)
    (view : W → S) (start : S) (past : List W) (s : Pool W C A Q R) : Prop where
  sequential : Sequential (Executed arrives handler serve view) start past s.answered (view s.world)
  here : s.world ∈ past
  waiting : ∀ entry ∈ s.waiting, arrives entry.1 ∧ (handler entry.1).LeftOf serve past entry.2 ∧
    entry.2.ActsLast serve view

section Invariant
variable {start : S} {past : List W} {s : Pool W C A Q R} {request : Q}

private theorem Linear.waiting_later {more : List W} {entry : Q × Suspended C A R}
    (h : arrives entry.1 ∧ (handler entry.1).LeftOf serve past entry.2 ∧ entry.2.ActsLast serve view) :
    arrives entry.1 ∧ (handler entry.1).LeftOf serve (past ++ more) entry.2 ∧ entry.2.ActsLast serve view :=
  ⟨h.1, h.2.1.mono (List.subset_append_left _ _), h.2.2⟩

/-- A request arrives, and waits for its first call or is answered. -/
theorem Linear.arrive (h : Linear arrives handler serve view start past s) (harrives : arrives request)
    (hacts : (handler request).ActsLast serve view) :
    Linear arrives handler serve view start (past ++ [s.world]) (s.settle request (handler request)) := by
  cases hhandler : handler request with
  | finished result =>
    refine ⟨?_, by simp, fun entry hentry => Linear.waiting_later (h.waiting entry hentry)⟩
    exact .snoc h.sequential List.prefix_rfl ⟨harrives, Or.inl ⟨hhandler, rfl⟩⟩ (List.prefix_append _ _)
  | awaiting call resume =>
    refine ⟨h.sequential.append _, by simp, fun entry hentry => ?_⟩
    rcases mem_settle_waiting hentry with hentry | rfl
    · exact Linear.waiting_later (h.waiting entry hentry)
    · rw [hhandler] at hacts
      refine ⟨harrives, ?_, hacts⟩
      rw [hhandler]
      exact .whole

/-- The call of a waiting handler is served: it is the last, or changes nothing. -/
theorem Linear.served {i : Nat} {s' : Pool W C A Q R} (h : Linear arrives handler serve view start past s)
    (hserved : s.served serve i = some s') : Linear arrives handler serve view start (past ++ [s'.world]) s' := by
  obtain ⟨request, call, resume, hmem, rfl⟩ := served_eq_some hserved
  obtain ⟨harrives, hleft, hacts⟩ := h.waiting _ hmem
  have hothers : ∀ entry ∈ s.waiting.eraseIdx i, arrives entry.1 ∧
      (handler entry.1).LeftOf serve (past ++ [(serve call s.world).2]) entry.2 ∧ entry.2.ActsLast serve view :=
    fun entry hentry => Linear.waiting_later (h.waiting entry (List.mem_of_mem_eraseIdx hentry))
  rw [settle_world]
  cases hrest : resume (serve call s.world).1 with
  | finished result =>
    refine ⟨.snoc h.sequential List.prefix_rfl ⟨harrives, Or.inr ?_⟩ (List.prefix_append _ _), by simp, hothers⟩
    exact ⟨_, s.world, h.here, _, hleft, ⟨call, resume, rfl, hrest, rfl⟩, rfl, rfl⟩
  | awaiting call' resume' =>
    rcases hacts s.world with ⟨result, hresult⟩ | ⟨hview, hlater⟩
    · rw [hrest] at hresult
      cases hresult
    · rw [hrest] at hlater
      refine ⟨?_, by simp, fun entry hentry => ?_⟩
      · have hsequential := h.sequential.append [(serve call s.world).2]
        rwa [← hview] at hsequential
      · rcases mem_settle_waiting hentry with hentry | rfl
        · exact hothers entry hentry
        · have hresumed := hleft.resumed h.here
          rw [hrest] at hresumed
          exact ⟨harrives, hresumed.mono (List.subset_append_left _ _), hlater⟩

end Invariant

/-- Handlers that act with their last call are served, in whatever interleaving, as if each
were executed at one moment, in the order of the answers. -/
theorem linearizable (hhandler : ∀ request, arrives request → (handler request).ActsLast serve view)
    {w : W} {s : Pool W C A Q R} {events : List (PoolEvent Q)} (harrivals : Arrivals arrives events)
    (h : run (next handler serve) (opened w) events = some s) :
    Sequential (Executed arrives handler serve view) (view w) (w :: worlds handler serve (opened w) events) s.answered
      (view s.world) := by
  have hlinear : Linear arrives handler serve view (view w) ([w] ++ worlds handler serve (opened w) events) s := by
    refine run_of_arrivals ?_ ?_ ⟨.nil _, by simp [opened], by simp [opened]⟩ harrivals h
    · exact fun past s request hs harrives => hs.arrive harrives (hhandler request harrives)
    · exact fun past s i s' hs hserved => hs.served hserved
  exact hlinear.sequential

/-- What the world holds at the start is lost only with an answer that reports it. -/
theorem kept_or_reported {holds : W → Prop} {reports : Q → R → Prop}
    (hhandler : ∀ request, arrives request → (handler request).KeepsOrReports serve holds (reports request))
    {w : W} (hw : holds w) {s : Pool W C A Q R} {events : List (PoolEvent Q)} (harrivals : Arrivals arrives events)
    (h : run (next handler serve) (opened w) events = some s) :
    (∃ entry ∈ s.answered, reports entry.1 entry.2) ∨ holds s.world := by
  let inv (_ : List W) (s : Pool W C A Q R) : Prop := (∃ entry ∈ s.answered, reports entry.1 entry.2) ∨
    (holds s.world ∧ ∀ entry ∈ s.waiting, entry.2.KeepsOrReports serve holds (reports entry.1))
  have hinv : inv ([] ++ worlds handler serve (opened w) events) s := by
    refine run_of_arrivals ?_ ?_ (Or.inr ⟨hw, by simp [opened]⟩) harrivals h
    · rintro _ s request (⟨entry, hentry, hreports⟩ | ⟨hholds, hwaiting⟩) harrives
      · exact Or.inl ⟨entry, (settle_answered _ _ _).subset hentry, hreports⟩
      · refine Or.inr ⟨by simpa using hholds, fun entry hentry => ?_⟩
        rcases mem_settle_waiting hentry with hentry | rfl
        · exact hwaiting entry hentry
        · exact hhandler request harrives
    · rintro _ s i s' (⟨entry, hentry, hreports⟩ | ⟨hholds, hwaiting⟩) hserved
      · obtain ⟨request, call, resume, -, rfl⟩ := served_eq_some hserved
        exact Or.inl ⟨entry, (settle_answered _ _ _).subset hentry, hreports⟩
      · obtain ⟨request, call, resume, hmem, rfl⟩ := served_eq_some hserved
        rcases hwaiting _ hmem s.world hholds with ⟨result, hresult, hreports⟩ | ⟨hkept, hnext⟩
        · rw [hresult]
          exact Or.inl ⟨(request, result), by simp, hreports⟩
        · refine Or.inr ⟨by simpa using hkept, fun entry hentry => ?_⟩
          rcases mem_settle_waiting hentry with hentry | rfl
          · exact hwaiting entry (List.mem_of_mem_eraseIdx hentry)
          · exact hnext
  exact hinv.imp_right And.left

end Pool

end NestStorageExample.Runs
