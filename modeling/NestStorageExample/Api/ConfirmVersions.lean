import NestStorageExample.Api.Confirm
import NestStorageExample.Storage.Observed

/-! `confirm` beside clients that go on putting to the key: the three calls it makes name
the key only, and each meets the version that is the latest by then. -/
namespace NestStorageExample.Api
open Text Effects Storage
variable {W : Type} (provider : Provider W)

/-- Client PUTs through the URL signed for a key, in the order they land. -/
def puts (key : JsString) (objects : List StoredObject) (w : W) : W :=
  objects.foldl (fun w object => provider.put key object w) w

/-- The version at the key once the PUTs have landed. -/
def latest (stored : Option StoredObject) (objects : List StoredObject) : Option StoredObject :=
  objects.getLast?.or stored

/-- The run's download read this version of the key. -/
def Scanned (key : JsString) (s : Observed W) (version : StoredObject) : Prop :=
  ∃ slot options store, provider.slot none key = some slot ∧ (Call.download options, store) ∈ s.calls ∧
    provider.slot options.bucket options.key = some slot ∧ store.lookup slot = some version

/-- What a run of `confirm` has to promise of the versions at the key. -/
structure VouchesForOne (validation : Option ValidationPolicy) (key : JsString)
    (run : Except Rejection ConfirmResult × Observed W) : Prop where
  confirmed : ∀ result, run.1 = .ok result → result.confirmed = true →
    ∃ version, Scanned provider key run.2 version ∧ version.metadata = result.metadata ∧ Passes validation version
  deletes : ∀ deleted bucket store target version, (Call.delete deleted bucket, store) ∈ run.2.calls →
    provider.slot bucket deleted = some target → store.lookup target = some version →
    provider.slot none key = some target ∧ Scanned provider key run.2 version ∧
      MarkerFileScanner.Infected version.body

/-- The PUTs that land between the calls do no harm: where the version that `head` met
passes the policy and the one the download met is clean they agree on the metadata, and
nothing lands between the download and the removal of what is infected. -/
structure Undisturbed (validation : Option ValidationPolicy) (answersEmpty : Bool)
    (headed downloaded : Option StoredObject) (late : List StoredObject) : Prop where
  metadata : ∀ head ∈ headed, ∀ download ∈ downloaded, (download.body = [] → answersEmpty = true) →
    SizeWithin validation head.metadata.size → MimeWithin validation head.metadata.contentType →
    ¬ MarkerFileScanner.Infected download.body → ¬ MarkerFileScanner.Inconclusive download.body →
    head.metadata = download.metadata
  removal : ∀ head ∈ headed, ∀ download ∈ downloaded, MarkerFileScanner.Infected download.body → late = []

variable {provider}

theorem latest_mem {stored : Option StoredObject} {objects : List StoredObject} {version : StoredObject}
    (h : latest stored objects = some version) : version ∈ stored.toList ++ objects := by
  unfold latest at h
  cases hlast : objects.getLast? with
  | none =>
    rw [hlast, Option.none_or] at h
    exact List.mem_append_left _ (by rw [h]; exact List.mem_singleton_self version)
  | some last =>
    rw [hlast, Option.some_or, Option.some.injEq] at h
    exact List.mem_append_right _ (List.mem_of_getLast? (h ▸ hlast))

theorem latest_some (version : StoredObject) (objects : List StoredObject) :
    ∃ next, latest (some version) objects = some next := by
  unfold latest
  cases objects.getLast? with
  | none => exact ⟨version, rfl⟩
  | some last => exact ⟨last, rfl⟩

theorem lookup_puts (hput : provider.PutContract) {key : JsString} {slot : Slot}
    (hslot : provider.slot none key = some slot) (objects : List StoredObject) (w : W) :
    (provider.store (puts provider key objects w)).lookup slot = latest ((provider.store w).lookup slot) objects := by
  unfold puts latest
  induction objects using List.reverseRecOn with
  | nil => rfl
  | append_singleton objects object _ =>
    rw [List.foldl_append, List.foldl_cons, List.foldl_nil, hput hslot, Finmap.lookup_insert, List.getLast?_append]
    rfl

/-- One `confirm` with PUTs before each of its calls. -/
def confirmBeside (provider : Provider W) (validation : Option ValidationPolicy) (key : JsString) (w : W)
    (early between late : List StoredObject) : Except Rejection ConfirmResult × Observed W :=
  ConfirmService.confirm provider.observed ⟨provider.bucket, validation⟩ (ScannerConfirm.scan provider.observed) key
    ⟨w, [puts provider key early, puts provider key between, puts provider key late], []⟩

def scanDownload (provider : Provider W) (key : JsString) : DownloadOptions :=
  ⟨key, some provider.bucket, some (js "bytes=0-4095")⟩

section Calls
variable {answersEmpty : Bool} {key : JsString} {slot : Slot} {object : StoredObject} {w : W}

/-- A ranged download settles by the two contracts together. -/
private theorem download_answers (hdownload : provider.DownloadContract)
    (hempty : provider.EmptyRangeContract answersEmpty) (hslot : provider.slot none key = some slot)
    (hobject : (provider.store w).lookup slot = some object) (hanswer : object.body = [] → answersEmpty = true) :
    ∃ download w', provider.service.download (scanDownload provider key) w = (.ok download, w') ∧
      download.stream.flatMap Chunk.bytes = object.body.take 4096 ∧ provider.store w' = provider.store w := by
  have hslot' : provider.slot (some provider.bucket) key = some slot := hslot
  by_cases hbody : object.body = []
  · have hsettles := hempty hslot' hobject hbody
    cases hrun : provider.service.download (scanDownload provider key) w with
    | mk result w' =>
      cases result with
      | ok download =>
        obtain ⟨-, hstream, -, hstore⟩ := hsettles.of_ok hrun
        exact ⟨download, w', rfl, by rw [hstream, hbody, List.take_nil], hstore⟩
      | error e =>
        have hrejected := (hsettles.of_error hrun).1
        rw [hanswer hbody] at hrejected
        cases hrejected
  · obtain ⟨download, w', hrun, hstream, -, hstore⟩ := (hdownload hslot' hobject hbody).exists_ok
    exact ⟨download, w', hrun, hstream, hstore⟩

private theorem download_rejects (hempty : provider.EmptyRangeContract answersEmpty)
    (hslot : provider.slot none key = some slot) (hobject : (provider.store w).lookup slot = some object)
    (hbody : object.body = []) (hanswer : answersEmpty ≠ true) :
    ∃ e w', provider.service.download (scanDownload provider key) w = (.error e, w') := by
  have hslot' : provider.slot (some provider.bucket) key = some slot := hslot
  have hsettles := hempty hslot' hobject hbody
  cases hrun : provider.service.download (scanDownload provider key) w with
  | mk result w' =>
    cases result with
    | ok download => exact absurd (hsettles.of_ok hrun).1 hanswer
    | error e => exact ⟨e, w', rfl⟩

end Calls

section Outcomes
variable {answersEmpty : Bool} (validation : Option ValidationPolicy) {key : JsString} {slot : Slot} {w : W}
  (early between late : List StoredObject) {head download : StoredObject}

theorem head_runs (hhead : provider.HeadContract) (hput : provider.PutContract)
    (hslot : provider.slot none key = some slot)
    (hheaded : latest ((provider.store w).lookup slot) early = some head) :
    ∃ w₁, provider.service.head key none (puts provider key early w) = (.ok head.metadata, w₁) ∧
      (provider.store (puts provider key between w₁)).lookup slot = latest (some head) between := by
  rw [← lookup_puts hput hslot] at hheaded
  obtain ⟨metadata, w₁, hrun, rfl, hstore⟩ := (hhead.present hslot hheaded).exists_ok
  exact ⟨w₁, hrun, by rw [lookup_puts hput hslot, hstore, hheaded]⟩

/-- The version that is scanned is not infected: it is the last one the run looks at. -/
theorem confirmBeside_kept (hhead : provider.HeadContract) (hdownload : provider.DownloadContract)
    (hempty : provider.EmptyRangeContract answersEmpty) (hput : provider.PutContract)
    (hslot : provider.slot none key = some slot)
    (hheaded : latest ((provider.store w).lookup slot) early = some head)
    (hdownloaded : latest (some head) between = some download) (hanswer : download.body = [] → answersEmpty = true)
    (hinfected : ¬ MarkerFileScanner.Infected download.body) :
    ∃ scan s earlier later,
      confirmBeside provider validation key w early between late =
        (.ok (ConfirmService.report ⟨provider.bucket, validation⟩ key head.metadata scan), s) ∧
      (scan.status = .clean ↔ ¬ MarkerFileScanner.Inconclusive download.body) ∧
      s.calls = [(.head key none, earlier), (.download (scanDownload provider key), later)] ∧
      later.lookup slot = some download := by
  obtain ⟨w₁, hrun₁, hlookup₁⟩ := head_runs early between hhead hput hslot hheaded
  rw [hdownloaded] at hlookup₁
  obtain ⟨result, w₂, hrun₂, hstream, -⟩ := download_answers hdownload hempty hslot hlookup₁ hanswer
  have hbytes := mt (infected_take download.body).mp hinfected
  rw [← hstream] at hbytes
  obtain ⟨scan, hclean, hrun⟩ := confirm_not_infected provider.observed ⟨provider.bucket, validation⟩
    (provider.observe_turn hrun₁) (provider.observe_turn hrun₂) hbytes
  rw [hstream, inconclusive_take] at hclean
  exact ⟨scan, _, _, _, hrun, hclean, rfl, hlookup₁⟩

/-- The version that is scanned is infected: what is there by then is deleted. -/
theorem confirmBeside_removed (hhead : provider.HeadContract) (hdownload : provider.DownloadContract)
    (hdelete : provider.DeleteContract) (hput : provider.PutContract) (hslot : provider.slot none key = some slot)
    (hheaded : latest ((provider.store w).lookup slot) early = some head)
    (hdownloaded : latest (some head) between = some download)
    (hinfected : MarkerFileScanner.Infected download.body) :
    ∃ threat s earlier later last,
      confirmBeside provider validation key w early between late =
        (.ok (ConfirmService.report ⟨provider.bucket, validation⟩ key head.metadata ⟨.infected, threat⟩), s) ∧
      s.calls = [(.head key none, earlier), (.download (scanDownload provider key), later),
        (.delete key (some provider.bucket), last)] ∧
      later.lookup slot = some download ∧ last.lookup slot = latest (some download) late := by
  obtain ⟨w₁, hrun₁, hlookup₁⟩ := head_runs early between hhead hput hslot hheaded
  rw [hdownloaded] at hlookup₁
  have hslot' : provider.slot (some provider.bucket) key = some slot := hslot
  have hbody : download.body ≠ [] := by
    intro hnil
    rw [hnil] at hinfected
    exact absurd hinfected (by decide)
  obtain ⟨result, w₂, hrun₂, hstream, -, hstore₂⟩ := (hdownload hslot' hlookup₁ hbody).exists_ok
  obtain ⟨_, w₃, hrun₃, -⟩ := (@hdelete _ _ _ (puts provider key late w₂) hslot').exists_ok
  have hbytes := (infected_take download.body).mpr hinfected
  rw [← hstream] at hbytes
  obtain ⟨threat, hrun⟩ := confirm_infected provider.observed ⟨provider.bucket, validation⟩
    (provider.observe_turn hrun₁) (provider.observe_turn hrun₂) hbytes (provider.observe_turn hrun₃)
  exact ⟨threat, _, _, _, _, hrun, rfl, hlookup₁, by rw [lookup_puts hput hslot, hstore₂, hlookup₁]⟩

/-- Where `head` finds nothing, a key the resolver turns away among others, the run ends
in a rejection. -/
theorem confirmBeside_absent (hhead : provider.HeadContract) (hput : provider.PutContract)
    (h : ∀ slot, provider.slot none key = some slot → latest ((provider.store w).lookup slot) early = none) :
    ∃ e s, confirmBeside provider validation key w early between late = (.error e, s) ∧
      ∀ deleted bucket store, (Call.delete deleted bucket, store) ∉ s.calls := by
  have habsent : ∀ slot, provider.slot none key = some slot →
      (provider.store (puts provider key early w)).lookup slot = none := by
    intro slot hslot
    rw [lookup_puts hput hslot]
    exact h slot hslot
  have hsettles := hhead.absent habsent
  cases hrun : provider.service.head key none (puts provider key early w) with
  | mk result w₁ =>
    cases result with
    | ok metadata => exact (hsettles.of_ok hrun).elim
    | error e =>
      refine ⟨e, _, Async.bind_of_error (provider.observe_turn hrun), ?_⟩
      simp

/-- Where the range of an empty version is turned away, the run ends in a rejection too. -/
theorem confirmBeside_rejected (hhead : provider.HeadContract) (hempty : provider.EmptyRangeContract answersEmpty)
    (hput : provider.PutContract) (hslot : provider.slot none key = some slot)
    (hheaded : latest ((provider.store w).lookup slot) early = some head)
    (hdownloaded : latest (some head) between = some download) (hbody : download.body = [])
    (hanswer : answersEmpty ≠ true) :
    ∃ e s, confirmBeside provider validation key w early between late = (.error e, s) ∧
      ∀ deleted bucket store, (Call.delete deleted bucket, store) ∉ s.calls := by
  obtain ⟨w₁, hrun₁, hlookup₁⟩ := head_runs early between hhead hput hslot hheaded
  rw [hdownloaded] at hlookup₁
  obtain ⟨e, w₂, hrun₂⟩ := download_rejects hempty hslot hlookup₁ hbody hanswer
  refine ⟨e, _, (Async.bind_of_ok (provider.observe_turn hrun₁)).trans
    (Async.bind_of_error (Async.bind_of_error (provider.observe_turn hrun₂))), ?_⟩
  simp

end Outcomes

section Promise
variable {answersEmpty : Bool} (validation : Option ValidationPolicy) {key : JsString} {slot : Slot} {w : W}
  (early between late : List StoredObject) {head download version : StoredObject}

/-- A run that downloads once scanned the version that was there. -/
theorem scanned_iff (hslot : provider.slot none key = some slot) {s : Observed W} {earlier later : Store}
    {rest : List (Call × Store)}
    (hcalls : s.calls = (.head key none, earlier) :: (.download (scanDownload provider key), later) :: rest)
    (hrest : ∀ options store, (Call.download options, store) ∉ rest) :
    Scanned provider key s version ↔ later.lookup slot = some version := by
  unfold Scanned
  rw [hcalls]
  constructor
  · rintro ⟨target, options, store, htarget, hmem, -, hversion⟩
    rw [hslot, Option.some.injEq] at htarget
    subst htarget
    rcases List.mem_cons.mp hmem with heq | hmem
    · cases heq
    · rcases List.mem_cons.mp hmem with heq | hmem
      · rw [Prod.mk.injEq] at heq
        rwa [← heq.2]
      · exact absurd hmem (hrest options store)
  · exact fun hversion => ⟨slot, scanDownload provider key, later, hslot, by simp, hslot, hversion⟩

theorem vouches_of_rejected {e : Rejection} {s : Observed W}
    (hcalls : ∀ deleted bucket store, (Call.delete deleted bucket, store) ∉ s.calls) :
    VouchesForOne provider validation key (.error e, s) where
  confirmed _ h := by cases h
  deletes deleted bucket store _ _ hmem := absurd hmem (hcalls deleted bucket store)

/-- Two versions in different parts of the history differ. -/
private theorem late_ne {earlier late : List StoredObject} (h : ((earlier ++ late).map StoredObject.version).Nodup)
    (hearlier : download ∈ earlier) (hlate : version ∈ late) : version ≠ download := by
  rintro rfl
  rw [List.map_append] at h
  exact (List.nodup_append.mp h).2.2 _ (List.mem_map_of_mem hearlier) _ (List.mem_map_of_mem hlate) rfl

theorem vouches_kept_iff (hhead : provider.HeadContract) (hdownload : provider.DownloadContract)
    (hempty : provider.EmptyRangeContract answersEmpty) (hput : provider.PutContract)
    (hslot : provider.slot none key = some slot)
    (hheaded : latest ((provider.store w).lookup slot) early = some head)
    (hdownloaded : latest (some head) between = some download) (hanswer : download.body = [] → answersEmpty = true)
    (hinfected : ¬ MarkerFileScanner.Infected download.body) :
    VouchesForOne provider validation key (confirmBeside provider validation key w early between late) ↔
      (SizeWithin validation head.metadata.size → MimeWithin validation head.metadata.contentType →
        ¬ MarkerFileScanner.Inconclusive download.body → head.metadata = download.metadata) := by
  obtain ⟨scan, s, earlier, later, hrun, hclean, hcalls, hlater⟩ :=
    confirmBeside_kept validation early between late hhead hdownload hempty hput hslot hheaded hdownloaded hanswer
      hinfected
  have hscanned : ∀ version, Scanned provider key s version ↔ version = download := by
    intro version
    rw [scanned_iff hslot hcalls (fun _ _ => List.not_mem_nil), hlater, Option.some.injEq, eq_comm]
  rw [hrun]
  constructor
  · intro hv hsize hmime hnot
    obtain ⟨version, hversion, hmetadata, -⟩ :=
      hv.confirmed _ rfl ((report_confirmed_iff _ _ _ _).mpr ⟨hsize, hmime, hclean.mpr hnot⟩)
    rw [hscanned] at hversion
    rw [← hversion]
    exact hmetadata.symm
  · intro h
    constructor
    · rintro result ⟨rfl⟩ hconfirmed
      obtain ⟨hsize, hmime, hstatus⟩ := (report_confirmed_iff _ _ _ _).mp hconfirmed
      have hsame := h hsize hmime (hclean.mp hstatus)
      refine ⟨download, (hscanned download).mpr rfl, hsame.symm, ?_, ?_, hinfected, hclean.mp hstatus⟩
      · rw [← hsame]
        exact hsize
      · rw [← hsame]
        exact hmime
    · intro deleted bucket store target version hmem
      rw [hcalls] at hmem
      simp at hmem

theorem vouches_removed_iff (hhead : provider.HeadContract) (hdownload : provider.DownloadContract)
    (hdelete : provider.DeleteContract) (hput : provider.PutContract) (hslot : provider.slot none key = some slot)
    (hheaded : latest ((provider.store w).lookup slot) early = some head)
    (hdownloaded : latest (some head) between = some download)
    (hversions :
      ((((provider.store w).lookup slot).toList ++ early ++ between ++ late).map StoredObject.version).Nodup)
    (hinfected : MarkerFileScanner.Infected download.body) :
    VouchesForOne provider validation key (confirmBeside provider validation key w early between late) ↔
      late = [] := by
  obtain ⟨threat, s, earlier, later, last, hrun, hcalls, hlater, hlast⟩ :=
    confirmBeside_removed validation early between late hhead hdownload hdelete hput hslot hheaded hdownloaded
      hinfected
  have hscanned : ∀ version, Scanned provider key s version ↔ version = download := by
    intro version
    rw [scanned_iff hslot hcalls (by simp), hlater, Option.some.injEq, eq_comm]
  rw [hrun]
  constructor
  · intro hv
    by_contra hlate
    -- the version that is deleted came after the one that was scanned
    have hfinal := List.getLast?_eq_some_getLast hlate
    rw [latest, hfinal, Option.some_or] at hlast
    obtain ⟨-, hversion, -⟩ := hv.deletes key (some provider.bucket) last slot _ (by rw [hcalls]; simp) hslot hlast
    rw [hscanned] at hversion
    refine late_ne hversions ?_ (List.getLast_mem hlate) hversion
    have hmem := latest_mem hdownloaded
    rw [Option.toList_some] at hmem
    rcases List.mem_append.mp hmem with hmem | hmem
    · rw [List.mem_singleton] at hmem
      subst hmem
      exact List.mem_append_left _ (latest_mem hheaded)
    · exact List.mem_append_right _ hmem
  · rintro rfl
    constructor
    · rintro result ⟨rfl⟩ hconfirmed
      obtain ⟨-, -, hstatus⟩ := (report_confirmed_iff _ _ _ _).mp hconfirmed
      cases hstatus
    · intro deleted bucket store target version hmem htarget hversion
      rw [hcalls] at hmem
      simp only [List.mem_cons, Prod.mk.injEq, reduceCtorEq, false_and, Call.delete.injEq, List.not_mem_nil, or_false,
        false_or] at hmem
      obtain ⟨⟨rfl, rfl⟩, rfl⟩ := hmem
      have hsame : some slot = some target := hslot.symm.trans htarget
      rw [Option.some.injEq] at hsame
      subst hsame
      rw [hlast] at hversion
      have heq : download = version := Option.some.inj hversion
      subst heq
      exact ⟨hslot, (hscanned download).mpr rfl, hinfected⟩

/-- At a key that resolves the promise is kept exactly when the PUTs do no harm. -/
theorem vouches_iff_undisturbed (hhead : provider.HeadContract) (hdownload : provider.DownloadContract)
    (hempty : provider.EmptyRangeContract answersEmpty) (hdelete : provider.DeleteContract)
    (hput : provider.PutContract) (hslot : provider.slot none key = some slot)
    (hversions :
      ((((provider.store w).lookup slot).toList ++ early ++ between ++ late).map StoredObject.version).Nodup) :
    VouchesForOne provider validation key (confirmBeside provider validation key w early between late) ↔
      Undisturbed validation answersEmpty (latest ((provider.store w).lookup slot) early)
        (latest (latest ((provider.store w).lookup slot) early) between) late := by
  cases hheaded : latest ((provider.store w).lookup slot) early with
  | none =>
    obtain ⟨e, s, hrun, hcalls⟩ :=
      confirmBeside_absent validation early between late hhead hput (Provider.forall_slot hslot hheaded)
    rw [hrun]
    refine iff_of_true (vouches_of_rejected validation hcalls) ⟨?_, ?_⟩
    · intro head h
      cases h
    · intro head h
      cases h
  | some head =>
    obtain ⟨download, hdownloaded⟩ := latest_some head between
    rw [hdownloaded]
    by_cases hanswer : download.body = [] → answersEmpty = true
    · by_cases hinfected : MarkerFileScanner.Infected download.body
      · rw [vouches_removed_iff validation early between late hhead hdownload hdelete hput hslot hheaded hdownloaded
          hversions hinfected]
        constructor
        · intro hlate
          refine ⟨?_, fun _ _ _ _ _ => hlate⟩
          rintro _ - _ ⟨rfl⟩ - - - hnot
          exact absurd hinfected hnot
        · exact fun h => h.removal head rfl download rfl hinfected
      · rw [vouches_kept_iff validation early between late hhead hdownload hempty hput hslot hheaded hdownloaded
          hanswer hinfected]
        constructor
        · intro h
          refine ⟨?_, ?_⟩
          · rintro _ ⟨rfl⟩ _ ⟨rfl⟩ - hsize hmime - hnot
            exact h hsize hmime hnot
          · rintro _ - _ ⟨rfl⟩ hinf
            exact absurd hinf hinfected
        · exact fun h hsize hmime hnot => h.metadata head rfl download rfl hanswer hsize hmime hinfected hnot
    · obtain ⟨hbody, hreject⟩ := Classical.not_imp.mp hanswer
      obtain ⟨e, s, hrun, hcalls⟩ :=
        confirmBeside_rejected validation early between late hhead hempty hput hslot hheaded hdownloaded hbody hreject
      rw [hrun]
      refine iff_of_true (vouches_of_rejected validation hcalls) ⟨?_, ?_⟩
      · rintro _ - _ ⟨rfl⟩ hanswer'
        exact absurd hanswer' hanswer
      · rintro _ - _ ⟨rfl⟩ hinf
        rw [hbody] at hinf
        exact absurd hinf (by decide)

/-- A run of `confirm` beside other writers vouches for one version and deletes only what
it found infected exactly when the PUTs that land between its calls do no harm. -/
theorem confirm_vouches_iff (hhead : provider.HeadContract) (hdownload : provider.DownloadContract)
    (hempty : provider.EmptyRangeContract answersEmpty) (hdelete : provider.DeleteContract)
    (hput : provider.PutContract) (hversions : ∀ slot, provider.slot none key = some slot →
      ((((provider.store w).lookup slot).toList ++ early ++ between ++ late).map StoredObject.version).Nodup) :
    VouchesForOne provider validation key (confirmBeside provider validation key w early between late) ↔
      ∀ slot, provider.slot none key = some slot →
        Undisturbed validation answersEmpty (latest ((provider.store w).lookup slot) early)
          (latest (latest ((provider.store w).lookup slot) early) between) late := by
  cases hslot : provider.slot none key with
  | none =>
    -- there is nothing to vouch for, and nothing that a client could put there
    obtain ⟨e, s, hrun, hcalls⟩ :=
      confirmBeside_absent validation early between late hhead hput (Provider.forall_no_slot hslot)
    rw [hrun]
    exact iff_of_true (vouches_of_rejected validation hcalls) (fun _ h => by cases h)
  | some slot =>
    simp only [Option.some.injEq, forall_eq']
    exact vouches_iff_undisturbed validation early between late hhead hdownload hempty hdelete hput hslot
      (hversions slot hslot)

end Promise

/-- An image of two bytes, an archive of nine, an image with the infected marker, and the first
image put once more. -/
def smallImage : StoredObject := .plain [104, 105] (some (js "image/png")) (js "etag-0") 0

def archive : StoredObject := .plain [1, 2, 3, 4, 5, 6, 7, 8, 9] (some (js "application/zip")) (js "etag-1") 1

def infectedImage : StoredObject :=
  .plain (encodeUtf8 MarkerFileScanner.infectedMarker) (some (js "image/png")) (js "etag-2") 2

def smallImageAgain : StoredObject := .plain smallImage.body smallImage.contentType smallImage.etag 4

/-- Images of up to four bytes. -/
def smallImages : Option ValidationPolicy := some ⟨some 4, some [js "image/*"]⟩

def mediaSlot : Slot := ⟨js "vault", js "media/a"⟩

def mediaVault (object : StoredObject) : Memory := ⟨(∅ : Store).insert mediaSlot object, 3⟩

/-- Where no PUT lands between the calls the promise is kept. -/
theorem undisturbed_confirm_vouches :
    VouchesForOne (Memory.provider (js "vault")) smallImages (js "media/a")
      (confirmBeside (Memory.provider (js "vault")) smallImages (js "media/a") (mediaVault archive) [smallImage] []
        []) := by
  have hlookup : ((Memory.provider (js "vault")).store (mediaVault archive)).lookup mediaSlot = some archive :=
    Finmap.lookup_insert _
  have hslot : ∀ slot, (Memory.provider (js "vault")).slot none (js "media/a") = some slot → mediaSlot = slot :=
    fun slot h => Option.some.inj h
  refine (confirm_vouches_iff smallImages [smallImage] [] [] (Memory.head_contract _) (Memory.download_contract _)
    (Memory.emptyRange_contract (js "vault")) (Memory.delete_contract _) (Memory.put_contract _) ?_).mpr ?_
  · intro slot h
    rw [← hslot slot h, hlookup]
    decide
  · intro slot h
    rw [← hslot slot h, hlookup]
    refine ⟨?_, fun _ _ _ _ _ => rfl⟩
    rintro _ ⟨rfl⟩ _ ⟨rfl⟩ - - - - -
    rfl

/-- An archive put over a small image after `head` is confirmed as the image, an image put over
an infected one after the download is deleted in its place, and the image put again after
`head` is confirmed with the date of the version that was not scanned. -/
theorem put_between_calls_breaks_promise :
    ¬ VouchesForOne (Memory.provider (js "vault")) smallImages (js "media/a")
      (confirmBeside (Memory.provider (js "vault")) smallImages (js "media/a") (mediaVault smallImage) [] [archive]
        []) ∧
    ¬ VouchesForOne (Memory.provider (js "vault")) smallImages (js "media/a")
      (confirmBeside (Memory.provider (js "vault")) smallImages (js "media/a") (mediaVault infectedImage) [] []
        [smallImage]) ∧
    ¬ VouchesForOne (Memory.provider (js "vault")) smallImages (js "media/a")
      (confirmBeside (Memory.provider (js "vault")) smallImages (js "media/a") (mediaVault smallImage) []
        [smallImageAgain] []) := by
  have hlookup : ∀ object, ((Memory.provider (js "vault")).store (mediaVault object)).lookup mediaSlot = some object :=
    fun object => Finmap.lookup_insert _
  have hslot : (Memory.provider (js "vault")).slot none (js "media/a") = some mediaSlot := by decide
  have hsize := (isSizeWithinPolicy_iff ⟨js "vault", smallImages⟩ smallImage.metadata.size).mp (by decide)
  have hmime := (isMimeWithinPolicy_iff ⟨js "vault", smallImages⟩ smallImage.metadata.contentType).mp (by decide)
  refine ⟨?_, ?_, ?_⟩
  · rw [vouches_kept_iff smallImages [] [archive] [] (Memory.head_contract _) (Memory.download_contract _)
      (Memory.emptyRange_contract (js "vault")) (Memory.put_contract _) hslot (hlookup smallImage) rfl (by decide)
      (by decide)]
    intro h
    exact absurd (h hsize hmime (by decide)) (by decide)
  · rw [vouches_removed_iff smallImages [] [] [smallImage] (Memory.head_contract _) (Memory.download_contract _)
      (Memory.delete_contract _) (Memory.put_contract _) hslot (hlookup infectedImage) rfl (by rw [hlookup]; decide)
      (by decide)]
    exact List.cons_ne_nil _ _
  · rw [vouches_kept_iff smallImages [] [smallImageAgain] [] (Memory.head_contract _) (Memory.download_contract _)
      (Memory.emptyRange_contract (js "vault")) (Memory.put_contract _) hslot (hlookup smallImage) rfl (by decide)
      (by decide)]
    intro h
    exact absurd (h hsize hmime (by decide)) (by decide)

end NestStorageExample.Api
