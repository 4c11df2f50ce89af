import NestStorageExample.Api.ConfirmVersions
import NestStorageExample.Api.VaultDownloads

/-! `preview` beside clients that go on putting to the key: the size it checks is that of
the version `head` met, the bytes it buffers are those of the version there by then. -/
namespace NestStorageExample.Api
open Text Effects Storage
variable {W : Type} (provider : BufferedProvider W)

/-- One `preview` with PUTs before each of its calls. -/
def previewBeside (key : JsString) (w : W) (early between : List StoredObject) :
    Except VaultRejection BufferedDownloadResult × Observed W :=
  VaultService.preview provider.observedStorage key
    ⟨w, [puts provider.toProvider key early, puts provider.toProvider key between], []⟩

/-- What a run of `preview` has to promise: a bounded answer, and a refusal where a version
that one of its calls met is over the limit. -/
structure BoundedPreview (key : JsString) (run : Except VaultRejection BufferedDownloadResult × Observed W) : Prop where
  bounded : ∀ result, run.1 = .ok result → (base64Decode result.base64).length ≤ 10485760
  refused : ∀ slot call store version, provider.slot none key = some slot → (call, store) ∈ run.2.calls →
    store.lookup slot = some version → 10485760 < version.body.length →
    ∃ error, run.1 = .error (.payloadTooLarge error) ∧ error.code = "PREVIEW_SIZE_EXCEEDED"

/-- No PUT between the calls takes an object that was within the limit over it. -/
def StaysWithin (headed : Option StoredObject) (between : List StoredObject) : Prop :=
  ∀ head ∈ headed, ∀ download ∈ latest (some head) between,
    head.body.length ≤ 10485760 → download.body.length ≤ 10485760

variable {provider}

section Runs
variable {key : JsString} {slot : Slot} {w : W} (early between : List StoredObject) {head download : StoredObject}

/-- Where there is nothing behind the key, there is nothing to refuse. -/
theorem boundedPreview_absent (hhead : provider.HeadContract) (hput : provider.PutContract)
    (habsent : ∀ slot, provider.slot none key = some slot → latest ((provider.store w).lookup slot) early = none) :
    BoundedPreview provider key (previewBeside provider key w early between) := by
  have hlookup : ∀ slot, provider.slot none key = some slot →
      (provider.store (puts provider.toProvider key early w)).lookup slot = none := by
    intro slot hslot
    rw [lookup_puts hput hslot]
    exact habsent slot hslot
  obtain ⟨e, w₁, hrun, -⟩ := (hhead.absent hlookup).exists_error (fun _ _ h => h)
  have hrejected : previewBeside provider key w early between = (.error (.library e), _) :=
    Async.bind_of_error (Async.mapError_of_error (provider.observe_turn hrun))
  rw [hrejected]
  refine ⟨fun _ h => (nomatch h), ?_⟩
  intro slot call store version hslot hmem hversion
  cases List.mem_singleton.mp hmem
  rw [hlookup slot hslot] at hversion
  cases hversion

/-- An object over the limit is refused on what `head` says. -/
theorem previewBeside_refused (hhead : provider.HeadContract) (hput : provider.PutContract)
    (hslot : provider.slot none key = some slot)
    (hheaded : latest ((provider.store w).lookup slot) early = some head) (hlarge : 10485760 < head.body.length) :
    ∃ s, previewBeside provider key w early between =
      (.error (.payloadTooLarge (VaultService.previewSizeExceeded head.body.length)), s) := by
  obtain ⟨w₁, hrun, -⟩ := head_runs early between hhead hput hslot hheaded
  have hover : head.metadata.size > VaultService.maxPreviewBytes := hlarge
  exact ⟨_, (Async.bind_of_ok (Async.mapError_of_ok (provider.observe_turn hrun))).trans
    (by rw [Async.ite_apply, if_pos hover]; rfl)⟩

/-- Within it, whatever is there by then is buffered. -/
theorem previewBeside_served (hhead : provider.HeadContract) (hbuffer : provider.BufferContract)
    (hput : provider.PutContract) (hslot : provider.slot none key = some slot)
    (hheaded : latest ((provider.store w).lookup slot) early = some head)
    (hdownloaded : latest (some head) between = some download) (hsmall : head.body.length ≤ 10485760) :
    ∃ result s earlier later, previewBeside provider key w early between = (.ok result, s) ∧
      result.base64 = base64 download.body ∧
      s.calls = [(.head key none, earlier), (.download ⟨key, none, none⟩, later)] ∧
      earlier.lookup slot = some head ∧ later.lookup slot = some download := by
  obtain ⟨w₁, hrun₁, hlookup⟩ := head_runs early between hhead hput hslot hheaded
  rw [hdownloaded] at hlookup
  obtain ⟨result, w₂, hrun₂, hbytes, -⟩ := (hbuffer hslot hlookup).exists_ok
  have hwithin : ¬ head.metadata.size > VaultService.maxPreviewBytes := Nat.not_lt_of_le hsmall
  have hserved : previewBeside provider key w early between = (.ok ⟨base64 result.buffer, result.metadata⟩, _) :=
    (Async.bind_of_ok (Async.mapError_of_ok (provider.observe_turn hrun₁))).trans (by
      rw [Async.ite_apply, if_neg hwithin]
      exact Async.bind_of_ok (Async.mapError_of_ok (provider.observe_turn hrun₂)))
  refine ⟨_, _, _, _, hserved, by rw [hbytes], rfl, ?_, hlookup⟩
  rw [lookup_puts hput hslot, hheaded]

end Runs

/-- At a key that resolves the promise is kept exactly when the PUTs keep the object within
the limit once `head` has found it there. -/
theorem bounded_iff_staysWithin (hhead : provider.HeadContract) (hbuffer : provider.BufferContract)
    (hput : provider.PutContract) {key : JsString} {slot : Slot} {w : W} (early between : List StoredObject)
    (hslot : provider.slot none key = some slot) :
    BoundedPreview provider key (previewBeside provider key w early between) ↔
      StaysWithin (latest ((provider.store w).lookup slot) early) between := by
  cases hheaded : latest ((provider.store w).lookup slot) early with
  | none =>
    refine iff_of_true (boundedPreview_absent early between hhead hput ?_) (fun _ h => nomatch h)
    exact Provider.forall_slot hslot hheaded
  | some head =>
    obtain ⟨download, hdownloaded⟩ := latest_some head between
    by_cases hlarge : 10485760 < head.body.length
    · obtain ⟨s, hrun⟩ := previewBeside_refused early between hhead hput hslot hheaded hlarge
      rw [hrun]
      refine iff_of_true ⟨fun _ h => (nomatch h), fun _ _ _ _ _ _ _ _ => ⟨_, rfl, rfl⟩⟩ ?_
      rintro _ ⟨rfl⟩ _ - hsmall
      exact absurd hsmall (Nat.not_le_of_lt hlarge)
    · have hsmall := Nat.le_of_not_lt hlarge
      obtain ⟨result, s, earlier, later, hrun, hbytes, hcalls, hearlier, hlater⟩ :=
        previewBeside_served early between hhead hbuffer hput hslot hheaded hdownloaded hsmall
      rw [hrun]
      constructor
      · rintro h _ ⟨rfl⟩ _ hmem -
        rw [hdownloaded, Option.mem_some_iff] at hmem
        have hbounded := h.bounded result rfl
        rwa [hbytes, base64Decode_base64, hmem] at hbounded
      · intro h
        have hwithin := h head rfl download hdownloaded hsmall
        constructor
        · rintro _ ⟨rfl⟩
          rwa [hbytes, base64Decode_base64]
        · intro target call store version htarget hmem hversion hover
          rw [hslot, Option.some.injEq] at htarget
          subst htarget
          rw [hcalls] at hmem
          rcases List.mem_cons.mp hmem with heq | hmem
          · cases heq
            rw [hearlier, Option.some.injEq] at hversion
            rw [← hversion] at hover
            omega
          · cases List.mem_singleton.mp hmem
            rw [hlater, Option.some.injEq] at hversion
            rw [← hversion] at hover
            omega

/-- A preview beside other writers is bounded, and refuses every version over the limit that
it meets, exactly when no PUT between its calls takes the object over the limit. -/
theorem preview_bounded_iff (hhead : provider.HeadContract) (hbuffer : provider.BufferContract)
    (hput : provider.PutContract) (key : JsString) (w : W) (early between : List StoredObject) :
    BoundedPreview provider key (previewBeside provider key w early between) ↔
      ∀ slot, provider.slot none key = some slot →
        StaysWithin (latest ((provider.store w).lookup slot) early) between := by
  cases hslot : provider.slot none key with
  | none =>
    refine iff_of_true (boundedPreview_absent early between hhead hput ?_) (fun _ h => nomatch h)
    exact Provider.forall_no_slot hslot
  | some slot =>
    simp only [Option.some.injEq, forall_eq']
    exact bounded_iff_staysWithin hhead hbuffer hput early between hslot

/-- One byte more than a preview may have. -/
def oversized : StoredObject := .plain (List.replicate 10485761 0) (some (js "image/png")) (js "etag-1") 1

theorem oversized_length : oversized.body.length = 10485761 := List.length_replicate

/-- An oversized object that is put before `head` is refused. -/
theorem oversized_before_head_refused :
    BoundedPreview (Memory.bufferedProvider (js "vault")) (js "media/a")
      (previewBeside (Memory.bufferedProvider (js "vault")) (js "media/a") (mediaVault smallImage) [oversized] []) := by
  refine (preview_bounded_iff (Memory.buffered_head_contract _) (Memory.buffered_buffer_contract _)
    (Memory.buffered_put_contract _) _ _ _ _).mpr ?_
  rintro slot - _ ⟨rfl⟩ _ ⟨rfl⟩ hsmall
  exact hsmall

/-- A small image is replaced by an oversized one after `head`, and the preview buffers that. -/
theorem oversized_after_head_buffered :
    ¬ BoundedPreview (Memory.bufferedProvider (js "vault")) (js "media/a")
      (previewBeside (Memory.bufferedProvider (js "vault")) (js "media/a") (mediaVault smallImage) []
        [oversized]) := by
  have hslot : (Memory.bufferedProvider (js "vault")).slot none (js "media/a") = some mediaSlot := by decide
  have hlookup : ((Memory.bufferedProvider (js "vault")).store (mediaVault smallImage)).lookup mediaSlot =
      some smallImage := Finmap.lookup_insert _
  rw [bounded_iff_staysWithin (Memory.buffered_head_contract _) (Memory.buffered_buffer_contract _)
    (Memory.buffered_put_contract _) [] [oversized] hslot, hlookup]
  intro hwithin
  have hsmall : smallImage.body.length ≤ 10485760 := by decide
  have hlarge := hwithin smallImage rfl oversized rfl hsmall
  rw [oversized_length] at hlarge
  omega

end NestStorageExample.Api
