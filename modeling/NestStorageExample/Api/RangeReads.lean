import NestStorageExample.Api.Confirm
import NestStorageExample.Api.VaultDownloads

/-! The two readers that ask for a fixed range from the start of an object: the scan of
confirm, and the hex view of the detail drawer. -/
namespace NestStorageExample.Api
open Text Effects Storage
variable {W : Type} {provider : BufferedProvider W}

/-- Both readers get through an object that is stored at a key. -/
structure ReadByRanges (provider : BufferedProvider W) (validation : Option ValidationPolicy) (key : JsString)
    (object : StoredObject) (w : W) : Prop where
  confirms : (ConfirmService.confirm provider.service ⟨provider.bucket, validation⟩
    (ScannerConfirm.scan provider.service) key).Settles w (fun _ _ => True) (fun _ _ => False)
  inspects : (VaultService.downloadRange provider.storage key 0 1023).Settles w
    (fun result _ => result.base64 = base64 (object.body.take (min object.body.length 1024))) (fun _ _ => False)

section Readers
variable (validation : Option ValidationPolicy) {key : JsString} {slot : Slot} {object : StoredObject} {w : W}

/-- An empty object has no byte at the start of the range, and the scan is turned away. -/
theorem confirm_rejects_empty (hrange : provider.RangeContract) (hhead : provider.HeadContract)
    (hslot : provider.slot none key = some slot) (hobject : (provider.store w).lookup slot = some object)
    (hbody : object.body = []) :
    ∃ e w', ConfirmService.confirm provider.service ⟨provider.bucket, validation⟩
      (ScannerConfirm.scan provider.service) key w = (.error e, w') := by
  obtain ⟨metadata, w₁, hrun₁, -, hstore⟩ := (hhead.present hslot hobject).exists_ok
  rw [← hstore] at hobject
  have hslot' : provider.slot (some provider.bucket) key = some slot := hslot
  obtain ⟨e, w₂, hrun₂, -⟩ := (hrange.emptyRange hslot' hobject hbody).exists_error
    (fun _ _ h => Bool.false_ne_true h.1)
  refine ⟨e, w₂, ?_⟩
  rw [ConfirmService.confirm, Async.bind_of_ok hrun₁]
  apply Async.bind_of_error
  rw [ScannerConfirm.scan, scanRange_eq, Async.bind_of_error hrun₂]

theorem downloadRange_first (storage : BufferedStorage W) (key : JsString) :
    VaultService.downloadRange storage key 0 1023 = (do
      let download ← (storage.downloadBuffer ⟨key, none, some (rangeHeader 0 1023)⟩).mapError VaultRejection.library
      return ⟨base64 download.buffer, download.metadata⟩) := by
  have hguard := @VaultService.downloadRange_natCast W storage key 0 1023 (by decide)
  rw [if_neg (by decide), if_neg (by decide)] at hguard
  exact hguard

theorem inspects_iff (hrange : provider.RangeContract) (hslot : provider.slot none key = some slot)
    (hobject : (provider.store w).lookup slot = some object) :
    (VaultService.downloadRange provider.storage key 0 1023).Settles w
      (fun result _ => result.base64 = base64 (object.body.take (min object.body.length 1024))) (fun _ _ => False) ↔
      object.body ≠ [] := by
  have hserved := hrange.buffer 0 1023 (Nat.zero_le _) hslot hobject
  rw [downloadRange_first]
  constructor
  · rintro hsettles hbody
    rw [hbody, byteRange_nil] at hserved
    obtain ⟨e, w', hrun, -⟩ := hserved.exists_error (fun _ _ h => Option.some_ne_none _ h.1.symm)
    exact hsettles.of_error (Async.bind_of_error (Async.mapError_of_error hrun))
  · intro hbody
    rw [byteRange_zero hbody] at hserved
    refine (Async.settles_mapError.mpr (hserved.mono (fun _ _ h => h) ?_)).bind ?_ (fun _ _ h => h)
    · exact fun _ _ h => Option.some_ne_none _ h.1
    rintro download w' ⟨hbytes, -⟩
    apply Async.settles_pure
    rw [← Option.some.inj hbytes, Nat.min_comm, ← List.take_eq_take_min]

end Readers

/-- Without a provider fault the fixed ranges read exactly the objects that have any bytes. -/
theorem read_by_ranges_iff (hrange : provider.RangeContract) (hhead : provider.HeadContract)
    (hdelete : provider.DeleteContract) (validation : Option ValidationPolicy) {key : JsString} {slot : Slot}
    {object : StoredObject} {w : W} (hslot : provider.slot none key = some slot)
    (hobject : (provider.store w).lookup slot = some object) :
    ReadByRanges provider validation key object w ↔ object.body ≠ [] := by
  constructor
  · exact fun h => (inspects_iff hrange hslot hobject).mp h.inspects
  · intro hbody
    refine ⟨?_, (inspects_iff hrange hslot hobject).mpr hbody⟩
    exact (confirm_exact hhead hrange.download hdelete validation hslot hobject hbody).mono
      (fun _ _ _ => trivial) (fun _ _ h => h)

def landedSlot : Slot := ⟨js "vault", js "media/a"⟩

def emptyObject : StoredObject := .plain [] (some (js "text/plain")) (js "etag-0") 0

def vaultHolding (object : StoredObject) : Memory := ⟨(∅ : Store).insert landedSlot object, 1⟩

/-- An object of one byte is read. -/
theorem one_byte_read :
    ReadByRanges (Memory.bufferedProvider (js "vault")) none (js "media/a") { emptyObject with body := [104] }
      (vaultHolding { emptyObject with body := [104] }) :=
  (read_by_ranges_iff (Memory.buffered_range_contract _) (Memory.buffered_head_contract _)
    (Memory.buffered_delete_contract _) none (show _ = some landedSlot by decide) (Finmap.lookup_insert _)).mpr
    (List.cons_ne_nil _ _)

/-- An object of no bytes lands, and neither reader gets through it. -/
theorem empty_object_unreadable :
    ¬ ReadByRanges (Memory.bufferedProvider (js "vault")) none (js "media/a") emptyObject (vaultHolding emptyObject) ∧
    (∃ e w', ConfirmService.confirm (Memory.bufferedProvider (js "vault")).service ⟨js "vault", none⟩
      (ScannerConfirm.scan (Memory.bufferedProvider (js "vault")).service) (js "media/a") (vaultHolding emptyObject) =
        (.error e, w')) := by
  have hslot : (Memory.bufferedProvider (js "vault")).slot none (js "media/a") = some landedSlot := by decide
  have hobject : ((Memory.bufferedProvider (js "vault")).store (vaultHolding emptyObject)).lookup landedSlot =
      some emptyObject := Finmap.lookup_insert _
  have hrange := Memory.buffered_range_contract (js "vault")
  constructor
  · exact fun h => (inspects_iff hrange hslot hobject).mp h.inspects rfl
  · exact confirm_rejects_empty none hrange (Memory.buffered_head_contract _) hslot hobject rfl

end NestStorageExample.Api
