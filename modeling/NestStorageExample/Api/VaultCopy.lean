import NestStorageExample.Api.Schemas
import NestStorageExample.Storage.InMemory

/-! The copy endpoint of the vault, with the flag that makes it a rename: what a request
does to the stored contents when any of its calls may fail. -/
namespace NestStorageExample.Api
open Text Effects Storage
variable {W : Type}

inductive CopyDestination where
  | same
  | archive
  deriving DecidableEq, Repr

structure CopyServiceOptions where
  sourceKey : JsString
  destinationKey : JsString
  destination : CopyDestination
  deleteSource : Option Bool

/-- What `copyBodySchema` lets through. -/
structure CopyBody extends CopyServiceOptions where
  source_accepted : objectKeySchema.Accepts sourceKey
  destination_accepted : objectKeySchema.Accepts destinationKey

structure CopyResponse where
  etag : JsString
  source : JsString
  destination : JsString
  bucket : JsString

namespace VaultService
variable (storage : StorageService W)

/-- Only a confirmed absence is `false`; any other error goes on. -/
def exists_ (key : JsString) (bucket : Option JsString) : Async Rejection W Bool :=
  tryCatch (do
    let _ ← storage.head key bucket
    return true) fun
    | .storage ⟨.objectNotFound, _⟩ => return false
    | error => throw error

def removeSource (options : CopyServiceOptions) : Async Rejection W Unit :=
  if options.deleteSource = some true then storage.delete options.sourceKey none else return ()

def copy (options : CopyServiceOptions) (archiveBucket defaultBucket : JsString) : Async Rejection W CopyResponse := do
  let isSourcePresent ← exists_ storage options.sourceKey none
  match isSourcePresent with
  | false => throw (.storage ⟨.objectNotFound, [("key", options.sourceKey)]⟩)
  | true => do
    let isArchive := decide (options.destination = .archive)
    let result ← storage.copy
      ⟨options.sourceKey, options.destinationKey, if isArchive then some archiveBucket else none⟩
    removeSource storage options
    return ⟨result.etag, options.sourceKey, options.destinationKey,
      if isArchive then archiveBucket else defaultBucket⟩

end VaultService

structure StorageEnv where
  storageBucket : JsString
  storageArchiveBucket : JsString

def VaultBrowseController.copy (storage : StorageService W) (env : StorageEnv) (body : CopyBody) :
    Async Rejection W CopyResponse :=
  VaultService.copy storage body.toCopyServiceOptions env.storageArchiveBucket env.storageBucket

namespace CopyServiceOptions
variable (options : CopyServiceOptions) (archiveBucket defaultBucket : JsString)

def sourceSlot : Option Slot := (resolveKey options.sourceKey).map (Slot.mk defaultBucket)

def destinationSlot : Option Slot :=
  (resolveKey options.destinationKey).map
    (Slot.mk (if options.destination = .archive then archiveBucket else defaultBucket))

end CopyServiceOptions

/-- The content of the source is still stored at one of the places, and nothing but the
source and the destination has changed. -/
structure KeepsContent (source destination : Option Slot) (places : List (Option Slot)) (earlier later : Store) :
    Prop where
  content : ∀ slot object, source = some slot → earlier.lookup slot = some object →
    ∃ place copied, some place ∈ places ∧ later.lookup place = some copied ∧ copied.body = object.body
  frame : ∀ slot, source ≠ some slot → destination ≠ some slot → later.lookup slot = earlier.lookup slot

/-- However the calls fail, the request loses nothing: the content is at the destination
once it resolves, at the source or the destination when it rejects. -/
def LosesNothing (body : CopyBody) (env : StorageEnv) : Prop :=
  ∀ (W : Type) (provider : Provider W), provider.FaultyContract → provider.bucket = env.storageBucket → ∀ w : W,
    let source := body.sourceSlot env.storageBucket
    let destination := body.destinationSlot env.storageArchiveBucket env.storageBucket
    (VaultBrowseController.copy provider.service env body).Settles w
      (fun _ w' => KeepsContent source destination [destination] (provider.store w) (provider.store w'))
      (fun _ w' => KeepsContent source destination [source, destination] (provider.store w) (provider.store w'))

section Stores
variable {source destination : Option Slot} {places places' : List (Option Slot)} {earlier middle later : Store}

theorem KeepsContent.mono (h : KeepsContent source destination places earlier later)
    (hplaces : ∀ place ∈ places, place ∈ places') : KeepsContent source destination places' earlier later where
  content slot object hslot hobject := by
    obtain ⟨place, copied, hplace, hcopied⟩ := h.content slot object hslot hobject
    exact ⟨place, copied, hplaces _ hplace, hcopied⟩
  frame := h.frame

/-- Before the copy nothing has moved. -/
theorem keepsContent_unchanged (hplaces : source ∈ places) (h : later = earlier) :
    KeepsContent source destination places earlier later := by
  subst h
  exact ⟨fun slot object hslot hobject => ⟨slot, object, hslot ▸ hplaces, hobject, rfl⟩, fun _ _ _ => rfl⟩

/-- The copy has put the content at the destination. -/
theorem keepsContent_inserted {sourceSlot destinationSlot : Slot} {object copied : StoredObject}
    (hobject : earlier.lookup sourceSlot = some object) (hcopied : copied.body = object.body)
    (h : later = earlier.insert destinationSlot copied) :
    KeepsContent (some sourceSlot) (some destinationSlot) [some destinationSlot] earlier later := by
  subst h
  constructor
  · rintro _ stored ⟨rfl⟩ hstored
    rw [hobject, Option.some.injEq] at hstored
    exact ⟨destinationSlot, copied, List.mem_singleton_self _, Finmap.lookup_insert _, hstored ▸ hcopied⟩
  · intro slot _ hslot
    exact Finmap.lookup_insert_of_ne _ (fun he => hslot (congrArg some he.symm))

/-- Deleting the source leaves the destination alone, where the two are two. -/
theorem KeepsContent.erase {sourceSlot : Slot}
    (h : KeepsContent (some sourceSlot) destination [destination] earlier middle)
    (hdistinct : destination ≠ some sourceSlot) (hlater : later = middle.erase sourceSlot) :
    KeepsContent (some sourceSlot) destination [destination] earlier later := by
  subst hlater
  constructor
  · intro slot object hslot hobject
    obtain ⟨place, copied, hplace, hcopied, hbody⟩ := h.content slot object hslot hobject
    have hne : place ≠ sourceSlot :=
      fun he => hdistinct ((List.mem_singleton.mp hplace).symm.trans (congrArg some he))
    exact ⟨place, copied, hplace, (Finmap.lookup_erase_ne hne).trans hcopied, hbody⟩
  · intro slot hsource hslot
    rw [Finmap.lookup_erase_ne (fun he => hsource (congrArg some he.symm)), h.frame slot hsource hslot]

end Stores

section Safe
variable {provider : Provider W} {options : CopyServiceOptions} {archiveBucket : JsString}

/-- The check for the source changes nothing. -/
theorem exists_settles (hfaulty : provider.FaultyContract) (key : JsString) (bucket : Option JsString) (w : W) :
    (VaultService.exists_ provider.service key bucket).Settles w
      (fun _ w' => provider.store w' = provider.store w) (fun _ w' => provider.store w' = provider.store w) := by
  unfold VaultService.exists_
  refine Async.Settles.tryCatch (((hfaulty.head key bucket w).bind (fun _ _ h => Async.settles_pure h))
    (fun _ _ h => h)) ?_
  intro e w' h
  split
  · exact Async.settles_pure h
  · exact Async.settles_throw h

theorem keepsContent_of_copyDone {earlier later : Store}
    (h : provider.CopyDone ⟨options.sourceKey, options.destinationKey,
      if decide (options.destination = .archive) then some archiveBucket else none⟩ earlier later) :
    KeepsContent (options.sourceSlot provider.bucket) (options.destinationSlot archiveBucket provider.bucket)
      [options.destinationSlot archiveBucket provider.bucket] earlier later := by
  obtain ⟨source, destination, object, copied, hsource, hdestination, hobject, hbody, hlater⟩ := h
  have hsource' : options.sourceSlot provider.bucket = some source := hsource
  have hdestination' : options.destinationSlot archiveBucket provider.bucket = some destination := by
    rw [← hdestination, CopyServiceOptions.destinationSlot, Provider.slot]
    by_cases harchive : options.destination = .archive <;> simp [harchive]
  rw [hsource', hdestination']
  exact keepsContent_inserted hobject hbody hlater

/-- With the content at the destination the source may go. -/
theorem removeSource_settles (hfaulty : provider.FaultyContract) {w : W} {earlier : Store} {destination : Option Slot}
    (hdistinct : ∀ slot, options.sourceSlot provider.bucket = some slot → destination ≠ some slot)
    (h : KeepsContent (options.sourceSlot provider.bucket) destination [destination] earlier (provider.store w)) :
    (VaultService.removeSource provider.service options).Settles w
      (fun _ w' =>
        KeepsContent (options.sourceSlot provider.bucket) destination [destination] earlier (provider.store w'))
      (fun _ w' =>
        KeepsContent (options.sourceSlot provider.bucket) destination [destination] earlier (provider.store w')) := by
  have hdone : ∀ later, provider.DeleteDone options.sourceKey none (provider.store w) later →
      KeepsContent (options.sourceSlot provider.bucket) destination [destination] earlier later := by
    rintro later ⟨slot, hslot, hlater⟩
    have hsource : options.sourceSlot provider.bucket = some slot := hslot
    rw [hsource] at h ⊢
    exact h.erase (hdistinct slot hsource) hlater
  unfold VaultService.removeSource
  split
  · refine (hfaulty.delete options.sourceKey none w).mono (fun _ w' => hdone _) ?_
    rintro _ w' (hsame | hdeleted)
    · rwa [hsame]
    · exact hdone _ hdeleted
  · exact Async.settles_pure h

theorem losesNothing_of_distinct {body : CopyBody} {env : StorageEnv} (hdistinct : ∀ slot,
    body.sourceSlot env.storageBucket = some slot →
      body.destinationSlot env.storageArchiveBucket env.storageBucket ≠ some slot) : LosesNothing body env := by
  obtain ⟨defaultBucket, archiveBucket⟩ := env
  rintro W provider hfaulty hbucket w source destination
  obtain rfl : provider.bucket = defaultBucket := hbucket
  have hmore : ∀ place ∈ [destination], place ∈ [source, destination] :=
    fun place hplace => List.mem_cons_of_mem _ hplace
  have hunchanged : ∀ w', provider.store w' = provider.store w →
      KeepsContent source destination [source, destination] (provider.store w) (provider.store w') :=
    fun w' h => keepsContent_unchanged (List.mem_cons_self) h
  rw [VaultBrowseController.copy, VaultService.copy]
  refine (exists_settles hfaulty body.sourceKey none w).bind ?_ (fun _ w' h => hunchanged w' h)
  intro isSourcePresent w₁ hstore₁
  cases isSourcePresent with
  | false => exact Async.settles_throw (hunchanged w₁ hstore₁)
  | true =>
    refine (hfaulty.copy _ w₁).bind ?_ ?_
    · intro result w₂ hdone
      rw [hstore₁] at hdone
      refine (removeSource_settles hfaulty hdistinct (keepsContent_of_copyDone hdone)).bind ?_ ?_
      · exact fun _ _ h => Async.settles_pure h
      · exact fun _ _ h => h.mono hmore
    · rintro _ w₂ (hsame | hdone)
      · exact hunchanged w₂ (hsame.trans hstore₁)
      · rw [hstore₁] at hdone
        exact (keepsContent_of_copyDone hdone).mono hmore

end Safe

private theorem destination_slot_eq (options : CopyServiceOptions) (archiveBucket defaultBucket : JsString) :
    Memory.slot defaultBucket (if decide (options.destination = .archive) then some archiveBucket else none)
      options.destinationKey = options.destinationSlot archiveBucket defaultBucket := by
  rw [CopyServiceOptions.destinationSlot, Memory.slot]
  by_cases harchive : options.destination = .archive <;> simp [harchive]

/-- A copy onto itself, with the source then deleted: the run resolves and nothing is left. -/
theorem rename_onto_itself {body : CopyBody} {env : StorageEnv} {slot : Slot} (m : Memory) {object : StoredObject}
    (hdelete : body.deleteSource = some true) (hsource : body.sourceSlot env.storageBucket = some slot)
    (hdestination : body.destinationSlot env.storageArchiveBucket env.storageBucket = some slot)
    (hobject : m.store.lookup slot = some object) :
    ∃ response m', VaultBrowseController.copy (Memory.provider env.storageBucket).service env body m =
      (.ok response, m') ∧ m'.store.lookup slot = none := by
  obtain ⟨defaultBucket, archiveBucket⟩ := env
  have hslot : Memory.slot defaultBucket none body.sourceKey = some slot := hsource
  rw [← destination_slot_eq] at hdestination
  have hexists : VaultService.exists_ (Memory.provider defaultBucket).service body.sourceKey none m = (.ok true, m) :=
    Async.tryCatch_of_ok (Async.bind_of_ok (Memory.head_run defaultBucket hslot hobject))
  have hcopy : (Memory.provider defaultBucket).service.copy ⟨body.sourceKey, body.destinationKey,
      if decide (body.destination = .archive) then some archiveBucket else none⟩ m =
        (.ok ⟨object.etag⟩, m.write slot (Memory.copied object m)) :=
    Memory.copy_run defaultBucket hslot hobject hdestination
  have hremove : VaultService.removeSource (Memory.provider defaultBucket).service body.toCopyServiceOptions =
      (Memory.provider defaultBucket).service.delete body.sourceKey none := if_pos hdelete
  refine ⟨⟨object.etag, body.sourceKey, body.destinationKey,
      if decide (body.destination = .archive) then archiveBucket else defaultBucket⟩,
    (m.write slot (Memory.copied object m)).erase slot, ?_, Finmap.lookup_erase _ _⟩
  rw [VaultBrowseController.copy, VaultService.copy, Async.bind_of_ok hexists]
  refine (Async.bind_of_ok hcopy).trans ?_
  rw [hremove]
  exact Async.bind_of_ok (Memory.delete_run defaultBucket hslot)

theorem not_losesNothing_of_same {body : CopyBody} {env : StorageEnv} (slot : Slot)
    (hdelete : body.deleteSource = some true) (hsource : body.sourceSlot env.storageBucket = some slot)
    (hdestination : body.destinationSlot env.storageArchiveBucket env.storageBucket = some slot) :
    ¬ LosesNothing body env := by
  intro h
  obtain ⟨object⟩ : Nonempty StoredObject := ⟨.plain [104, 105] none [] 0⟩
  have hobject : ((∅ : Store).insert slot object).lookup slot = some object := Finmap.lookup_insert _
  obtain ⟨response, m', hrun, hgone⟩ :=
    rename_onto_itself ⟨(∅ : Store).insert slot object, 1⟩ hdelete hsource hdestination hobject
  have hkeeps := (h Memory (Memory.provider env.storageBucket) (Memory.faulty_contract _) rfl _).of_ok hrun
  obtain ⟨place, copied, hplace, hcopied, -⟩ := hkeeps.content slot _ hsource hobject
  have hsame : some place = some slot := (List.mem_singleton.mp hplace).trans hdestination
  rw [Option.some.injEq] at hsame
  subst hsame
  exact Option.some_ne_none copied (hcopied.symm.trans hgone)

/-- A rename loses nothing exactly when the library takes source and destination to two
places, or takes one of them nowhere. -/
theorem rename_loses_nothing_iff (body : CopyBody) (hdelete : body.deleteSource = some true) (env : StorageEnv) :
    LosesNothing body env ↔ ∀ slot, body.sourceSlot env.storageBucket = some slot →
      body.destinationSlot env.storageArchiveBucket env.storageBucket ≠ some slot :=
  ⟨fun h slot hsource hdestination => not_losesNothing_of_same slot hdelete hsource hdestination h,
    losesNothing_of_distinct⟩

/-- A rename of `docs/a.pdf`. -/
def renameBody (destinationKey : JsString) (destination : CopyDestination)
    (haccepted : objectKeySchema.Accepts destinationKey) : CopyBody :=
  ⟨⟨js "docs/a.pdf", destinationKey, destination, some true⟩, (by decide : objectKeySchema.Accepts (js "docs/a.pdf")),
    haccepted⟩

/-- A rename to another key of the bucket. -/
theorem rename_to_other_key_loses_nothing :
    LosesNothing (renameBody (js "docs/b.pdf") .same (by decide)) ⟨js "vault", js "vault-archive"⟩ := by
  refine (rename_loses_nothing_iff _ rfl _).mpr ?_
  have hsource : (renameBody (js "docs/b.pdf") .same (by decide)).sourceSlot (js "vault") =
      some ⟨js "vault", js "docs/a.pdf"⟩ := by decide
  have hdestination : (renameBody (js "docs/b.pdf") .same (by decide)).destinationSlot (js "vault-archive")
      (js "vault") = some ⟨js "vault", js "docs/b.pdf"⟩ := by decide
  intro slot hslot hsame
  have hne : (⟨js "vault", js "docs/a.pdf"⟩ : Slot) ≠ ⟨js "vault", js "docs/b.pdf"⟩ := by decide
  exact hne (Option.some.inj ((hsource.symm.trans hslot).trans (hsame.symm.trans hdestination)))

/-- A rename of a key to itself, spelt with one more slash, and one through an archive
bucket that is the default bucket. -/
theorem rename_onto_itself_loses_content :
    ¬ LosesNothing (renameBody (js "docs/a.pdf") .same (by decide)) ⟨js "vault", js "vault-archive"⟩ ∧
    ¬ LosesNothing (renameBody (js "docs//a.pdf") .same (by decide)) ⟨js "vault", js "vault-archive"⟩ ∧
    ¬ LosesNothing (renameBody (js "docs/a.pdf") .archive (by decide)) ⟨js "vault", js "vault"⟩ :=
  ⟨not_losesNothing_of_same ⟨js "vault", js "docs/a.pdf"⟩ rfl (by decide) (by decide),
    not_losesNothing_of_same ⟨js "vault", js "docs/a.pdf"⟩ rfl (by decide) (by decide),
    not_losesNothing_of_same ⟨js "vault", js "docs/a.pdf"⟩ rfl (by decide) (by decide)⟩

end NestStorageExample.Api
