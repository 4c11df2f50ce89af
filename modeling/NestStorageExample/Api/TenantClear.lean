import NestStorageExample.Api.Tenants
import NestStorageExample.Storage.InMemory

/-! What `clear` does to a bucket nobody else writes: an invariant of its rounds, why
they come to an end, and what they have done by then. -/
namespace NestStorageExample.Api
open Text Effects Storage Collections
variable {W : Type} {provider : Provider W} (listing : provider.ListContract) (pathPrefix : JsString)

/-- After some rounds: every key under the prefix up to the bound has been asked for
once, no other key has, and the store lacks exactly the ones not reported failed. -/
structure Sweep (origin : Store) (s : Observed W) (bound : Option JsString) (deleted : Nat)
    (failures : List FailedDeletion) : Prop where
  alone : s.environment = []
  nodup : s.deletes.Nodup
  within : ∀ key ∈ s.deletes, key ∈ objectKeys origin provider.bucket pathPrefix
  taken : ∀ key ∈ objectKeys origin provider.bucket pathPrefix,
    key ∈ s.deletes ↔ ¬ After listing.before bound key
  store : ∀ slot, (provider.store s.world).lookup slot =
    if slot.bucket = provider.bucket ∧ slot.key ∈ s.deletes ∧ slot.key ∉ failures.map FailedDeletion.key then none
    else origin.lookup slot
  failed : ∀ key ∈ failures.map FailedDeletion.key, key ∈ s.deletes
  count : deleted + failures.length = s.deletes.length

variable {listing pathPrefix} {origin : Store} {s : Observed W} {bound : Option JsString} {deleted : Nat}
  {failures : List FailedDeletion}

theorem sweep_start (listing : provider.ListContract) (pathPrefix : JsString) (w : W) :
    Sweep listing pathPrefix (provider.store w) ⟨w, [], []⟩ none 0 [] where
  alone := rfl
  nodup := List.nodup_nil
  within _ h := by cases h
  taken key _ := by simp [Observed.deletes, After]
  store slot := by simp [Observed.deletes]
  failed _ h := by cases h
  count := rfl

/-- Past the bound the store still holds what it held at first. -/
theorem Sweep.mem_objectKeys_iff (h : Sweep listing pathPrefix origin s bound deleted failures) {key : JsString}
    (hafter : After listing.before bound key) :
    key ∈ objectKeys (provider.store s.world) provider.bucket pathPrefix ↔
      key ∈ objectKeys origin provider.bucket pathPrefix := by
  rw [mem_objectKeys, mem_objectKeys, h.store]
  by_cases hd : key ∈ s.deletes
  · exact absurd hafter ((h.taken key (h.within key hd)).mp hd)
  · rw [if_neg (fun hc => hd hc.2.1)]

/-- One page is listed. -/
theorem Sweep.list (h : Sweep listing pathPrefix origin s bound deleted failures) {cursor : Option JsString}
    (hcursor : cursor.bind listing.bound = bound) :
    ∃ page s', provider.observed.list ⟨pathPrefix, none, cursor⟩ s = (.ok page, s') ∧
      Sweep listing pathPrefix origin s' bound deleted failures ∧
      IsPage listing.before {key | key ∈ objectKeys origin provider.bucket pathPrefix} bound
        (page.objects.map ListedObject.key) ∧
      (page.nextContinuationToken.isSome = true ↔ ∃ key ∈ objectKeys origin provider.bucket pathPrefix,
        After listing.before bound key ∧ key ∉ page.objects.map ListedObject.key) ∧
      (∀ token ∈ page.nextContinuationToken,
        listing.bound token = nextBound bound (page.objects.map ListedObject.key)) ∧
      s'.deletes = s.deletes ∧ provider.service.list ⟨pathPrefix, none, cursor⟩ s.world = (.ok page, s'.world) := by
  obtain ⟨page, w', hrun, hstore, hpage, hmore, hbound⟩ :=
    (listing.lists ⟨pathPrefix, none, cursor⟩ s.world).exists_ok
  simp only [hcursor] at hpage hmore hbound
  have hdeletes : Observed.deletes ⟨w', [], s.calls ++ [(.list ⟨pathPrefix, none, cursor⟩, provider.store s.world)]⟩ =
      s.deletes := by
    rw [Observed.deletes_append]
    exact List.append_nil _
  refine ⟨page, ⟨w', [], s.calls ++ [(.list ⟨pathPrefix, none, cursor⟩, provider.store s.world)]⟩, ?_, ?_,
    hpage.congr (fun key => h.mem_objectKeys_iff), ?_, hbound, hdeletes, hrun⟩
  · change provider.observe _ _ s = _
    rw [provider.observe_alone h.alone, hrun]
  · constructor
    · rfl
    · rw [hdeletes]
      exact h.nodup
    · rw [hdeletes]
      exact h.within
    · rw [hdeletes]
      exact h.taken
    · rw [hdeletes]
      intro slot
      rw [hstore]
      exact h.store slot
    · rw [hdeletes]
      exact h.failed
    · rw [hdeletes]
      exact h.count
  · rw [hmore]
    constructor
    · rintro ⟨key, hkey, hafter, hnot⟩
      exact ⟨key, (h.mem_objectKeys_iff hafter).mp hkey, hafter, hnot⟩
    · rintro ⟨key, hkey, hafter, hnot⟩
      exact ⟨key, (h.mem_objectKeys_iff hafter).mpr hkey, hafter, hnot⟩

/-- What the report on a page of keys makes of the invariant. -/
theorem Sweep.advance (h : Sweep listing pathPrefix origin s bound deleted failures) {keys : List JsString}
    (hpage : IsPage listing.before {key | key ∈ objectKeys origin provider.bucket pathPrefix} bound keys)
    {outcome : DeleteManyResult} {w' : W}
    (hperm : (outcome.deleted ++ outcome.failed.map FailedDeletion.key).Perm keys)
    (hstore : ∀ slot, (provider.store w').lookup slot =
      if slot.bucket = provider.bucket ∧ slot.key ∈ outcome.deleted then none
      else (provider.store s.world).lookup slot) :
    Sweep listing pathPrefix origin ⟨w', [], s.calls ++ [(.deleteMany keys, provider.store s.world)]⟩
      (nextBound bound keys) (deleted + outcome.deleted.length) (failures ++ outcome.failed) := by
  have := listing.order
  have hfresh : ∀ key ∈ keys, key ∉ s.deletes := by
    intro key hk hd
    exact (h.taken key (hpage.within key hk).1).mp hd (hpage.within key hk).2
  have hreport : ∀ key, key ∈ outcome.deleted ∨ key ∈ outcome.failed.map FailedDeletion.key ↔ key ∈ keys :=
    fun key => by rw [← List.mem_append, hperm.mem_iff]
  have honce : ∀ key ∈ outcome.deleted, key ∉ outcome.failed.map FailedDeletion.key := by
    have := hperm.nodup_iff.mpr hpage.nodup
    exact fun key hd hf => (List.nodup_append.mp this).2.2 key hd key hf rfl
  have hdeletes : Observed.deletes ⟨w', [], s.calls ++ [(.deleteMany keys, provider.store s.world)]⟩ =
      s.deletes ++ keys := Observed.deletes_append _ _ _ _ _
  constructor
  · rfl
  · rw [hdeletes]
    exact List.nodup_append.mpr ⟨h.nodup, hpage.nodup, fun a ha b hb he => hfresh b hb (he ▸ ha)⟩
  · rw [hdeletes]
    intro key hk
    rcases List.mem_append.mp hk with hk | hk
    · exact h.within key hk
    · exact (hpage.within key hk).1
  · rw [hdeletes]
    intro key hk
    rw [hpage.after_next_iff hk, List.mem_append, h.taken key hk, not_and_or, not_not]
  · rw [hdeletes]
    intro slot
    rw [hstore, h.store, List.map_append]
    by_cases hb : slot.bucket = provider.bucket
    · by_cases hd : slot.key ∈ outcome.deleted
      · have hk := (hreport slot.key).mp (Or.inl hd)
        have hf : slot.key ∉ failures.map FailedDeletion.key := fun hf => hfresh _ hk (h.failed _ hf)
        rw [if_pos ⟨hb, hd⟩, if_pos]
        exact ⟨hb, List.mem_append_right _ hk, by simp only [List.mem_append, not_or]; exact ⟨hf, honce _ hd⟩⟩
      · rw [if_neg (fun hc => hd hc.2)]
        by_cases hf : slot.key ∈ outcome.failed.map FailedDeletion.key
        · have hk := (hreport slot.key).mp (Or.inr hf)
          rw [if_neg (fun hc => hfresh _ hk hc.2.1), if_neg (fun hc => hc.2.2 (List.mem_append_right _ hf))]
        · have hk : slot.key ∉ keys := fun hk => ((hreport slot.key).mpr hk).elim hd hf
          simp only [List.mem_append, hk, hf, or_false]
    · rw [if_neg (fun hc => hb hc.1), if_neg (fun hc => hb hc.1), if_neg (fun hc => hb hc.1)]
  · rw [hdeletes, List.map_append]
    intro key hk
    rcases List.mem_append.mp hk with hk | hk
    · exact List.mem_append_left _ (h.failed key hk)
    · exact List.mem_append_right _ ((hreport key).mp (Or.inr hk))
  · have hlen := hperm.length_eq
    have hcount := h.count
    rw [List.length_append, List.length_map] at hlen
    rw [hdeletes, List.length_append, List.length_append]
    omega

/-- The keys of a page are deleted, or reported failed. -/
theorem Sweep.deletePage (hdelete : provider.DeleteManyContract)
    (h : Sweep listing pathPrefix origin s bound deleted failures) {keys : List JsString}
    (hpage : IsPage listing.before {key | key ∈ objectKeys origin provider.bucket pathPrefix} bound keys) :
    ∃ counts s', TenantsService.clearPage provider.observed keys deleted failures s = (.ok counts, s') ∧
      Sweep listing pathPrefix origin s' (nextBound bound keys) counts.1 counts.2 ∧
      s'.deletes = s.deletes ++ keys ∧ (keys = [] → s' = s) := by
  have := listing.order
  cases keys with
  | nil => exact ⟨(deleted, failures), s, rfl, h, (List.append_nil _).symm, fun _ => rfl⟩
  | cons key keys =>
    obtain ⟨outcome, w', hrun, hperm, hstore⟩ := (@hdelete _ s.world hpage.nodup).exists_ok
    have hobserved : provider.observed.deleteMany (key :: keys) s =
        (.ok outcome, ⟨w', [], s.calls ++ [(.deleteMany (key :: keys), provider.store s.world)]⟩) := by
      change provider.observe _ _ s = _
      rw [provider.observe_alone h.alone, hrun]
    refine ⟨(deleted + outcome.deleted.length, failures ++ outcome.failed),
      ⟨w', [], s.calls ++ [(.deleteMany (key :: keys), provider.store s.world)]⟩, ?_,
      h.advance hpage hperm hstore,
      Observed.deletes_append _ _ _ _ _, fun hc => by cases hc⟩
    have hpage : TenantsService.clearPage provider.observed (key :: keys) deleted failures =
        provider.observed.deleteMany (key :: keys) >>= fun outcome =>
          pure (deleted + outcome.deleted.length, failures ++ outcome.failed) := if_pos (Nat.succ_pos _)
    rw [hpage, Async.bind_of_ok hobserved, Async.pure_apply]

theorem Sweep.length_le (h : Sweep listing pathPrefix origin s bound deleted failures) :
    s.deletes.length ≤ (objectKeys origin provider.bucket pathPrefix).card := by
  rw [← List.toFinset_card_of_nodup h.nodup]
  exact Finset.card_le_card (fun key hk => h.within key (List.mem_toFinset.mp hk))

/-- Enough rounds end the loop, with every key under the prefix asked for: a page with
keys uses up some of the finitely many there are, and pages without come finitely often. -/
theorem clearLoop_completes (hdelete : provider.DeleteManyContract) (n : Nat) :
    ∀ (s : Observed W) (cursor bound : Option JsString) (deleted : Nat) (failures : List FailedDeletion),
      Sweep listing pathPrefix origin s bound deleted failures → cursor.bind listing.bound = bound →
      (objectKeys origin provider.bucket pathPrefix).card - s.deletes.length = n →
      ∃ rounds counts s' bound',
        (∀ fuel, rounds ≤ fuel →
          TenantsService.clearLoop provider.observed pathPrefix fuel cursor deleted failures s =
            (.ok (some counts), s')) ∧
        Sweep listing pathPrefix origin s' bound' counts.1 counts.2 ∧
        ∀ key ∈ objectKeys origin provider.bucket pathPrefix, ¬ After listing.before bound' key := by
  have := listing.order
  induction n using Nat.strongRecOn with
  | _ n ih =>
    intro s cursor
    generalize hcurrent : (s.world, cursor) = current
    induction current using (listing.emptyPages pathPrefix none).induction generalizing s cursor with
    | _ current ihEmpty =>
      intro bound deleted failures h hcursor hn
      subst hcurrent
      obtain ⟨page, s1, hlist, h1, hpage, hmore, htoken, hdeletes1, hrun⟩ := h.list hcursor
      obtain ⟨counts, s2, hclear, h2, hdeletes2, hsame⟩ := h1.deletePage hdelete hpage
      cases hnext : page.nextContinuationToken with
      | none =>
        -- the last page: what lies after its bound would have been a reason for a token
        refine ⟨1, counts, s2, _, ?_, h2, ?_⟩
        · intro fuel hfuel
          obtain ⟨fuel, rfl⟩ := Nat.exists_eq_add_of_le' hfuel
          rw [TenantsService.clearLoop, Async.bind_of_ok hlist, Async.bind_of_ok hclear, hnext]
          rfl
        · intro key hkey hafter
          have hlast := hmore.mpr ⟨key, hkey, (hpage.after_next_iff hkey).mp hafter⟩
          rw [hnext] at hlast
          cases hlast
      | some token =>
        have hrest : ∃ rounds counts' s' bound',
            (∀ fuel, rounds ≤ fuel → TenantsService.clearLoop provider.observed pathPrefix fuel (some token)
              counts.1 counts.2 s2 = (.ok (some counts'), s')) ∧
            Sweep listing pathPrefix origin s' bound' counts'.1 counts'.2 ∧
            ∀ key ∈ objectKeys origin provider.bucket pathPrefix, ¬ After listing.before bound' key := by
          by_cases hempty : page.objects.map ListedObject.key = []
          · -- no keys, so the empty-page order goes down
            rw [hsame hempty] at h2 ⊢
            refine ihEmpty (s1.world, some token) ⟨page, hrun, List.map_eq_nil_iff.mp hempty, hnext, rfl⟩ s1
              (some token) rfl _ _ _ h2 (htoken token hnext) ?_
            rw [hdeletes1]
            exact hn
          · -- some keys, so fewer are left to ask for
            have hpos := List.length_pos_of_ne_nil hempty
            have hle := h2.length_le
            rw [hdeletes2, hdeletes1, List.length_append] at hle
            refine ih _ ?_ s2 (some token) _ _ _ h2 (htoken token hnext) rfl
            rw [hdeletes2, hdeletes1, List.length_append]
            omega
        obtain ⟨rounds, counts', s', bound', hloop, hsweep, hall⟩ := hrest
        refine ⟨rounds + 1, counts', s', bound', ?_, hsweep, hall⟩
        intro fuel hfuel
        obtain ⟨fuel, rfl⟩ := Nat.exists_eq_add_of_le' (Nat.le_of_add_left_le hfuel)
        rw [TenantsService.clearLoop, Async.bind_of_ok hlist, Async.bind_of_ok hclear, hnext]
        exact hloop fuel (by omega)

/-- What a whole `clear` did to a bucket that was `origin` before it. -/
structure ClearedExactly (provider : Provider W) (pathPrefix : JsString) (origin : Store) (s : Observed W)
    (view : TenantClearView) : Prop where
  once : s.deletes.Nodup
  asked : ∀ key, key ∈ s.deletes ↔ key ∈ objectKeys origin provider.bucket pathPrefix
  frame : ∀ slot, ¬ (slot.bucket = provider.bucket ∧ pathPrefix <+: slot.key) →
    (provider.store s.world).lookup slot = origin.lookup slot
  left : ∀ key, key ∈ objectKeys (provider.store s.world) provider.bucket pathPrefix ↔
    key ∈ view.failures.map FailedDeletion.key
  count : view.deleted + view.failed = (objectKeys origin provider.bucket pathPrefix).card

/-- A sweep with nothing after its bound has cleared the prefix. -/
theorem Sweep.cleared (h : Sweep listing pathPrefix origin s bound deleted failures)
    (hall : ∀ key ∈ objectKeys origin provider.bucket pathPrefix, ¬ After listing.before bound key)
    (tenant : JsString) (note : String) : ClearedExactly provider pathPrefix origin s
      ⟨tenant, pathPrefix, deleted, failures.length, failures, note⟩ := by
  have hasked : ∀ key, key ∈ s.deletes ↔ key ∈ objectKeys origin provider.bucket pathPrefix :=
    fun key => ⟨h.within key, fun hkey => (h.taken key hkey).mpr (hall key hkey)⟩
  constructor
  · exact h.nodup
  · exact hasked
  · intro slot hslot
    rw [h.store, if_neg]
    rintro ⟨hbucket, hkey, -⟩
    exact hslot ⟨hbucket, ((mem_objectKeys _ _ _ _).mp (h.within _ hkey)).1⟩
  · intro key
    rw [mem_objectKeys, h.store]
    constructor
    · rintro ⟨hstarts, hsome⟩
      by_contra hfailed
      split at hsome
      · cases hsome
      · rename_i hkept
        exact hkept ⟨rfl, (hasked key).mpr ((mem_objectKeys _ _ _ _).mpr ⟨hstarts, hsome⟩), hfailed⟩
    · intro hfailed
      rw [if_neg (fun hc => hc.2.2 hfailed)]
      exact (mem_objectKeys _ _ _ _).mp (h.within key (h.failed key hfailed))
  · have hcard : (objectKeys origin provider.bucket pathPrefix).card = s.deletes.length := by
      rw [← List.toFinset_card_of_nodup h.nodup]
      exact congrArg Finset.card (Finset.ext (fun key => by rw [List.mem_toFinset, hasked]))
    rw [hcard]
    exact h.count

/-- Enough rounds and `clear` answers, whatever the pages and whichever deletions fail. -/
theorem clear_exact (listing : provider.ListContract) (hdelete : provider.DeleteManyContract) (t : TenantSlug)
    (w : W) : ∃ rounds view s',
      (∀ fuel, rounds ≤ fuel → TenantsService.clear provider.observed fuel t ⟨w, [], []⟩ = (.ok (some view), s')) ∧
      ClearedExactly provider (tenantPrefix t none) (provider.store w) s' view := by
  obtain ⟨rounds, counts, s', bound, hloop, hsweep, hall⟩ :=
    clearLoop_completes hdelete _ _ none none 0 [] (sweep_start listing (tenantPrefix t none) w) rfl rfl
  refine ⟨rounds, _, s', ?_, hsweep.cleared hall t.text appLevelNote⟩
  intro fuel hfuel
  rw [TenantsService.clear, Async.bind_of_ok (hloop fuel hfuel)]
  rfl

/-- A listing shows keys under the tenant's prefix and no others. -/
theorem list_shows_own_keys (listing : provider.ListContract) (keyPrefix : JsString) (t : TenantSlug)
    (query : TenantListQuery) (w : W) : (TenantsService.list provider.service keyPrefix t query).Settles w
      (fun view w' => provider.store w' = provider.store w ∧ ∀ key ∈ view.objects.map TenantObjectView.key,
        key ∈ objectKeys (provider.store w) provider.bucket (tenantPrefix t query.category)) (fun _ _ => False) := by
  refine (listing.lists _ w).bind ?_ (fun _ _ h => h)
  rintro page w' ⟨hstore, hpage, -⟩
  refine Async.settles_pure ⟨hstore, ?_⟩
  intro key hkey
  rw [List.map_map] at hkey
  exact (hpage.within key hkey).1

/-- No listing and no clear of a tenant reaches a key under which another tenant's upload
stores, and a clear that nobody writes beside deletes exactly the tenant's keys, each once. -/
theorem tenant_isolation_and_clear (listing : provider.ListContract) (hdelete : provider.DeleteManyContract)
    (keyPrefix : JsString) (t : TenantSlug) :
    (∀ u : TenantSlug, t.text ≠ u.text → ∀ body uuid before, ∃ options,
      callsOf provider (fun storage => TenantsService.upload storage keyPrefix u body uuid) before =
        [.upload options] ∧
      (∀ narrowed, ¬ tenantPrefix t narrowed <+: options.key) ∧
      ∀ query w, (TenantsService.list provider.service keyPrefix t query).Settles w
        (fun view _ => options.key ∉ view.objects.map TenantObjectView.key) (fun _ _ => False)) ∧
    ∀ w, ∃ rounds view s',
      (∀ fuel, rounds ≤ fuel → TenantsService.clear provider.observed fuel t ⟨w, [], []⟩ = (.ok (some view), s')) ∧
      ClearedExactly provider (tenantPrefix t none) (provider.store w) s' view := by
  refine ⟨?_, clear_exact listing hdelete t⟩
  intro u hne body uuid before
  obtain ⟨options, hcall, hkey⟩ := tenantUpload_call provider keyPrefix u body uuid before
  have hisolated : ∀ narrowed, ¬ tenantPrefix t narrowed <+: options.key := by
    intro narrowed
    rw [hkey]
    exact tenantPrefix_isolates hne narrowed body.category body.extension uuid
  refine ⟨options, hcall, hisolated, fun query w => ?_⟩
  refine (list_shows_own_keys listing keyPrefix t query w).mono ?_ (fun _ _ h => h)
  rintro view w' ⟨-, hkeys⟩ hmem
  exact hisolated query.category ((mem_objectKeys _ _ _ _).mp (hkeys _ hmem)).1

def acme : TenantSlug := ⟨js "acme", by decide⟩

def acmeCorp : TenantSlug := ⟨js "acme-corp", by decide⟩

/-- Two objects of `acme` and one of `acme-corp`. -/
def sharedStore : Store :=
  (((∅ : Store).insert ⟨js "vault", js "acme/notes/a.txt"⟩ (.plain [104, 105] none [] 0)).insert
    ⟨js "vault", js "acme-corp/notes/c.txt"⟩ (.plain [104] none [] 1)).insert
    ⟨js "vault", js "acme/notes/b.txt"⟩ (.plain [105] none [] 2)

/-- Two keys of three are under the prefix. -/
theorem objectKeys_sharedStore :
    objectKeys sharedStore (js "vault") (js "acme/") = {js "acme/notes/a.txt", js "acme/notes/b.txt"} := by
  have hempty : objectKeys ∅ (js "vault") (js "acme/") = ∅ := by decide
  ext key
  rw [sharedStore, mem_objectKeys_insert, mem_objectKeys_insert, mem_objectKeys_insert, hempty]
  simp only [Slot.mk.injEq, true_and, Finset.notMem_empty, or_false, Finset.mem_insert, Finset.mem_singleton]
  constructor
  · rintro (⟨rfl, -⟩ | ⟨rfl, hstarts⟩ | ⟨rfl, -⟩)
    · exact Or.inr rfl
    · exact absurd hstarts (by decide)
    · exact Or.inl rfl
  · rintro (rfl | rfl)
    · exact Or.inr (Or.inr ⟨rfl, by decide⟩)
    · exact Or.inl ⟨rfl, by decide⟩

/-- `acme` and `acme-corp` beside each other in a library that lists one key a page: what the
one uploads is not under the prefix of the other, and a clear of the first asks for its two
objects and keeps the third. -/
theorem acme_beside_acme_corp :
    (∀ body uuid before, ∃ options, callsOf (Memory.paged (js "vault") 1)
        (fun storage => TenantsService.upload storage (js "storage-example") acmeCorp body uuid) before =
          [.upload options] ∧ ¬ tenantPrefix acme none <+: options.key) ∧
    ∃ rounds view s', (∀ fuel, rounds ≤ fuel →
      TenantsService.clear (Memory.paged (js "vault") 1).observed fuel acme ⟨⟨sharedStore, 3⟩, [], []⟩ =
        (.ok (some view), s')) ∧
      s'.deletes.Nodup ∧ s'.deletes.toFinset = {js "acme/notes/a.txt", js "acme/notes/b.txt"} ∧
      view.deleted + view.failed = 2 ∧
      (s'.world.store.lookup ⟨js "vault", js "acme-corp/notes/c.txt"⟩).isSome = true := by
  obtain ⟨hisolated, hclear⟩ := tenant_isolation_and_clear (Memory.paged_list_contract (js "vault") 1)
    (Memory.deleteMany_contract (js "vault")) (js "storage-example") acme
  constructor
  · intro body uuid before
    obtain ⟨options, hcall, hkey, -⟩ := hisolated acmeCorp (by decide) body uuid before
    exact ⟨options, hcall, hkey none⟩
  · obtain ⟨rounds, view, s', hrun, hexact⟩ := hclear ⟨sharedStore, 3⟩
    have hasked (key : JsString) := hexact.asked key
    have hcount : view.deleted + view.failed = (objectKeys sharedStore (js "vault") (js "acme/")).card := hexact.count
    have hframe := hexact.frame ⟨js "vault", js "acme-corp/notes/c.txt"⟩ (fun h => absurd h.2 (by decide))
    refine ⟨rounds, view, s', hrun, hexact.once, ?_, ?_, ?_⟩
    · ext key
      rw [List.mem_toFinset, ← objectKeys_sharedStore]
      exact hasked key
    · rw [hcount, objectKeys_sharedStore]
      decide
    · exact (congrArg Option.isSome hframe).trans (by decide)

end NestStorageExample.Api
