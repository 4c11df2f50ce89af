import NestStorageExample.Runs.Guarded
import NestStorageExample.Text.Segments

/-! The vault browser: the folder and page it shows, the keys checked in it, and what
each of its controls does to the two. -/
namespace NestStorageExample.Web
open Text Runs

/-- `key` is an object of the folder itself, not of one below it. -/
def DirectObject (folder key : JsString) : Prop := folder <+: key ∧ slash ∉ key.drop folder.length

instance (folder key : JsString) : Decidable (DirectObject folder key) := inferInstanceAs (Decidable (_ ∧ _))

/-- `below` lies under `folder` with a delimiter in between, as a common prefix does. -/
def Subfolder (folder below : JsString) : Prop := folder <+: below ∧ slash ∈ below.drop folder.length

instance (folder below : JsString) : Decidable (Subfolder folder below) := inferInstanceAs (Decidable (_ ∧ _))

structure Page where
  objects : List JsString
  commonPrefixes : List JsString
  nextCursor : Option JsString
  deriving DecidableEq, Repr

/-- A page listed under `folder` with the delimiter. -/
def Page.Lists (page : Page) (folder : JsString) : Prop :=
  (∀ key ∈ page.objects, DirectObject folder key) ∧ ∀ below ∈ page.commonPrefixes, Subfolder folder below

instance (page : Page) (folder : JsString) : Decidable (page.Lists folder) := inferInstanceAs (Decidable (_ ∧ _))

/-- A bulk delete as it was sent, with what was shown and already gone then. -/
structure BulkRequest where
  keys : List JsString
  folder : JsString
  deleted : List JsString
  deriving DecidableEq, Repr

structure VaultBrowser where
  folder : JsString
  cursor : JsString
  selectedKey : Option JsString
  checked : List JsString
  page : Option Page
  /-- single and bulk deletes whose answer is awaited -/
  deleting : List JsString
  bulkDeleting : Bool
  /-- keys single deletes have succeeded on and no page listed since has shown, and every bulk
  delete sent -/
  deleted : List JsString
  requests : List BulkRequest
  deriving DecidableEq, Repr

namespace VaultBrowser

/-- The browser as a URL with these query parameters opens it. -/
def initial (folder cursor : JsString) : VaultBrowser := ⟨folder, cursor, none, [], none, [], false, [], []⟩

def toggleCheck (s : VaultBrowser) (key : JsString) : VaultBrowser :=
  { s with checked := if key ∈ s.checked then s.checked.filter (· ≠ key) else s.checked ++ [key] }

inductive Event where
  /-- `page` as it was listed: out of the cache, or overtaken by deletes, it may show keys that
  were deleted since, `missed` -/
  | loaded (page : Page) (missed : List JsString)
  | toggle (key : JsString)
  | openRow (key : JsString)
  | closeDrawer
  | openFolder (below : JsString)
  | breadcrumb (folder : JsString)
  | nextPage
  | firstPage
  | deleteClick (key : JsString)
  | deleteResolved (i : Nat)
  | deleteRejected (i : Nat)
  | clear
  | bulkDeleteClick
  | bulkDeleteResolved
  | bulkDeleteRejected
  deriving DecidableEq, Repr

/-- The rows on the screen; none while a page is loading. -/
def objects (s : VaultBrowser) : List JsString := (s.page.map Page.objects).getD []

def commonPrefixes (s : VaultBrowser) : List JsString := (s.page.map Page.commonPrefixes).getD []

/-- A control acts where it is shown: rows and folders of the loaded page, the bulk bar
while something is checked and no bulk delete is pending. -/
def next (s : VaultBrowser) : Event → Option VaultBrowser
  | .loaded page missed =>
    -- a key that was listed after its deletion is there: it had been put back
    if page.Lists s.folder then
      some { s with
        page := some page
        deleted := s.deleted.filter fun key => key ∈ missed ∨ key ∉ page.objects }
    else none
  | .toggle key => if key ∈ s.objects then some (s.toggleCheck key) else none
  | .openRow key => if key ∈ s.objects then some { s with selectedKey := some key } else none
  | .closeDrawer => some { s with selectedKey := none }
  | .openFolder below =>
    if below ∈ s.commonPrefixes then some { s with folder := below, cursor := [], page := none } else none
  | .breadcrumb folder => some { s with folder := folder, cursor := [], page := none, checked := [] }
  | .nextPage =>
    (s.page.bind Page.nextCursor).map fun cursor => { s with cursor := cursor, page := none }
  | .firstPage => if s.cursor.isEmpty then none else some { s with cursor := [], page := none }
  | .deleteClick key => if key ∈ s.objects then some { s with deleting := s.deleting ++ [key] } else none
  | .deleteResolved i =>
    s.deleting[i]?.map fun key =>
      { s with deleting := s.deleting.eraseIdx i, deleted := key :: s.deleted, selectedKey := none }
  | .deleteRejected i => s.deleting[i]?.map fun _ => { s with deleting := s.deleting.eraseIdx i }
  | .clear => if s.checked.isEmpty then none else some { s with checked := [] }
  | .bulkDeleteClick =>
    if s.checked.isEmpty || s.bulkDeleting then none
    else some { s with
      bulkDeleting := true
      requests := s.requests ++ [⟨s.checked, s.folder, s.deleted⟩] }
  | .bulkDeleteResolved => if s.bulkDeleting then some { s with bulkDeleting := false, checked := [] } else none
  | .bulkDeleteRejected => if s.bulkDeleting then some { s with bulkDeleting := false } else none

/-- Every checked key is an object of the folder shown and is none that was deleted singly and
not listed since; and so was every key a bulk delete has sent, at the time. -/
structure Consistent (s : VaultBrowser) : Prop where
  checked : ∀ key ∈ s.checked, DirectObject s.folder key ∧ key ∉ s.deleted
  requests : ∀ request ∈ s.requests, ∀ key ∈ request.keys,
    DirectObject request.folder key ∧ key ∉ request.deleted

/-- A folder is opened with nothing checked, a single delete succeeds on an unchecked
key, and no key deleted singly is checked until a page listed since shows it. -/
def Guard (s : VaultBrowser) : Event → Prop
  | .openFolder _ => s.checked = []
  | .deleteResolved i => ∀ key ∈ s.deleting[i]?, key ∉ s.checked
  | .toggle key => key ∈ s.checked ∨ key ∉ s.deleted
  | _ => True

/-- The page on the screen is one of the folder shown. -/
def ShowsFolder (s : VaultBrowser) : Prop := ∀ page ∈ s.page, page.Lists s.folder

theorem ShowsFolder.object {s : VaultBrowser} (h : s.ShowsFolder) {key : JsString} (hk : key ∈ s.objects) :
    DirectObject s.folder key := by
  unfold objects at hk
  cases hp : s.page with
  | none =>
    rw [hp] at hk
    cases hk
  | some page =>
    rw [hp] at hk
    exact (h page hp).1 key hk

theorem ShowsFolder.commonPrefix {s : VaultBrowser} (h : s.ShowsFolder) {below : JsString}
    (hb : below ∈ s.commonPrefixes) : Subfolder s.folder below := by
  unfold commonPrefixes at hb
  cases hp : s.page with
  | none =>
    rw [hp] at hb
    cases hb
  | some page =>
    rw [hp] at hb
    exact (h page hp).2 below hb

/-- An object of a folder is no object of a folder below it. -/
theorem not_directObject_of_subfolder {folder below key : JsString} (hkey : DirectObject folder key)
    (hbelow : Subfolder folder below) : ¬ DirectObject below key := by
  rintro ⟨⟨rest, rfl⟩, -⟩
  obtain ⟨hstarts, hslash⟩ := hbelow
  apply hkey.2
  rw [List.drop_append_of_le_length hstarts.length_le]
  exact List.mem_append_left _ hslash

private theorem of_enabled {c : Prop} [Decidable c] {s s' : VaultBrowser}
    (h : (if c then some s else none) = some s') : c ∧ s' = s := by
  split at h
  · exact ⟨‹_›, (Option.some.inj h).symm⟩
  · cases h

private theorem of_not_disabled {c : Prop} [Decidable c] {s s' : VaultBrowser}
    (h : (if c then none else some s) = some s') : ¬ c ∧ s' = s := by
  split at h
  · cases h
  · exact ⟨‹_›, (Option.some.inj h).symm⟩

theorem showsFolder_next {s s' : VaultBrowser} {e : Event} (hs : s.ShowsFolder) (h : s.next e = some s') :
    s'.ShowsFolder := by
  have hloading (t : VaultBrowser) (ht : t.page = none) : t.ShowsFolder := by
    intro page hp
    rw [ht] at hp
    cases hp
  cases e with
  | loaded page missed =>
    obtain ⟨hlists, rfl⟩ := of_enabled h
    intro page' hp
    cases hp
    exact hlists
  | toggle key =>
    obtain ⟨-, rfl⟩ := of_enabled h
    exact hs
  | openRow key =>
    obtain ⟨-, rfl⟩ := of_enabled h
    exact hs
  | closeDrawer =>
    cases h
    exact hs
  | openFolder below =>
    obtain ⟨-, rfl⟩ := of_enabled h
    exact hloading _ rfl
  | breadcrumb folder =>
    cases h
    exact hloading _ rfl
  | nextPage =>
    obtain ⟨cursor, -, rfl⟩ := Option.map_eq_some_iff.mp h
    exact hloading _ rfl
  | firstPage =>
    obtain ⟨-, rfl⟩ := of_not_disabled h
    exact hloading _ rfl
  | deleteClick key =>
    obtain ⟨-, rfl⟩ := of_enabled h
    exact hs
  | deleteResolved i =>
    obtain ⟨key, -, rfl⟩ := Option.map_eq_some_iff.mp h
    exact hs
  | deleteRejected i =>
    obtain ⟨key, -, rfl⟩ := Option.map_eq_some_iff.mp h
    exact hs
  | clear =>
    obtain ⟨-, rfl⟩ := of_not_disabled h
    exact hs
  | bulkDeleteClick =>
    obtain ⟨-, rfl⟩ := of_not_disabled h
    exact hs
  | bulkDeleteResolved =>
    obtain ⟨-, rfl⟩ := of_enabled h
    exact hs
  | bulkDeleteRejected =>
    obtain ⟨-, rfl⟩ := of_enabled h
    exact hs

private theorem consistent_unchecked {s : VaultBrowser} (h : s.checked = [])
    (hr : ∀ request ∈ s.requests, ∀ key ∈ request.keys, DirectObject request.folder key ∧ key ∉ request.deleted) :
    s.Consistent := by
  refine ⟨fun key hk => ?_, hr⟩
  rw [h] at hk
  cases hk

private theorem consistent_toggle_iff {s : VaultBrowser} (hs : s.ShowsFolder) (hc : s.Consistent) {key : JsString}
    (hk : key ∈ s.objects) : (s.toggleCheck key).Consistent ↔ key ∈ s.checked ∨ key ∉ s.deleted := by
  unfold toggleCheck
  split
  · rename_i hin
    refine iff_of_true ⟨fun key' hk' => ?_, hc.requests⟩ (Or.inl hin)
    exact hc.checked key' (List.mem_filter.mp hk').1
  · rename_i hout
    constructor
    · intro h
      exact Or.inr (h.checked key (List.mem_append_right _ (List.mem_singleton_self key))).2
    · intro h
      refine ⟨fun key' hk' => ?_, hc.requests⟩
      rcases List.mem_append.mp hk' with hk' | hk'
      · exact hc.checked key' hk'
      · rw [List.mem_singleton.mp hk']
        exact ⟨hs.object hk, h.resolve_left hout⟩

/-- A step from a consistent state leads to a consistent one exactly under the guard. -/
theorem consistent_next_iff {s s' : VaultBrowser} {e : Event} (hs : s.ShowsFolder) (hc : s.Consistent)
    (h : s.next e = some s') : s'.Consistent ↔ s.Guard e := by
  cases e with
  | loaded page missed =>
    obtain ⟨-, rfl⟩ := of_enabled h
    refine iff_of_true ⟨fun key hk => ?_, hc.requests⟩ trivial
    obtain ⟨hdirect, hdeleted⟩ := hc.checked key hk
    exact ⟨hdirect, fun hd => hdeleted (List.mem_of_mem_filter hd)⟩
  | toggle key =>
    obtain ⟨hk, rfl⟩ := of_enabled h
    exact consistent_toggle_iff hs hc hk
  | openRow key =>
    obtain ⟨-, rfl⟩ := of_enabled h
    exact iff_of_true ⟨hc.checked, hc.requests⟩ trivial
  | closeDrawer =>
    cases h
    exact iff_of_true ⟨hc.checked, hc.requests⟩ trivial
  | openFolder below =>
    obtain ⟨hb, rfl⟩ := of_enabled h
    constructor
    · intro h'
      apply List.eq_nil_iff_forall_not_mem.mpr
      intro key hk
      exact not_directObject_of_subfolder (hc.checked key hk).1 (hs.commonPrefix hb) (h'.checked key hk).1
    · exact fun hnone => consistent_unchecked hnone hc.requests
  | breadcrumb folder =>
    cases h
    exact iff_of_true (consistent_unchecked rfl hc.requests) trivial
  | nextPage =>
    obtain ⟨cursor, -, rfl⟩ := Option.map_eq_some_iff.mp h
    exact iff_of_true ⟨hc.checked, hc.requests⟩ trivial
  | firstPage =>
    obtain ⟨-, rfl⟩ := of_not_disabled h
    exact iff_of_true ⟨hc.checked, hc.requests⟩ trivial
  | deleteClick key =>
    obtain ⟨-, rfl⟩ := of_enabled h
    exact iff_of_true ⟨hc.checked, hc.requests⟩ trivial
  | deleteResolved i =>
    obtain ⟨key, hkey, rfl⟩ := Option.map_eq_some_iff.mp h
    constructor
    · intro h' key' hkey' hk
      rw [Option.mem_def, hkey, Option.some.injEq] at hkey'
      subst hkey'
      exact (h'.checked key hk).2 List.mem_cons_self
    · intro hguard
      refine ⟨fun key' hk' => ⟨(hc.checked key' hk').1, fun hd => ?_⟩, hc.requests⟩
      rcases List.mem_cons.mp hd with rfl | hd
      · exact hguard key' hkey hk'
      · exact (hc.checked key' hk').2 hd
  | deleteRejected i =>
    obtain ⟨key, -, rfl⟩ := Option.map_eq_some_iff.mp h
    exact iff_of_true ⟨hc.checked, hc.requests⟩ trivial
  | clear =>
    obtain ⟨-, rfl⟩ := of_not_disabled h
    exact iff_of_true (consistent_unchecked rfl hc.requests) trivial
  | bulkDeleteClick =>
    obtain ⟨-, rfl⟩ := of_not_disabled h
    refine iff_of_true ⟨hc.checked, fun request hr => ?_⟩ trivial
    rcases List.mem_append.mp hr with hr | hr
    · exact hc.requests request hr
    · rw [List.mem_singleton.mp hr]
      exact hc.checked
  | bulkDeleteResolved =>
    obtain ⟨-, rfl⟩ := of_enabled h
    exact iff_of_true (consistent_unchecked rfl hc.requests) trivial
  | bulkDeleteRejected =>
    obtain ⟨-, rfl⟩ := of_enabled h
    exact iff_of_true ⟨hc.checked, hc.requests⟩ trivial

/-- A session keeps its selection to what is shown exactly when each of its steps is guarded. -/
theorem vault_selection_consistent_iff (folder cursor : JsString) (events : List Event) :
    AlwaysSafe next Consistent (initial folder cursor) events ↔
      AlwaysGuarded next Guard (initial folder cursor) events :=
  alwaysSafe_iff_alwaysGuarded next (fun _ _ _ => showsFolder_next) (fun _ _ _ => consistent_next_iff)
    (fun _ h => by cases h) (consistent_unchecked rfl (fun _ h => by cases h)) events

/-- A key that was deleted may be checked once it is listed again, not off a cached page. -/
example : [[], [js "a.txt"]].map (fun missed =>
    (run next (initial [] []) [.loaded ⟨[js "a.txt"], [], none⟩ [], .deleteClick (js "a.txt"), .deleteResolved 0,
      .loaded ⟨[js "a.txt"], [], none⟩ missed]).map deleted) = [some [], some [js "a.txt"]] := by decide

/-- A key checked at the root is still checked, and sent, after a folder is opened. -/
theorem opened_folder_keeps_selection :
    ∃ s, run next (initial [] [])
        [.loaded ⟨[js "a.txt"], [js "docs/"], none⟩ [], .toggle (js "a.txt"), .openFolder (js "docs/"),
          .bulkDeleteClick] = some s ∧
      s.requests = [⟨[js "a.txt"], js "docs/", []⟩] ∧ ¬ s.Consistent := by
  refine ⟨_, rfl, by decide, fun h => ?_⟩
  exact absurd (h.checked (js "a.txt") (by decide)).1 (by decide)

end VaultBrowser

end NestStorageExample.Web
