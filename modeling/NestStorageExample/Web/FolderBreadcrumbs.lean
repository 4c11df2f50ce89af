import NestStorageExample.Text.Segments

/-! The breadcrumb trail over a folder: what it parses of a prefix, and where each of its
buttons navigates. -/
namespace NestStorageExample.Web
open Text

structure Crumb where
  label : JsString
  pathPrefix : JsString
  deriving DecidableEq

/-- One `<span>` of the trail: its key, whether a chevron stands before the button, the text of
the button (`none` for the home icon), what a click hands to `onNavigate`, and `aria-current`. -/
structure CrumbItem where
  key : JsString
  chevron : Bool
  text : Option JsString
  onClick : JsString
  current : Bool
  deriving DecidableEq

/-- The loop over the segments: `accumulated` and the crumbs so far. -/
def pushCrumb (state : JsString × List Crumb) (part : JsString) : JsString × List Crumb :=
  let accumulated := state.1 ++ (part ++ [slash])
  (accumulated, state.2 ++ [⟨part, accumulated⟩])

def parsePrefixToCrumbs (pathPrefix : JsString) : List Crumb :=
  let crumbs := [⟨js "root", []⟩]
  if pathPrefix = [] then crumbs
  else (((splitSlash pathPrefix).filter (fun part => 0 < part.length)).foldl pushCrumb ([], crumbs)).2

def renderCrumb (count i : Nat) (crumb : Crumb) : CrumbItem :=
  let isLast := i == count - 1
  if crumb.label = js "root" then ⟨crumb.pathPrefix, 0 < i, none, [], isLast⟩
  else ⟨crumb.pathPrefix, 0 < i, some crumb.label, crumb.pathPrefix, isLast⟩

/-- `FolderBreadcrumbs`, without its styling. -/
def folderBreadcrumbs (pathPrefix : JsString) : List CrumbItem :=
  let crumbs := parsePrefixToCrumbs pathPrefix
  crumbs.mapIdx (renderCrumb crumbs.length)

/-- What a folder can be called. -/
structure FolderName where
  text : JsString
  nonempty : text ≠ []
  noSlash : slash ∉ text

/-- `s1/.../sn/` -/
def folderPrefix (folders : List FolderName) : JsString := folders.flatMap (fun folder => folder.text ++ [slash])

/-- The trail names the folders on the way, and each button leads where it says. -/
structure Navigates (folders : List FolderName) : Prop where
  count : (folderBreadcrumbs (folderPrefix folders)).length = folders.length + 1
  root : ∃ item, (folderBreadcrumbs (folderPrefix folders))[0]? = some item ∧ item.text = none ∧ item.onClick = []
  crumbs : ∀ k ≤ folders.length, ∃ item, (folderBreadcrumbs (folderPrefix folders))[k]? = some item ∧
    item.onClick = folderPrefix (folders.take k)
  current : ∃ item, (folderBreadcrumbs (folderPrefix folders)).getLast? = some item ∧
    item.onClick = folderPrefix folders
  ancestors : ∀ item ∈ folderBreadcrumbs (folderPrefix folders), item.onClick <+: folderPrefix folders

theorem splitSlash_folderPrefix (folders : List FolderName) :
    (splitSlash (folderPrefix folders)).filter (fun part => 0 < part.length) = folders.map FolderName.text := by
  induction folders with
  | nil => rfl
  | cons folder folders ih =>
    have hpos := List.length_pos_iff.mpr folder.nonempty
    rw [folderPrefix, List.flatMap_cons, List.append_assoc, List.singleton_append,
      splitSlash_append_slash folder.noSlash, List.filter_cons_of_pos (by rwa [decide_eq_true_eq])]
    exact congrArg (folder.text :: ·) ih

/-- The crumbs after the root, `accumulated` in front of their prefixes. -/
def crumbsFrom (accumulated : JsString) (folders : List FolderName) : List Crumb :=
  folders.mapIdx fun i folder => ⟨folder.text, accumulated ++ folderPrefix (folders.take (i + 1))⟩

theorem crumbsFrom_cons (accumulated : JsString) (folder : FolderName) (folders : List FolderName) :
    crumbsFrom accumulated (folder :: folders) =
      ⟨folder.text, accumulated ++ (folder.text ++ [slash])⟩ ::
        crumbsFrom (accumulated ++ (folder.text ++ [slash])) folders := by
  rw [crumbsFrom, crumbsFrom, List.mapIdx_cons]
  congr 1
  · simp [folderPrefix]
  · simp only [List.take_succ_cons, folderPrefix, List.flatMap_cons, List.append_assoc]

theorem foldl_pushCrumb (accumulated : JsString) (crumbs : List Crumb) (folders : List FolderName) :
    (folders.map FolderName.text).foldl pushCrumb (accumulated, crumbs) =
      (accumulated ++ folderPrefix folders, crumbs ++ crumbsFrom accumulated folders) := by
  induction folders generalizing accumulated crumbs with
  | nil => simp [folderPrefix, crumbsFrom]
  | cons folder folders ih =>
    rw [List.map_cons, List.foldl_cons, pushCrumb, ih, crumbsFrom_cons]
    simp [folderPrefix]

theorem parsePrefixToCrumbs_folderPrefix (folders : List FolderName) :
    parsePrefixToCrumbs (folderPrefix folders) = ⟨js "root", []⟩ :: crumbsFrom [] folders := by
  rw [parsePrefixToCrumbs, splitSlash_folderPrefix, foldl_pushCrumb]
  split
  · rename_i hempty
    cases folders with
    | nil => rfl
    | cons folder folders =>
      rw [folderPrefix, List.flatMap_cons, List.append_assoc] at hempty
      exact absurd (List.append_eq_nil_iff.mp hempty).1 folder.nonempty
  · rfl

theorem renderCrumb_onClick (count i : Nat) (crumb : Crumb) :
    (renderCrumb count i crumb).onClick = if crumb.label = js "root" then [] else crumb.pathPrefix := by
  rw [renderCrumb]
  split <;> rfl

theorem folderBreadcrumbs_length (folders : List FolderName) :
    (folderBreadcrumbs (folderPrefix folders)).length = folders.length + 1 := by
  rw [folderBreadcrumbs, parsePrefixToCrumbs_folderPrefix]
  simp [crumbsFrom]

/-- The first button is the home icon. -/
theorem folderBreadcrumbs_zero (folders : List FolderName) : ∃ item,
    (folderBreadcrumbs (folderPrefix folders))[0]? = some item ∧ item.text = none ∧ item.onClick = [] := by
  refine ⟨renderCrumb (crumbsFrom [] folders).length.succ 0 ⟨js "root", []⟩, ?_, ?_, ?_⟩
  · rw [folderBreadcrumbs, parsePrefixToCrumbs_folderPrefix, List.getElem?_mapIdx]
    rfl
  · rw [renderCrumb, if_pos rfl]
  · rw [renderCrumb_onClick, if_pos rfl]

/-- Every later button leads to the folder it names, but one called `root` leads home. -/
theorem folderBreadcrumbs_succ {folders : List FolderName} {k : Nat} {folder : FolderName}
    (h : folders[k]? = some folder) : ∃ item, (folderBreadcrumbs (folderPrefix folders))[k + 1]? = some item ∧
      item.onClick = if folder.text = js "root" then [] else folderPrefix (folders.take (k + 1)) := by
  refine ⟨renderCrumb (crumbsFrom [] folders).length.succ (k + 1) ⟨folder.text, folderPrefix (folders.take (k + 1))⟩,
    ?_, renderCrumb_onClick _ _ _⟩
  rw [folderBreadcrumbs, parsePrefixToCrumbs_folderPrefix, List.getElem?_mapIdx, List.getElem?_cons_succ, crumbsFrom,
    List.getElem?_mapIdx, h]
  rfl

theorem folderPrefix_take_ne_nil {folders : List FolderName} {k : Nat} {folder : FolderName}
    (h : folders[k]? = some folder) : folderPrefix (folders.take (k + 1)) ≠ [] := by
  rw [List.take_add_one, h, folderPrefix, List.flatMap_append]
  exact List.append_ne_nil_of_right_ne_nil _ (by simp)

theorem folderPrefix_take (folders : List FolderName) (k : Nat) :
    folderPrefix (folders.take k) <+: folderPrefix folders :=
  (List.take_prefix k folders).flatMap _

/-- The trail leads where it says exactly when no folder on the way is called `root`. -/
theorem breadcrumbs_navigate_iff (folders : List FolderName) :
    Navigates folders ↔ ∀ folder ∈ folders, folder.text ≠ js "root" := by
  have hlength := folderBreadcrumbs_length folders
  constructor
  · intro hnavigates folder hfolder hroot
    obtain ⟨k, hk⟩ := List.mem_iff_getElem?.mp hfolder
    have hlt := (List.getElem?_eq_some_iff.mp hk).1
    obtain ⟨item, hitem, hclick⟩ := folderBreadcrumbs_succ hk
    obtain ⟨item', hitem', hclick'⟩ := hnavigates.crumbs (k + 1) hlt
    rw [hitem, Option.some.injEq] at hitem'
    rw [← hitem', hclick, if_pos hroot] at hclick'
    exact folderPrefix_take_ne_nil hk hclick'.symm
  · intro hroot
    have hcrumbs (k : Nat) (hk : k ≤ folders.length) : ∃ item,
        (folderBreadcrumbs (folderPrefix folders))[k]? = some item ∧ item.onClick = folderPrefix (folders.take k) := by
      cases k with
      | zero =>
        obtain ⟨item, hitem, -, hclick⟩ := folderBreadcrumbs_zero folders
        exact ⟨item, hitem, hclick⟩
      | succ k =>
        have hfolder := List.getElem?_eq_getElem hk
        obtain ⟨item, hitem, hclick⟩ := folderBreadcrumbs_succ hfolder
        rw [if_neg (hroot _ (List.getElem_mem hk))] at hclick
        exact ⟨item, hitem, hclick⟩
    refine ⟨hlength, folderBreadcrumbs_zero folders, hcrumbs, ?_, ?_⟩
    · obtain ⟨item, hitem, hclick⟩ := hcrumbs folders.length (Nat.le_refl _)
      rw [List.take_length] at hclick
      exact ⟨item, by rw [List.getLast?_eq_getElem?, hlength]; exact hitem, hclick⟩
    · intro item hmem
      obtain ⟨k, hk⟩ := List.mem_iff_getElem?.mp hmem
      have hlt := (List.getElem?_eq_some_iff.mp hk).1
      obtain ⟨item', hitem', hclick⟩ := hcrumbs k (by omega)
      rw [hk, Option.some.injEq] at hitem'
      rw [hitem', hclick]
      exact folderPrefix_take folders k

/-- A folder `root` under `docs`: its button goes to the top. -/
theorem root_folder_goes_home : ∃ folders : List FolderName, folderPrefix folders = js "docs/root/" ∧
    (folderBreadcrumbs (js "docs/root/")).map CrumbItem.onClick = [[], js "docs/", []] ∧ ¬ Navigates folders := by
  refine ⟨[⟨js "docs", by decide, by decide⟩, ⟨js "root", by decide, by decide⟩], by decide, by decide, ?_⟩
  intro hnavigates
  obtain ⟨item, hitem, hclick⟩ := hnavigates.crumbs 2 (by decide)
  cases hitem
  exact absurd hclick (by decide)

end NestStorageExample.Web
