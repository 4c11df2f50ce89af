import NestStorageExample.Api.Schemas

/-! The keys the upload endpoints compose. Each is a first segment, a slash and a
rest; only the tenant keys carry a category between the two. -/
namespace NestStorageExample.Api
open Text

def dot : CodeUnit := 0x2E

/-- `s.lastIndexOf(c)`, `none` for `-1`. -/
def lastIndexOf (c : CodeUnit) : JsString → Option Nat
  | [] => none
  | d :: s =>
    match lastIndexOf c s with
    | some i => some (i + 1)
    | none => if d = c then some 0 else none

def extractExtension (originalname : JsString) : JsString :=
  match lastIndexOf dot originalname with
  | some dotIndex => originalname.drop dotIndex
  | none => []

/-- `uploadSingle`, `uploadWithSseOverride`, `uploadMultipart` and `uploadStream`
compose the same key. -/
def uploadKey (category : UploadCategory) (uuid : Uuid) (filename : JsString) : JsString :=
  category.text ++ slash :: (uuid.text ++ extractExtension filename)

def idempotentKey (keyHash : HexDigest) : JsString :=
  js "idempotent" ++ slash :: (keyHash.text ++ js ".txt")

def uploadUrlKey (category : UploadCategory) (uuid : Uuid) : JsString :=
  category.text ++ slash :: uuid.text

def validationLabKey (uuid : Uuid) (originalname : JsString) : JsString :=
  js "validation-lab" ++ slash :: (uuid.text ++ extractExtension originalname)

def defaultExtension : JsString := js "txt"

def tenantKey (tenant : TenantSlug) (category : TenantCategory) (extension : Option Extension)
    (uuid : Uuid) : JsString :=
  tenant.text ++ slash :: (category.text ++ slash :: (uuid.text ++
    dot :: (extension.elim defaultExtension Extension.text)))

/-- `tenantPrefix` without a category is what `clear` lists; with one, what a narrowed `list` does. -/
def tenantPrefix (tenant : TenantSlug) (category : Option TenantCategory) : JsString :=
  match category with
  | some category => tenant.text ++ slash :: (category.text ++ [slash])
  | none => tenant.text ++ [slash]

theorem lastIndexOf_eq_none_iff (c : CodeUnit) (s : JsString) : lastIndexOf c s = none ↔ c ∉ s := by
  induction s with
  | nil => simp [lastIndexOf]
  | cons d s ih =>
    rw [lastIndexOf]
    cases h : lastIndexOf c s with
    | some i =>
      have : c ∈ s := by
        by_contra hc
        rw [ih.mpr hc] at h
        cases h
      simp [this]
    | none =>
      have hc := ih.mp h
      by_cases hd : d = c
      · simp [hd]
      · simp [hd, hc, Ne.symm hd]

/-- The last index cuts the string at its last `c`. -/
theorem lastIndexOf_eq_some {c : CodeUnit} {s : JsString} {i : Nat} (h : lastIndexOf c s = some i) :
    ∃ tail, s.drop i = c :: tail ∧ c ∉ tail := by
  induction s generalizing i with
  | nil => cases h
  | cons d s ih =>
    rw [lastIndexOf] at h
    cases hs : lastIndexOf c s with
    | some j =>
      rw [hs] at h
      cases h
      exact ih hs
    | none =>
      rw [hs] at h
      by_cases hd : d = c
      · rw [if_pos hd] at h
        cases h
        exact ⟨s, by rw [List.drop_zero, hd], (lastIndexOf_eq_none_iff c s).mp hs⟩
      · rw [if_neg hd] at h
        cases h

/-- An extension is nothing, or a dot and what follows the last one. -/
theorem extractExtension_cases (name : JsString) :
    (dot ∉ name ∧ extractExtension name = []) ∨
      ∃ stem tail, name = stem ++ dot :: tail ∧ dot ∉ tail ∧ extractExtension name = dot :: tail := by
  unfold extractExtension
  cases h : lastIndexOf dot name with
  | none => exact Or.inl ⟨(lastIndexOf_eq_none_iff dot name).mp h, rfl⟩
  | some i =>
    obtain ⟨tail, hdrop, htail⟩ := lastIndexOf_eq_some h
    exact Or.inr ⟨name.take i, tail, by rw [← hdrop, List.take_append_drop], htail, hdrop⟩

theorem extractExtension_append (stem : JsString) {tail : JsString} (h : dot ∉ tail) :
    extractExtension (stem ++ dot :: tail) = dot :: tail := by
  have hlast : lastIndexOf dot (stem ++ dot :: tail) = some stem.length := by
    induction stem with
    | nil => rw [List.nil_append, lastIndexOf, (lastIndexOf_eq_none_iff dot tail).mpr h]; rfl
    | cons c stem ih => rw [List.cons_append, lastIndexOf, ih]; rfl
  rw [extractExtension, hlast]
  exact List.drop_left

theorem head_append_ne_slash {s : JsString} (hne : s ≠ []) (hs : slash ∉ s) (t : JsString) :
    (s ++ t).head? ≠ some slash := by
  cases s with
  | nil => exact absurd rfl hne
  | cons c s =>
    intro h
    exact hs (by simp [Option.some.inj h])

theorem TenantSlug.ne_nil (t : TenantSlug) : t.text ≠ [] := by
  have := ((accepts_boundedClass_iff _ _ _ _ _).mp t.accepted).1
  exact List.length_pos_iff.mp (by omega)

theorem TenantCategory.ne_nil (t : TenantCategory) : t.text ≠ [] :=
  List.length_pos_iff.mp ((accepts_boundedClass_iff _ _ _ _ _).mp t.accepted).1

theorem UploadCategory.ne_nil (category : UploadCategory) : category.text ≠ [] := by
  cases category <;> decide

theorem Uuid.ne_nil (uuid : Uuid) : uuid.text ≠ [] := by
  have := uuid.length
  exact List.length_pos_iff.mp (by omega)

theorem PlainSegment.not_dot {s : JsString} (h : PlainSegment s) : dot ∉ s :=
  fun hdot => absurd (h dot hdot) (by decide)

/-- One dot makes no `..` segment. -/
theorem dots_not_mem_splitSlash {s : JsString} (h : s.count dot ≤ 1) : js ".." ∉ splitSlash s := by
  intro hdots
  have hcount := (count_le_of_mem_splitSlash dot hdots).trans h
  exact absurd hcount (by decide)

theorem PlainSegment.ne_dots {s : JsString} (h : PlainSegment s) : s ≠ js ".." := by
  rintro rfl
  exact absurd (isKeySeedUnit_spec (h dot (by decide))).2.2.1 (by decide)

/-- The last segment of a tenant key. -/
theorem tenantFile_not_slash (extension : Option Extension) (uuid : Uuid) :
    slash ∉ uuid.text ++ dot :: extension.elim defaultExtension Extension.text := by
  simp only [List.mem_append, List.mem_cons, not_or]
  refine ⟨uuid.plain.not_slash, by decide, ?_⟩
  cases extension with
  | none => decide
  | some e => exact e.plain.not_slash

theorem splitSlash_tenantKey (tenant : TenantSlug) (category : TenantCategory) (extension : Option Extension)
    (uuid : Uuid) : splitSlash (tenantKey tenant category extension uuid) =
      [tenant.text, category.text, uuid.text ++ dot :: extension.elim defaultExtension Extension.text] := by
  rw [tenantKey, splitSlash_append_slash tenant.plain.not_slash, splitSlash_append_slash category.plain.not_slash,
    splitSlash_of_not_mem (tenantFile_not_slash extension uuid)]

theorem collapseSlashes_tenantKey (tenant : TenantSlug) (category : TenantCategory) (extension : Option Extension)
    (uuid : Uuid) :
    collapseSlashes (tenantKey tenant category extension uuid) = tenantKey tenant category extension uuid := by
  have hfile := collapseSlashes_append (tenantFile_not_slash extension uuid) []
  rw [List.append_nil] at hfile
  rw [tenantKey, collapseSlashes_segment tenant.plain.not_slash
      (head_append_ne_slash category.ne_nil category.plain.not_slash _),
    collapseSlashes_segment category.plain.not_slash (head_append_ne_slash uuid.ne_nil uuid.plain.not_slash _), hfile]
  simp [collapseSlashes]

/-- A tenant key passes the resolver as it stands. -/
theorem tenantKey_canonical (tenant : TenantSlug) (category : TenantCategory) (extension : Option Extension)
    (uuid : Uuid) :
    (tenantKey tenant category extension uuid).head? ≠ some slash ∧
      js ".." ∉ splitSlash (tenantKey tenant category extension uuid) ∧
      ¬ [slash, slash] <:+: tenantKey tenant category extension uuid := by
  refine ⟨head_append_ne_slash tenant.ne_nil tenant.plain.not_slash _, ?_, ?_⟩
  · rw [splitSlash_tenantKey]
    intro h
    simp only [List.mem_cons, List.not_mem_nil, or_false] at h
    rcases h with h | h | h
    · exact tenant.plain.ne_dots h.symm
    · exact category.plain.ne_dots h.symm
    · have hlen := congrArg List.length h
      have := uuid.length
      rw [List.length_append, List.length_cons] at hlen
      have : (js "..").length = 2 := by decide
      omega
  · rw [← collapseSlashes_length_eq_iff, collapseSlashes_tenantKey]

theorem Extension.text_bounds (extension : Option Extension) :
    PlainSegment (extension.elim defaultExtension Extension.text) ∧
      (extension.elim defaultExtension Extension.text).length ≤ 8 := by
  cases extension with
  | none => exact ⟨(by decide : PlainSegment defaultExtension), (by decide : defaultExtension.length ≤ 8)⟩
  | some e => exact ⟨e.plain, ((accepts_boundedClass_iff _ _ _ _ _).mp e.accepted).2.1⟩

/-- A tenant key is short and of plain units: any key schema takes it. -/
theorem tenantKey_accepted (tenant : TenantSlug) (category : TenantCategory) (extension : Option Extension)
    (uuid : Uuid) : objectKeySchema.Accepts (tenantKey tenant category extension uuid) := by
  obtain ⟨hplain, hlength⟩ := Extension.text_bounds extension
  have htenant := ((accepts_boundedClass_iff _ _ _ _ _).mp tenant.accepted).2.1
  have hcategory := ((accepts_boundedClass_iff _ _ _ _ _).mp category.accepted).2.1
  have hunits : ∀ c ∈ tenantKey tenant category extension uuid,
      c.toNat < 0x80 ∧ isControlCode c = false := by
    intro c hc
    have hseparator : ∀ u : CodeUnit, u = slash ∨ u = dot → u.toNat < 0x80 ∧ isControlCode u = false := by
      rintro u (rfl | rfl) <;> decide
    simp only [tenantKey, List.mem_append, List.mem_cons] at hc
    rcases hc with hc | hc | hc | hc | hc | hc | hc
    · exact ⟨tenant.plain.isAscii c hc, tenant.plain.no_control c hc⟩
    · exact hseparator c (Or.inl hc)
    · exact ⟨category.plain.isAscii c hc, category.plain.no_control c hc⟩
    · exact hseparator c (Or.inl hc)
    · exact ⟨uuid.plain.isAscii c hc, uuid.plain.no_control c hc⟩
    · exact hseparator c (Or.inr hc)
    · exact ⟨hplain.isAscii c hc, hplain.no_control c hc⟩
  rw [objectKeySchema_accepts_iff, byteLength_ascii (fun c hc => (hunits c hc).1)]
  refine ⟨?_, ?_, fun c hc => (hunits c hc).2⟩
  · rw [tenantKey]
    exact List.append_ne_nil_of_left_ne_nil tenant.ne_nil _
  · have huuid := uuid.length
    simp only [tenantKey, List.length_append, List.length_cons, maxKeyBytes]
    omega

/-- The one dot of a tenant key's last segment. -/
theorem tenantFile_dots (extension : Option Extension) (uuid : Uuid) :
    (uuid.text ++ dot :: extension.elim defaultExtension Extension.text).count dot = 1 := by
  have hplain {s : JsString} (h : PlainSegment s) : s.count dot = 0 :=
    List.count_eq_zero.mpr (fun hmem => (isKeySeedUnit_spec (h dot hmem)).2.2.1 rfl)
  rw [List.count_append, List.count_cons_self, hplain uuid.plain, hplain (Extension.text_bounds extension).1]

end NestStorageExample.Api
