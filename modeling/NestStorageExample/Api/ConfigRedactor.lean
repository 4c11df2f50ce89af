import Mathlib.Data.List.Forall2
import NestStorageExample.Api.StorageOptions

/-! What `/system/config` and `/system/recipes` show of the storage options, and what
they therefore cannot tell apart. -/
namespace NestStorageExample.Api
open Text
variable {Rest Scan Validate : Type}

def redacted : JsString := js "[redacted]"

def visibleKeyChars : Nat := 4

structure RenderedScanner where
  impl : JsString
  mode : Option ScannerMode
  rejectOnUnknown : Option Bool
  deriving DecidableEq

structure RenderedValidation where
  mimeWhitelist : Option (List JsString)
  maxSizeBytes : Option Nat
  customValidators : Option (List JsString)
  deriving DecidableEq

structure RedactedStorageOptions (Rest : Type) where
  credentials : Option StorageCredentials
  scanner : Option RenderedScanner
  validation : Option RenderedValidation
  rest : Rest

def maskAccessKeyId (accessKeyId : JsString) : JsString :=
  accessKeyId.take visibleKeyChars ++ List.replicate (accessKeyId.length - visibleKeyChars) 0x2A

def redactCredentials (credentials : StorageCredentials) : StorageCredentials where
  accessKeyId := maskAccessKeyId credentials.accessKeyId
  secretAccessKey := redacted
  sessionToken := credentials.sessionToken.map (fun _ => redacted)

def renderScanner (scanner : ScannerOptions Scan) : RenderedScanner where
  impl := scanner.impl.constructorName
  mode := scanner.mode
  rejectOnUnknown := scanner.rejectOnUnknown

def renderValidation (validation : ValidationOptions Validate) : RenderedValidation where
  mimeWhitelist := validation.mimeWhitelist
  maxSizeBytes := validation.maxSizeBytes
  customValidators := validation.customValidators.map (List.map UploadValidator.name)

def redactStorageOptions (options : StorageOptions Rest Scan Validate) : RedactedStorageOptions Rest where
  credentials := options.credentials.map redactCredentials
  scanner := options.scanner.map renderScanner
  validation := options.validation.map renderValidation
  rest := options.rest

/-- `SystemController.config` -/
def SystemController.config (options : StorageOptions Rest Scan Validate) : RedactedStorageOptions Rest :=
  redactStorageOptions options

structure RecipeView (Options : Type) where
  provider : JsString
  options : Options
  quirks : List JsString

/-- `buildRecipeViews` over the six blueprints. -/
def buildRecipeViews (blueprints : List (RecipeView (StorageOptions Rest Scan Validate))) :
    List (RecipeView (RedactedStorageOptions Rest)) :=
  blueprints.map (fun view => { view with options := redactStorageOptions view.options })

section Secrets

/-- Credentials that agree on all but the hidden rest of the key id, the secret and the token's value. -/
structure AgreeOutsideCredentials (a b : StorageCredentials) : Prop where
  keyLength : a.accessKeyId.length = b.accessKeyId.length
  keyStart : a.accessKeyId.take visibleKeyChars = b.accessKeyId.take visibleKeyChars
  tokenPresence : a.sessionToken.isSome = b.sessionToken.isSome

structure AgreeOutsideImpl (a b : ScannerOptions Scan) : Prop where
  name : a.impl.constructorName = b.impl.constructorName
  mode : a.mode = b.mode
  rejectOnUnknown : a.rejectOnUnknown = b.rejectOnUnknown

structure AgreeOutsideValidators (a b : ValidationOptions Validate) : Prop where
  mimeWhitelist : a.mimeWhitelist = b.mimeWhitelist
  maxSizeBytes : a.maxSizeBytes = b.maxSizeBytes
  names : a.customValidators.map (List.map UploadValidator.name) = b.customValidators.map (List.map UploadValidator.name)

/-- Two configurations that differ at most in their secrets and in the insides of their plugins. -/
structure AgreeOutsideSecrets (a b : StorageOptions Rest Scan Validate) : Prop where
  credentials : Option.Rel AgreeOutsideCredentials a.credentials b.credentials
  scanner : Option.Rel AgreeOutsideImpl a.scanner b.scanner
  validation : Option.Rel AgreeOutsideValidators a.validation b.validation
  rest : a.rest = b.rest

theorem map_eq_map_iff_rel {α β : Type} {f : α → β} {r : α → α → Prop} (h : ∀ x y, f x = f y ↔ r x y)
    (a b : Option α) : a.map f = b.map f ↔ Option.Rel r a b := by
  cases a with
  | none =>
    cases b with
    | none => exact iff_of_true rfl .none
    | some y => exact iff_of_false (fun he => by cases he) (fun hr => by cases hr)
  | some x =>
    cases b with
    | none => exact iff_of_false (fun he => by cases he) (fun hr => by cases hr)
    | some y =>
      rw [Option.map_some, Option.map_some, Option.some.injEq, h]
      exact ⟨.some, fun hr => by cases hr; assumption⟩

theorem maskAccessKeyId_length (accessKeyId : JsString) : (maskAccessKeyId accessKeyId).length = accessKeyId.length := by
  rw [maskAccessKeyId, List.length_append, List.length_take, List.length_replicate]
  omega

/-- The mask shows the length and the first four characters, and nothing else. -/
theorem maskAccessKeyId_eq_iff (a b : JsString) : maskAccessKeyId a = maskAccessKeyId b ↔
    a.length = b.length ∧ a.take visibleKeyChars = b.take visibleKeyChars := by
  constructor
  · intro h
    have hlength := congrArg List.length h
    rw [maskAccessKeyId_length, maskAccessKeyId_length] at hlength
    refine ⟨hlength, List.append_inj_left h ?_⟩
    rw [List.length_take, List.length_take, hlength]
  · rintro ⟨hlength, hstart⟩
    rw [maskAccessKeyId, maskAccessKeyId, hlength, hstart]

theorem redactCredentials_eq_iff (a b : StorageCredentials) :
    redactCredentials a = redactCredentials b ↔ AgreeOutsideCredentials a b := by
  have htoken : a.sessionToken.map (fun _ => redacted) = b.sessionToken.map (fun _ => redacted) ↔
      a.sessionToken.isSome = b.sessionToken.isSome := by
    cases a.sessionToken <;> cases b.sessionToken <;> simp
  rw [redactCredentials, redactCredentials, StorageCredentials.mk.injEq, maskAccessKeyId_eq_iff, htoken]
  exact ⟨fun h => ⟨h.1.1, h.1.2, h.2.2⟩, fun h => ⟨⟨h.keyLength, h.keyStart⟩, rfl, h.tokenPresence⟩⟩

theorem renderScanner_eq_iff (a b : ScannerOptions Scan) :
    renderScanner a = renderScanner b ↔ AgreeOutsideImpl a b := by
  rw [renderScanner, renderScanner, RenderedScanner.mk.injEq]
  exact ⟨fun h => ⟨h.1, h.2.1, h.2.2⟩, fun h => ⟨h.name, h.mode, h.rejectOnUnknown⟩⟩

theorem renderValidation_eq_iff (a b : ValidationOptions Validate) :
    renderValidation a = renderValidation b ↔ AgreeOutsideValidators a b := by
  rw [renderValidation, renderValidation, RenderedValidation.mk.injEq]
  exact ⟨fun h => ⟨h.1, h.2.1, h.2.2⟩, fun h => ⟨h.mimeWhitelist, h.maxSizeBytes, h.names⟩⟩

/-- The introspection view tells two configurations apart exactly when they differ
outside their secrets. -/
theorem redactStorageOptions_eq_iff (a b : StorageOptions Rest Scan Validate) :
    redactStorageOptions a = redactStorageOptions b ↔ AgreeOutsideSecrets a b := by
  rw [redactStorageOptions, redactStorageOptions, RedactedStorageOptions.mk.injEq,
    map_eq_map_iff_rel redactCredentials_eq_iff, map_eq_map_iff_rel renderScanner_eq_iff,
    map_eq_map_iff_rel renderValidation_eq_iff]
  exact ⟨fun h => ⟨h.1, h.2.1, h.2.2.1, h.2.2.2⟩, fun h => ⟨h.credentials, h.scanner, h.validation, h.rest⟩⟩

/-- Introspection shows no secret, and every option it does not render as it is. -/
theorem config_leaks_no_secret {a b : StorageOptions Rest Scan Validate} (h : AgreeOutsideSecrets a b) :
    redactStorageOptions a = redactStorageOptions b ∧
      (redactStorageOptions a).rest = a.rest ∧ (redactStorageOptions b).rest = b.rest ∧
      SystemController.config a = SystemController.config b :=
  ⟨(redactStorageOptions_eq_iff a b).mpr h, rfl, rfl, (redactStorageOptions_eq_iff a b).mpr h⟩

/-- Rotated keys, and a scanner in another state, behind the same public part. -/
theorem rotated_keys_look_alike :
    redactStorageOptions (⟨some ⟨js "minioadmin", js "secret", some (js "token")⟩,
      some ⟨⟨js "Scanner", 0⟩, none, some true⟩, none, js "vault"⟩ : StorageOptions JsString Nat Nat) =
    redactStorageOptions (⟨some ⟨js "minioREDUX", js "another", some (js "other")⟩,
      some ⟨⟨js "Scanner", 1⟩, none, some true⟩, none, js "vault"⟩ : StorageOptions JsString Nat Nat) := by
  have hcredentials : AgreeOutsideCredentials ⟨js "minioadmin", js "secret", some (js "token")⟩
      ⟨js "minioREDUX", js "another", some (js "other")⟩ := ⟨by decide, by decide, rfl⟩
  refine (config_leaks_no_secret ?_).1
  exact ⟨.some hcredentials, .some ⟨rfl, rfl, rfl⟩, .none, rfl⟩

/-- The recipe list is as silent about its sample credentials. -/
theorem recipes_leak_no_secret {a b : List (RecipeView (StorageOptions Rest Scan Validate))}
    (h : List.Forall₂ (fun x y => x.provider = y.provider ∧ x.quirks = y.quirks ∧
      AgreeOutsideSecrets x.options y.options) a b) : buildRecipeViews a = buildRecipeViews b := by
  induction h with
  | nil => rfl
  | cons hview _ ih =>
    obtain ⟨hprovider, hquirks, hoptions⟩ := hview
    rw [buildRecipeViews, List.map_cons, hprovider, hquirks, (redactStorageOptions_eq_iff _ _).mpr hoptions]
    exact congrArg (_ :: ·) ih

end Secrets

end NestStorageExample.Api
