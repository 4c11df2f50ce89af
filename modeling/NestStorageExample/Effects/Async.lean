import Mathlib.Tactic.Common

/-! Promises over a shared world, with the rules of their postconditions. A run
settles once: it resolves or rejects, and leaves a world behind either way. -/
namespace NestStorageExample.Effects
variable {ε W α β : Type}

def Async (ε W α : Type) : Type := W → Except ε α × W

namespace Async

protected def pure (a : α) : Async ε W α := fun w => (.ok a, w)

/-- `await` in front of the rest of the function. -/
protected def bind (m : Async ε W α) (f : α → Async ε W β) : Async ε W β := fun w =>
  match m w with
  | (.ok a, w') => f a w'
  | (.error e, w') => (.error e, w')

instance : Monad (Async ε W) where
  pure := Async.pure
  bind := Async.bind

protected def throw (e : ε) : Async ε W α := fun w => (.error e, w)

/-- `try … catch`: the handler goes on in the world the failure left. -/
protected def tryCatch (m : Async ε W α) (handler : ε → Async ε W α) : Async ε W α := fun w =>
  match m w with
  | (.ok a, w') => (.ok a, w')
  | (.error e, w') => handler e w'

instance : MonadExceptOf ε (Async ε W) where
  throw := Async.throw
  tryCatch := Async.tryCatch

/-- The same call where its rejections are some among others. -/
def mapError {ε' : Type} (f : ε → ε') (m : Async ε W α) : Async ε' W α := fun w =>
  ((m w).1.mapError f, (m w).2)

/-- What a call that is not awaited returns or throws. -/
def settled (result : Except ε α) : Async ε W α := fun w => (result, w)

@[simp] theorem pure_apply (a : α) (w : W) : (pure a : Async ε W α) w = (.ok a, w) := rfl

theorem ite_apply (c : Prop) [Decidable c] (m m' : Async ε W α) (w : W) :
    (if c then m else m') w = if c then m w else m' w := by
  split <;> rfl

theorem bind_apply (m : Async ε W α) (f : α → Async ε W β) (w : W) :
    (m >>= f) w = match m w with
      | (.ok a, w') => f a w'
      | (.error e, w') => (.error e, w') := rfl

theorem bind_of_ok {m : Async ε W α} {f : α → Async ε W β} {w w' : W} {a : α} (h : m w = (.ok a, w')) :
    (m >>= f) w = f a w' := by
  rw [bind_apply, h]

theorem bind_of_error {m : Async ε W α} {f : α → Async ε W β} {w w' : W} {e : ε} (h : m w = (.error e, w')) :
    (m >>= f) w = (.error e, w') := by
  rw [bind_apply, h]

theorem settled_bind_ok (a : α) (f : α → Async ε W β) : settled (.ok a) >>= f = f a := rfl

theorem settled_bind_error (e : ε) (f : α → Async ε W β) (w : W) : (settled (.error e) >>= f) w = (.error e, w) := rfl

theorem tryCatch_of_ok {m : Async ε W α} {handler : ε → Async ε W α} {w w' : W} {a : α}
    (h : m w = (.ok a, w')) : (tryCatch m handler) w = (.ok a, w') := by
  change Async.tryCatch m handler w = _
  rw [Async.tryCatch, h]

theorem tryCatch_of_error {m : Async ε W α} {handler : ε → Async ε W α} {w w' : W} {e : ε}
    (h : m w = (.error e, w')) : (tryCatch m handler) w = handler e w' := by
  change Async.tryCatch m handler w = _
  rw [Async.tryCatch, h]

/-- A rest that only computes leaves the world as it was. -/
theorem bind_world (m : Async ε W α) {f : α → Async ε W β} (hf : ∀ a w, (f a w).2 = w) (w : W) :
    ((m >>= f) w).2 = (m w).2 := by
  rw [bind_apply]
  cases h : m w with
  | mk result w' =>
    cases result with
    | ok a => exact hf a w'
    | error e => rfl

/-- A handler that only raises leaves the world as it was. -/
theorem tryCatch_world (m : Async ε W α) {handler : ε → Async ε W α} (hhandler : ∀ e w, (handler e w).2 = w) (w : W) :
    ((tryCatch m handler) w).2 = (m w).2 := by
  cases h : m w with
  | mk result w' =>
    cases result with
    | ok a => rw [tryCatch_of_ok h]
    | error e =>
      rw [tryCatch_of_error h]
      exact hhandler e w'

/-- What holds once `m` has settled, started in `w`. -/
def Settles (m : Async ε W α) (w : W) (resolved : α → W → Prop) (rejected : ε → W → Prop) : Prop :=
  match m w with
  | (.ok a, w') => resolved a w'
  | (.error e, w') => rejected e w'

section Rules
variable {m : Async ε W α} {f : α → Async ε W β} {w w' : W} {a : α} {e : ε}
variable {resolved resolved' : α → W → Prop} {rejected rejected' : ε → W → Prop} {next : β → W → Prop}

theorem Settles.of_ok (hm : m.Settles w resolved rejected) (h : m w = (.ok a, w')) : resolved a w' := by
  unfold Settles at hm
  rwa [h] at hm

theorem Settles.of_error (hm : m.Settles w resolved rejected) (h : m w = (.error e, w')) :
    rejected e w' := by
  unfold Settles at hm
  rwa [h] at hm

theorem settles_iff : m.Settles w resolved rejected ↔
    (∀ a w', m w = (.ok a, w') → resolved a w') ∧ (∀ e w', m w = (.error e, w') → rejected e w') := by
  constructor
  · exact fun h => ⟨fun a w' => h.of_ok, fun e w' => h.of_error⟩
  · rintro ⟨hok, herror⟩
    unfold Settles
    split
    · exact hok _ _ ‹_›
    · exact herror _ _ ‹_›

theorem settles_pure (h : resolved a w) : (pure a : Async ε W α).Settles w resolved rejected := h

theorem settles_throw (h : rejected e w) : (throw e : Async ε W α).Settles w resolved rejected := h

theorem Settles.mono (hm : m.Settles w resolved rejected) (hok : ∀ a w', resolved a w' → resolved' a w')
    (herror : ∀ e w', rejected e w' → rejected' e w') : m.Settles w resolved' rejected' :=
  settles_iff.mpr ⟨fun a w' h => hok a w' (hm.of_ok h), fun e w' h => herror e w' (hm.of_error h)⟩

/-- An `await` passes on what it resolved to, or the rejection of the whole. -/
theorem Settles.bind {failed : ε → W → Prop} (hm : m.Settles w resolved rejected)
    (hf : ∀ a w', resolved a w' → (f a).Settles w' next failed)
    (hr : ∀ e w', rejected e w' → failed e w') : (m >>= f).Settles w next failed := by
  rw [settles_iff] at hm
  unfold Settles
  rw [bind_apply]
  cases h : m w with
  | mk result w' =>
    cases result with
    | ok a => exact hf a w' (hm.1 a w' h)
    | error e => exact hr e w' (hm.2 e w' h)

/-- A handler takes over what was rejected. -/
theorem Settles.tryCatch {handler : ε → Async ε W α} (hm : m.Settles w resolved rejected)
    (hhandler : ∀ e w', rejected e w' → (handler e).Settles w' resolved rejected') :
    (tryCatch m handler).Settles w resolved rejected' := by
  rw [settles_iff] at hm
  unfold Settles
  cases h : m w with
  | mk result w' =>
    cases result with
    | ok a =>
      rw [tryCatch_of_ok h]
      exact hm.1 a w' h
    | error e =>
      rw [tryCatch_of_error h]
      exact hhandler e w' (hm.2 e w' h)

theorem mapError_of_ok {ε' : Type} {f : ε → ε'} (h : m w = (.ok a, w')) : m.mapError f w = (.ok a, w') := by
  rw [mapError, h]
  rfl

theorem mapError_of_error {ε' : Type} {f : ε → ε'} (h : m w = (.error e, w')) :
    m.mapError f w = (.error (f e), w') := by
  rw [mapError, h]
  rfl

theorem settles_mapError {ε' : Type} {f : ε → ε'} {rejected : ε' → W → Prop} :
    (m.mapError f).Settles w resolved rejected ↔ m.Settles w resolved (fun e w' => rejected (f e) w') := by
  unfold Settles mapError
  rcases m w with ⟨_ | _, _⟩ <;> exact Iff.rfl

/-- A call that cannot reject resolves. -/
theorem Settles.exists_ok (hm : m.Settles w resolved (fun _ _ => False)) :
    ∃ a w', m w = (.ok a, w') ∧ resolved a w' := by
  cases h : m w with
  | mk result w' =>
    cases result with
    | ok a => exact ⟨a, w', rfl, hm.of_ok h⟩
    | error e => exact (hm.of_error h).elim

/-- A call that cannot resolve rejects. -/
theorem Settles.exists_error (hm : m.Settles w resolved rejected) (hno : ∀ a w', ¬ resolved a w') :
    ∃ e w', m w = (.error e, w') ∧ rejected e w' := by
  cases h : m w with
  | mk result w' =>
    cases result with
    | ok a => exact absurd (hm.of_ok h) (hno a w')
    | error e => exact ⟨e, w', rfl, hm.of_error h⟩

end Rules

end Async

end NestStorageExample.Effects
