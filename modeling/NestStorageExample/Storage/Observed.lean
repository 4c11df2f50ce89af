import NestStorageExample.Storage.Provider

/-! The same library watched from outside: before each call the environment takes a
turn, and each call is noted with what was stored when it ran. -/
namespace NestStorageExample.Storage
open Text Effects

inductive Call where
  | upload (options : UploadOptions)
  | head (key : JsString) (bucket : Option JsString)
  | download (options : DownloadOptions)
  | list (options : ListOptions)
  | delete (key : JsString) (bucket : Option JsString)
  | deleteMany (keys : List JsString)
  | copy (options : CopyOptions)
  deriving DecidableEq

/-- The keys a call asks the default bucket to delete. -/
def Call.deletes : Call → List JsString
  | delete key none => [key]
  | deleteMany keys => keys
  | _ => []

structure Observed (W : Type) where
  world : W
  environment : List (W → W)
  calls : List (Call × Store)

namespace Observed
variable {W α : Type}

/-- The keys asked to be deleted so far. -/
def deletes (s : Observed W) : List JsString := s.calls.flatMap (fun call => call.1.deletes)

theorem deletes_append (w : W) (environment : List (W → W)) (calls : List (Call × Store)) (call : Call)
    (store : Store) :
    (Observed.mk w environment (calls ++ [(call, store)])).deletes =
      (Observed.mk w environment calls).deletes ++ call.deletes := by
  simp [deletes]

/-- The environment's next turn, if it takes one. -/
def turn (s : Observed W) : Observed W :=
  match s.environment with
  | [] => s
  | act :: rest => { s with world := act s.world, environment := rest }

@[simp] theorem turn_cons (w : W) (act : W → W) (rest : List (W → W)) (calls : List (Call × Store)) :
    turn ⟨w, act :: rest, calls⟩ = ⟨act w, rest, calls⟩ := rfl

end Observed

namespace Provider
variable {W α : Type} (provider : Provider W)

def observe (call : Call) (m : Async Rejection W α) : Async Rejection (Observed W) α := fun s =>
  ((m s.turn.world).1,
    ⟨(m s.turn.world).2, s.turn.environment, s.calls ++ [(call, provider.store s.turn.world)]⟩)

def observed : StorageService (Observed W) where
  upload options := provider.observe (.upload options) (provider.service.upload options)
  head key bucket := provider.observe (.head key bucket) (provider.service.head key bucket)
  download options := provider.observe (.download options) (provider.service.download options)
  list options := provider.observe (.list options) (provider.service.list options)
  delete key bucket := provider.observe (.delete key bucket) (provider.service.delete key bucket)
  deleteMany keys := provider.observe (.deleteMany keys) (provider.service.deleteMany keys)
  copy options := provider.observe (.copy options) (provider.service.copy options)

/-- Nobody else writes: the call runs in the world as it is. -/
theorem observe_alone {call : Call} {m : Async Rejection W α} {s : Observed W} (h : s.environment = []) :
    provider.observe call m s =
      ((m s.world).1, ⟨(m s.world).2, [], s.calls ++ [(call, provider.store s.world)]⟩) := by
  obtain ⟨w, environment, calls⟩ := s
  subst h
  rfl

/-- The environment writes first: the call runs in the world it leaves. -/
theorem observe_turn {call : Call} {m : Async Rejection W α} {w w' : W} {act : W → W} {rest : List (W → W)}
    {calls : List (Call × Store)} {result : Except Rejection α} (h : m (act w) = (result, w')) :
    provider.observe call m ⟨w, act :: rest, calls⟩ =
      (result, ⟨w', rest, calls ++ [(call, provider.store (act w))]⟩) := by
  rw [observe, Observed.turn_cons, h]

end Provider

/-- The calls that a run makes of the library, alone with the store. -/
def callsOf {W α : Type} (provider : Provider W) (m : StorageService (Observed W) → Async Rejection (Observed W) α)
    (w : W) : List Call :=
  ((m provider.observed ⟨w, [], []⟩).2.calls).map Prod.fst

end NestStorageExample.Storage
