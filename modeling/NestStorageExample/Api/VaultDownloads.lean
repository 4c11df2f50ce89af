import NestStorageExample.Api.RequestAcceptance
import NestStorageExample.Numbers.Double
import NestStorageExample.Storage.BufferedDownload
import NestStorageExample.Text.Base64

/-! The two downloads that go into a JSON body: the preview, guarded by the size that `head`
reports, and the byte range, guarded by the size its encoding will have. -/
namespace NestStorageExample.Api
open Text Effects Storage Numbers
variable {W : Type}

/-- The `error` object in the body of an `HttpException`. -/
structure ErrorEnvelope where
  code : String
  message : JsString
  details : List (String × Rat)
  deriving DecidableEq

inductive VaultRejection where
  | library (rejection : Rejection)
  | badRequest (error : ErrorEnvelope)
  | payloadTooLarge (error : ErrorEnvelope)
  deriving DecidableEq

structure BufferedDownloadResult where
  base64 : JsString
  metadata : ObjectMetadata
  deriving DecidableEq

/-- `${x}`, for a natural number below `2 ^ 54`. -/
def numberText (x : Rat) : JsString := decimal x.num.toNat

namespace VaultService

def maxPreviewBytes : Nat := 10 * 1024 * 1024

def maxRangeBase64Bytes : Nat := 50 * 1024 * 1024

def previewSizeExceeded (size : Nat) : ErrorEnvelope where
  code := "PREVIEW_SIZE_EXCEEDED"
  message := js "Object size " ++ decimal size ++ js " exceeds the 10 MiB preview limit."
  details := [("limit", maxPreviewBytes), ("actual", size)]

def preview (storage : BufferedStorage W) (key : JsString) : Async VaultRejection W BufferedDownloadResult := do
  let headMetadata ← (storage.head key none).mapError .library
  if headMetadata.size > maxPreviewBytes then throw (.payloadTooLarge (previewSizeExceeded headMetadata.size))
  else do
    let download ← (storage.downloadBuffer ⟨key, none, none⟩).mapError .library
    return ⟨base64 download.buffer, download.metadata⟩

def rangeInvalid (start stop : Rat) : ErrorEnvelope where
  code := "RANGE_INVALID"
  message := js "start (" ++ numberText start ++ js ") must be <= end (" ++ numberText stop ++ js ")."
  details := []

def rangeTooLarge (rawBytes base64Bytes : Rat) : ErrorEnvelope where
  code := "RANGE_TOO_LARGE"
  message := js "Requested range (" ++ numberText rawBytes ++ js " bytes, ~" ++ numberText base64Bytes ++
    js " bytes base64) exceeds the " ++ decimal maxRangeBase64Bytes ++ js " byte encoded-response limit."
  details := [("maxBase64Bytes", maxRangeBase64Bytes)]

def downloadRange (storage : BufferedStorage W) (key : JsString) (start stop : Rat) :
    Async VaultRejection W BufferedDownloadResult :=
  if start > stop then throw (.badRequest (rangeInvalid start stop))
  else
    let rawBytes := Double.add (Double.sub stop start) 1
    let base64Bytes := Double.mul (Double.ceil (Double.div rawBytes 3)) 4
    if base64Bytes > maxRangeBase64Bytes then throw (.payloadTooLarge (rangeTooLarge rawBytes base64Bytes))
    else do
      let range := js "bytes=" ++ numberText start ++ hyphen :: numberText stop
      let download ← (storage.downloadBuffer ⟨key, none, some range⟩).mapError .library
      return ⟨base64 download.buffer, download.metadata⟩

/-- The size of a range comes out exact. -/
theorem rawBytes_eq {first last : Nat} (hle : first ≤ last) (hlast : last ≤ 9007199254740991) :
    Double.add (Double.sub last first) 1 = (last - first + 1 : Nat) := by
  rw [Double.sub, Double.add, ← Nat.cast_sub hle, toDouble_natCast (by omega)]
  have hsum : ((last - first : Nat) : Rat) + 1 = (last - first + 1 : Nat) := by push_cast; rfl
  rw [hsum, toDouble_natCast (by omega)]

/-- The estimate is the length of the encoding. -/
theorem base64Bytes_eq {n : Nat} (h : n ≤ 2 ^ 53) :
    Double.mul (Double.ceil (Double.div n 3)) 4 = (4 * ((n + 2) / 3) : Nat) := by
  have hm : (n + 2) / 3 < 2 ^ 53 := by omega
  have hceil : ⌈toDouble (n / 3)⌉ = ((n + 2) / 3 : Nat) :=
    @ceil_toDouble_div n 3 (by norm_num) (by norm_num) h
  rw [Double.div, Double.ceil, Double.mul, hceil]
  generalize (n + 2) / 3 = m at hm ⊢
  have hscaled := @toDouble_scaled m (by rw [abs_of_nonneg] <;> omega) 2
  norm_num at hscaled ⊢
  rw [hscaled, mul_comm]

theorem numberText_natCast (n : Nat) : numberText n = decimal n := by
  rw [numberText, Rat.num_natCast, Int.toNat_natCast]

/-- The guard in whole numbers. -/
theorem downloadRange_natCast (storage : BufferedStorage W) (key : JsString) {first last : Nat}
    (hlast : last ≤ 9007199254740991) : downloadRange storage key first last =
      if last < first then throw (.badRequest (rangeInvalid first last))
      else if maxRangeBase64Bytes < 4 * ((last - first + 1 + 2) / 3) then
        throw (.payloadTooLarge (rangeTooLarge (last - first + 1 : Nat) (4 * ((last - first + 1 + 2) / 3) : Nat)))
      else do
        let download ← (storage.downloadBuffer ⟨key, none, some (rangeHeader first last)⟩).mapError .library
        return ⟨base64 download.buffer, download.metadata⟩ := by
  unfold downloadRange
  by_cases hlt : last < first
  · rw [if_pos hlt, if_pos (by exact_mod_cast hlt)]
  · have hraw := rawBytes_eq (Nat.le_of_not_lt hlt) hlast
    have hbase64 := @base64Bytes_eq (last - first + 1) (by omega)
    rw [if_neg hlt, if_neg (by exact_mod_cast hlt)]
    simp only [hraw, hbase64, gt_iff_lt, Nat.cast_lt, numberText_natCast]
    rfl

end VaultService

variable (provider : BufferedProvider W)

/-- What a run of the range endpoint for the bytes from `first` to `last` has to be, `encoded`
being the length of an encoding of that many bytes. -/
structure RangeGuarded (key : JsString) (first last encoded : Nat) (before : Observed W)
    (run : Except VaultRejection BufferedDownloadResult × Observed W) : Prop where
  invalid : (∃ error, run.1 = .error (.badRequest error) ∧ error.code = "RANGE_INVALID") ↔ last < first
  tooLarge : first ≤ last →
    ((∃ error, run.1 = .error (.payloadTooLarge error) ∧ error.code = "RANGE_TOO_LARGE") ↔ 52428800 < encoded)
  refused : last < first ∨ 52428800 < encoded → run.2 = before
  requested : first ≤ last → encoded ≤ 52428800 → run.2.calls = before.calls ++
    [(.download ⟨key, none, some (rangeHeader first last)⟩, provider.store before.turn.world)]
  returned : ∀ result, run.1 = .ok result → ∃ received metadata after,
    provider.downloadBuffer ⟨key, none, some (rangeHeader first last)⟩ before.turn.world =
      (.ok ⟨received, metadata⟩, after) ∧
    received.length ≤ last - first + 1 ∧ result = ⟨base64 received, metadata⟩ ∧ result.base64.length ≤ 52428800 ∧
    base64Decode result.base64 = received

variable {provider}

section Guard
variable {key : JsString} {first last encoded : Nat} {before : Observed W}

theorem guarded_inverted (hlt : last < first) : RangeGuarded provider key first last encoded before
    (.error (.badRequest (VaultService.rangeInvalid first last)), before) where
  invalid := iff_of_true ⟨_, rfl, rfl⟩ hlt
  tooLarge h := absurd h (Nat.not_le_of_lt hlt)
  refused _ := rfl
  requested h := absurd h (Nat.not_le_of_lt hlt)
  returned _ h := by cases h

theorem guarded_tooLarge (hle : first ≤ last) (hlarge : 52428800 < encoded) (rawBytes base64Bytes : Rat) :
    RangeGuarded provider key first last encoded before
      (.error (.payloadTooLarge (VaultService.rangeTooLarge rawBytes base64Bytes)), before) where
  invalid := iff_of_false (by rintro ⟨_, h, -⟩; cases h) (Nat.not_lt_of_le hle)
  tooLarge _ := iff_of_true ⟨_, rfl, rfl⟩ hlarge
  refused _ := rfl
  requested _ h := absurd h (Nat.not_le_of_lt hlarge)
  returned _ h := by cases h

/-- A range that is let through is turned away by the library alone. -/
theorem guarded_served (hle : first ≤ last) (hsmall : encoded ≤ 52428800)
    {run : Except VaultRejection BufferedDownloadResult × Observed W}
    (hlibrary : ∀ rejection, run.1 = .error rejection → ∃ e, rejection = .library e)
    (hcalls : run.2.calls = before.calls ++
      [(.download ⟨key, none, some (rangeHeader first last)⟩, provider.store before.turn.world)])
    (hreturned : ∀ result, run.1 = .ok result → ∃ received metadata after,
      provider.downloadBuffer ⟨key, none, some (rangeHeader first last)⟩ before.turn.world =
        (.ok ⟨received, metadata⟩, after) ∧
      received.length ≤ last - first + 1 ∧ result = ⟨base64 received, metadata⟩ ∧ result.base64.length ≤ 52428800 ∧
      base64Decode result.base64 = received) : RangeGuarded provider key first last encoded before run where
  invalid := by
    refine iff_of_false ?_ (Nat.not_lt_of_le hle)
    rintro ⟨error, h, -⟩
    obtain ⟨e, he⟩ := hlibrary _ h
    cases he
  tooLarge := by
    intro _
    refine iff_of_false ?_ (Nat.not_lt_of_le hsmall)
    rintro ⟨error, h, -⟩
    obtain ⟨e, he⟩ := hlibrary _ h
    cases he
  refused h := absurd h (by omega)
  requested _ _ := hcalls
  returned := hreturned

/-- The request is made, and what comes back of it is encoded. -/
theorem guarded_requested (hserved : provider.AtMostRequested) (hle : first ≤ last)
    (hencoded : encoded = 4 * ((last - first + 1 + 2) / 3)) (hsmall : encoded ≤ 52428800) :
    RangeGuarded provider key first last encoded before ((do
      let download ← (provider.observedStorage.downloadBuffer
        ⟨key, none, some (rangeHeader first last)⟩).mapError VaultRejection.library
      return ⟨base64 download.buffer, download.metadata⟩ : Async VaultRejection (Observed W) _) before) := by
  have hbound := @hserved key none first last before.turn.world hle
  have hobserved : provider.observedStorage.downloadBuffer ⟨key, none, some (rangeHeader first last)⟩ before =
      provider.observe (.download ⟨key, none, some (rangeHeader first last)⟩)
        (provider.downloadBuffer ⟨key, none, some (rangeHeader first last)⟩) before := rfl
  rw [Provider.observe] at hobserved
  cases hrun : provider.downloadBuffer ⟨key, none, some (rangeHeader first last)⟩ before.turn.world with
  | mk result after =>
    rw [hrun] at hobserved
    cases result with
    | error e =>
      rw [Async.bind_of_error (Async.mapError_of_error hobserved)]
      apply guarded_served hle hsmall
      · rintro _ ⟨rfl⟩
        exact ⟨e, rfl⟩
      · rfl
      · intro _ h
        cases h
    | ok download =>
      rw [Async.bind_of_ok (Async.mapError_of_ok hobserved)]
      have hlength := hbound.of_ok hrun
      apply guarded_served hle hsmall
      · intro _ h
        cases h
      · rfl
      · rintro _ ⟨rfl⟩
        refine ⟨download.buffer, download.metadata, after, hrun, by omega, rfl, ?_, base64Decode_base64 _⟩
        rw [base64_length]
        omega

end Guard

/-- For the offsets that the schema lets through, the guard turns away exactly the inverted
ranges and those whose encoding is over the limit, and asks the store for what is left. -/
theorem range_guard_exact (hserved : provider.AtMostRequested) (key : JsString) {start stop : Rat}
    (hstart : Admitted start) (hstop : Admitted stop) (before : Observed W) :
    ∃ first last : Nat, start = first ∧ stop = last ∧
      ∀ bytes : List Byte, (first ≤ last → bytes.length = last - first + 1) →
        RangeGuarded provider key first last (base64 bytes).length before
          (VaultService.downloadRange provider.observedStorage key start stop before) := by
  obtain ⟨first, rfl, -⟩ := (admitted_iff start).mp hstart
  obtain ⟨last, rfl, hlast⟩ := (admitted_iff stop).mp hstop
  refine ⟨first, last, rfl, rfl, ?_⟩
  intro bytes hbytes
  rw [VaultService.downloadRange_natCast _ _ hlast]
  by_cases hlt : last < first
  · rw [if_pos hlt]
    exact guarded_inverted hlt
  · have hle := Nat.le_of_not_lt hlt
    have hencoded : (base64 bytes).length = 4 * ((last - first + 1 + 2) / 3) := by
      rw [base64_length, hbytes hle]
    have hlimit : VaultService.maxRangeBase64Bytes = 52428800 := rfl
    rw [if_neg hlt, hlimit]
    by_cases hlarge : 52428800 < 4 * ((last - first + 1 + 2) / 3)
    · rw [if_pos hlarge]
      exact guarded_tooLarge hle (by omega) _ _
    · rw [if_neg hlarge]
      exact guarded_requested hserved hle hencoded (by omega)

/-- The largest range that is served. -/
theorem largest_range_requested :
    (VaultService.downloadRange (Memory.bufferedProvider (js "vault")).observedStorage (js "media/a") 0 39321599
      ⟨⟨∅, 0⟩, [], []⟩).2.calls =
      [(.download ⟨js "media/a", none, some (js "bytes=0-39321599")⟩, ∅)] := by
  have hstart : Admitted 0 := (admitted_iff 0).mpr ⟨0, rfl, by decide⟩
  have hstop : Admitted 39321599 := (admitted_iff 39321599).mpr ⟨39321599, rfl, by decide⟩
  obtain ⟨first, last, hfirst, hlast, hguard⟩ := range_guard_exact (Memory.buffered_atMostRequested (js "vault"))
    (js "media/a") hstart hstop ⟨⟨∅, 0⟩, [], []⟩
  obtain rfl : 0 = first := by exact_mod_cast hfirst
  obtain rfl : 39321599 = last := by exact_mod_cast hlast
  have hguarded := hguard (List.replicate 39321600 0) (fun _ => List.length_replicate)
  rw [base64_length, List.length_replicate] at hguarded
  have hheader : js "bytes=0-39321599" = rangeHeader 0 39321599 := by decide
  rw [hheader]
  exact hguarded.requested (by decide) (by decide)

end NestStorageExample.Api
