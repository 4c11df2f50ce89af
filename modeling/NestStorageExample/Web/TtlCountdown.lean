import NestStorageExample.Api.SignedUrlExpiry
import NestStorageExample.Dates.IsoTexts
import NestStorageExample.Runs.Guarded

/-! The countdown of a signed URL: an expiry that the API wrote as an ISO text, read back in the
browser and compared with its clock at every tick. -/
namespace NestStorageExample.Web
open Text Dates Numbers Runs Url Api

def colon : CodeUnit := 0x3A

/-- `String(n).padStart(2, '0')` -/
def twoDigits (n : Nat) : JsString := List.replicate (2 - (decimal n).length) 0x30 ++ decimal n

/-- `formatCountdown`; `none` is `NaN`. -/
def formatCountdown (seconds : Option ℚ) : JsString :=
  match seconds with
  | none => js "NaN:NaN"
  | some seconds =>
    let s := (max 0 ⌊seconds⌋).toNat
    let h := ⌊Double.div s 3600⌋.toNat
    let m := ⌊Double.div (s % 3600 : Nat) 60⌋.toNat
    let sec := s % 60
    if h > 0 then twoDigits h ++ colon :: twoDigits m ++ colon :: twoDigits sec
    else twoDigits m ++ colon :: twoDigits sec

/-- `Math.max(0, (expiryMs - Date.now()) / 1000)` -/
def secondsLeft (expiryMs : Option Int) (now : Nat) : Option ℚ :=
  expiryMs.map fun expiry : Int => max 0 (Double.div (Double.sub expiry now) 1000)

/-- The component between two of its events. An interval ticks for the expiry it was set for. -/
structure TtlCountdown where
  expiresAt : JsString
  ttlSeconds : ℚ
  remaining : Option ℚ
  interval : Option (Option Int)

inductive CountdownEvent where
  | render (expiresAt : JsString) (ttlSeconds : ℚ)
  | effect (now : Nat)
  | tick (now : Nat)

namespace TtlCountdown

def mount (expiresAt : JsString) (ttlSeconds : ℚ) (now : Nat) : TtlCountdown :=
  ⟨expiresAt, ttlSeconds, secondsLeft (dateTimeParse expiresAt) now, none⟩

variable (s : TtlCountdown)

def expiryMs : Option Int := dateTimeParse s.expiresAt

/-- The effect depends on `expiryMs`, and runs again where that has changed. -/
def next : CountdownEvent → Option TtlCountdown
  | .render expiresAt ttlSeconds => some { s with expiresAt, ttlSeconds }
  | .effect now =>
    if s.interval = some s.expiryMs then none
    else some { s with remaining := secondsLeft s.expiryMs now, interval := some s.expiryMs }
  | .tick now =>
    match s.interval with
    | none => none
    | some expiry => some { s with remaining := secondsLeft expiry now }

def fraction : Option ℚ :=
  if s.ttlSeconds > 0 then s.remaining.map fun remaining => min 1 (Double.div remaining s.ttlSeconds) else some 0

def isExpired : Prop := ∃ remaining ∈ s.remaining, remaining ≤ 0

instance : Decidable s.isExpired :=
  match h : s.remaining with
  | none => isFalse (by simp [isExpired, h])
  | some remaining => decidable_of_iff (remaining ≤ 0) (by simp [isExpired, h])

def isWarning : Prop := ¬ s.isExpired ∧ ∃ remaining ∈ s.remaining, remaining < 60

def label : JsString := if s.isExpired then js "EXPIRED" else formatCountdown s.remaining

end TtlCountdown

/-- A label read as a number in base 60. -/
def readCountdown (label : JsString) : Nat :=
  (label.splitOn colon).foldl (fun n group => 60 * n + readDecimal group) 0

theorem readDecimal_replicate_zero (n : Nat) (s : JsString) :
    readDecimal (List.replicate n 0x30 ++ s) = readDecimal s := by
  induction n with
  | zero => rfl
  | succ n ih =>
    rw [List.replicate_succ, List.cons_append, ← ih]
    rfl

theorem readDecimal_twoDigits (n : Nat) : readDecimal (twoDigits n) = n := by
  rw [twoDigits, readDecimal_replicate_zero, readDecimal_decimal]

theorem twoDigits_isDigit (n : Nat) : ∀ u ∈ twoDigits n, isDigit u = true := by
  intro u hu
  rcases List.mem_append.mp hu with hu | hu
  · rw [List.eq_of_mem_replicate hu]
    rfl
  · exact decimal_digits n u hu

theorem colon_not_mem_twoDigits (n : Nat) : colon ∉ twoDigits n := by
  intro h
  have hdigit := twoDigits_isDigit n colon h
  cases hdigit

theorem splitOn_twoDigits_cons (n : Nat) (rest : JsString) :
    (twoDigits n ++ colon :: rest).splitOn colon = twoDigits n :: rest.splitOn colon :=
  List.splitOn_append_cons_self_of_not_mem (colon_not_mem_twoDigits n) rest

theorem splitOn_twoDigits (n : Nat) : (twoDigits n).splitOn colon = [twoDigits n] :=
  List.splitOn_eq_singleton (colon_not_mem_twoDigits n)

/-- The groups of a label are hours, minutes and seconds. -/
theorem readCountdown_formatCountdown {seconds : ℚ} (h : ⌊seconds⌋ ≤ 2 ^ 53) :
    readCountdown (formatCountdown (some seconds)) = ⌊seconds⌋.toNat := by
  have hmax : (max 0 ⌊seconds⌋).toNat = ⌊seconds⌋.toNat := by omega
  obtain ⟨s, hs⟩ : ∃ s, ⌊seconds⌋.toNat = s := ⟨_, rfl⟩
  have hhours : ⌊Double.div s 3600⌋ = (s / 3600 : ℕ) :=
    @floor_toDouble_div s 3600 (by decide) (by decide) (by omega)
  have hminutes : ⌊Double.div (s % 3600 : ℕ) 60⌋ = (s % 3600 / 60 : ℕ) :=
    @floor_toDouble_div (s % 3600) 60 (by decide) (by decide) (by omega)
  rw [formatCountdown, hmax, hs, hhours, hminutes, Int.toNat_natCast, Int.toNat_natCast]
  split
  · rw [readCountdown, List.append_assoc, List.cons_append, splitOn_twoDigits_cons, splitOn_twoDigits_cons,
      splitOn_twoDigits]
    simp only [List.foldl_cons, List.foldl_nil, readDecimal_twoDigits]
    omega
  · rw [readCountdown, splitOn_twoDigits_cons, splitOn_twoDigits]
    simp only [List.foldl_cons, List.foldl_nil, readDecimal_twoDigits]
    omega

/-! The computed seconds, and what is asked of them. -/

theorem toDouble_nonpos {x : ℚ} (h : x ≤ 0) : toDouble x ≤ 0 := by
  have hpos := zpow_lastExponent_pos x
  have hround : roundHalfEven (x / 2 ^ lastExponent x) ≤ 0 :=
    roundHalfEven_le (by simpa using div_nonpos_of_nonpos_of_nonneg h hpos.le)
  rw [toDouble]
  exact mul_nonpos_of_nonpos_of_nonneg (by exact_mod_cast hround) hpos.le

theorem toDouble_pos {x : ℚ} (h : 1 / 2 ^ 53 ≤ x) : 0 < toDouble x := by
  have hx : 0 < x := lt_of_lt_of_le (by norm_num) h
  have hlast : -1074 < lastExponent x := by
    have hlog := (Int.zpow_le_iff_le_log (b := 2) (by norm_num) hx (x := -53)).mp (by norm_num at h ⊢; exact h)
    rw [lastExponent, abs_of_pos hx]
    omega
  have hbits := zpow_lastExponent_le hx hlast
  have herror := (abs_le.mp (abs_sub_toDouble x)).2
  have hpos := zpow_lastExponent_pos x
  linarith

section Seconds
variable {t : Int} {now : Nat}

theorem secondsLeft_expired (h : t ≤ now) : secondsLeft (some t) now = some 0 := by
  have hle : (t : ℚ) ≤ now := by exact_mod_cast h
  have hsub : Double.sub t now ≤ 0 := toDouble_nonpos (sub_nonpos.mpr hle)
  have hdiv : Double.div (Double.sub t now) 1000 ≤ 0 :=
    toDouble_nonpos (div_nonpos_of_nonpos_of_nonneg hsub (by norm_num))
  rw [secondsLeft, Option.map_some]
  exact congrArg some (max_eq_left hdiv)

/-- The difference is exact, and the division rounds. -/
theorem secondsLeft_before (ht : t ≤ maxTime) (h : now < t) :
    secondsLeft (some t) now = some (toDouble (((t - now).toNat : ℕ) / (1000 : ℕ))) ∧
      0 < toDouble (((t - now).toNat : ℕ) / (1000 : ℕ)) ∧
      ⌊toDouble (((t - now).toNat : ℕ) / (1000 : ℕ))⌋ = ((t - now).toNat / 1000 : ℕ) := by
  have hmax : maxTime = 8640000000000000 := rfl
  obtain ⟨n, hn⟩ : ∃ n : ℕ, t - now = n := ⟨(t - now).toNat, by omega⟩
  have hn0 : 0 < n := by omega
  have hbound : n ≤ 2 ^ 53 := by omega
  have hsub : Double.sub t now = n := by
    have hcast : (t : ℚ) - now = n := by exact_mod_cast hn
    rw [Double.sub, hcast]
    exact toDouble_natCast hbound
  have hpos : 0 < toDouble ((n : ℚ) / (1000 : ℕ)) := by
    apply toDouble_pos
    rw [le_div_iff₀ (by norm_num)]
    have hone : (1 : ℚ) ≤ n := by exact_mod_cast hn0
    norm_num
    linarith
  rw [hn, Int.toNat_natCast]
  refine ⟨?_, hpos, @floor_toDouble_div n 1000 (by decide) (by decide) hbound⟩
  rw [secondsLeft, Option.map_some, hsub]
  exact congrArg some (max_eq_right hpos.le)

theorem secondsLeft_nonneg {expiry : Option Int} {remaining : ℚ} (h : secondsLeft expiry now = some remaining) :
    0 ≤ remaining := by
  rw [secondsLeft] at h
  obtain ⟨t, -, ht⟩ := Option.map_eq_some_iff.mp h
  rw [← ht]
  exact le_max_left _ _

end Seconds

/-- The clock as an event last read it. -/
def readClock (now : Nat) : CountdownEvent → Nat
  | .render _ _ => now
  | .effect now' => now'
  | .tick now' => now'

namespace TtlCountdown

/-- Where an interval runs, the seconds are those of its expiry and the last reading. -/
def Counts (s : TtlCountdown) (now : Nat) : Prop :=
  ∀ expiry, s.interval = some expiry → s.remaining = secondsLeft expiry now

theorem mount_counts (expiresAt : JsString) (ttlSeconds : ℚ) (now : Nat) :
    (mount expiresAt ttlSeconds now).Counts now := by
  intro expiry h
  cases h

theorem next_counts {s s' : TtlCountdown} {now : Nat} {e : CountdownEvent} (hs : s.Counts now)
    (h : s.next e = some s') : s'.Counts (readClock now e) := by
  cases e with
  | render expiresAt ttlSeconds =>
    cases h
    exact hs
  | effect now' =>
    rw [next] at h
    split at h
    · cases h
    · cases h
      intro expiry hexpiry
      cases hexpiry
      rfl
  | tick now' =>
    cases hinterval : s.interval with
    | none => simp [next, hinterval] at h
    | some expiry =>
      simp only [next, hinterval, Option.some.injEq] at h
      subst h
      intro expiry' h'
      cases h'
      rfl

theorem run_counts {s s' : TtlCountdown} {now : Nat} {events : List CountdownEvent} (hs : s.Counts now)
    (h : run next s events = some s') : s'.Counts (events.foldl readClock now) := by
  induction events generalizing s now with
  | nil =>
    cases h
    exact hs
  | cons e events ih =>
    obtain ⟨s1, h1, hrun⟩ := Option.bind_eq_some_iff.mp h
    exact ih (next_counts hs h1) hrun

section Settled
variable {s : TtlCountdown} {t : Int} {now : Nat} (hs : s.remaining = secondsLeft (some t) now)
  (ht : t ≤ maxTime)
include hs ht

theorem isExpired_iff : s.isExpired ↔ t ≤ now := by
  constructor
  · intro h
    by_contra hbefore
    obtain ⟨hleft, hpos, -⟩ := secondsLeft_before ht (not_le.mp hbefore)
    obtain ⟨remaining, hremaining, hle⟩ := h
    rw [hs, hleft, Option.mem_some_iff] at hremaining
    rw [← hremaining] at hle
    exact hle.not_gt hpos
  · intro h
    exact ⟨0, by rw [hs, secondsLeft_expired h]; rfl, le_rfl⟩

theorem label_reads (h : now < t) : readCountdown s.label = (t - now).toNat / 1000 := by
  obtain ⟨hleft, -, hfloor⟩ := secondsLeft_before ht h
  have hmax : maxTime = 8640000000000000 := rfl
  rw [label, if_neg (by rw [isExpired_iff hs ht]; omega), hs, hleft, readCountdown_formatCountdown, hfloor,
    Int.toNat_natCast]
  rw [hfloor]
  omega

theorem isWarning_iff : s.isWarning ↔ now < t ∧ t < now + 60000 := by
  rw [isWarning, isExpired_iff hs ht, not_le]
  apply and_congr_right
  intro h
  obtain ⟨hleft, -, hfloor⟩ := secondsLeft_before ht h
  have hlt := @Int.floor_lt ℚ _ _ _ 60 (toDouble (((t - now).toNat : ℕ) / (1000 : ℕ)))
  rw [hfloor] at hlt
  rw [hs, hleft]
  simp only [Option.mem_some_iff, exists_eq_left']
  constructor
  · intro hless
    have := hlt.mpr (by exact_mod_cast hless)
    omega
  · intro hless
    exact_mod_cast hlt.mp (by omega)

omit ht in
theorem fraction_bounds : ∃ fraction, s.fraction = some fraction ∧ 0 ≤ fraction ∧ fraction ≤ 1 := by
  rw [fraction]
  split
  · rename_i httl
    obtain ⟨remaining, hremaining⟩ : ∃ remaining, s.remaining = some remaining := by
      rw [hs]
      exact ⟨_, rfl⟩
    have hnonneg := secondsLeft_nonneg (hs.symm.trans hremaining)
    have hdiv : ((0 : ℕ) : ℚ) ≤ Double.div remaining s.ttlSeconds :=
      le_toDouble (by decide) (by simpa using div_nonneg hnonneg httl.le)
    rw [hremaining]
    exact ⟨_, rfl, le_min zero_le_one (by simpa using hdiv), min_le_left _ _⟩
  · exact ⟨0, rfl, le_rfl, zero_le_one⟩

end Settled

theorem expiry_range {α : Type} {hosts : Hosts α} {url : JsString} {t : Int} {seconds : ℚ}
    (h : readSignedUrlExpiry hosts url = .ok ⟨some t, seconds⟩) : -maxTime ≤ t ∧ t ≤ maxTime := by
  rw [readSignedUrlExpiry] at h
  split at h
  · rw [readExpiry] at h
    split at h
    · split at h
      · injection h with hexpiry
        injection hexpiry with hdate
        exact ⟨neg_maxTime_le_of_newDate hdate, le_maxTime_of_newDate hdate⟩
      · cases h
    · cases h
  · cases h

/-- The instant at which the browser sees a URL expire is the one that the API read out of it. -/
theorem expiry_shared {α : Type} {hosts : Hosts α} {options : SignedOptions} {requested : ℚ} {url : JsString}
    {view : TtlView} (h : SignedService.buildTtlView hosts options requested url = .ok view) :
    ∃ t, readSignedUrlExpiry hosts url = .ok ⟨some t, view.effectiveTtlSeconds⟩ ∧ t ≤ maxTime ∧
      dateTimeParse view.expiresAt = some t := by
  cases hread : readSignedUrlExpiry hosts url with
  | error e =>
    rw [SignedService.buildTtlView, hread] at h
    cases h
  | ok expiry =>
    obtain ⟨_ | t, seconds⟩ := expiry
    · rw [SignedService.buildTtlView, hread] at h
      cases h
    · rw [SignedService.buildTtlView, hread] at h
      cases h
      have hrange := expiry_range hread
      exact ⟨t, rfl, hrange.2, dateTimeParse_isoText hrange⟩

/-- However the page is rendered and whenever its clock ticks: at its last reading the settled
countdown of a URL shows it as expired from the expiry on that the API read in the URL, before
that the whole seconds that are left, and in red the last minute. -/
theorem countdown_exact {α : Type} {hosts : Hosts α} {options : SignedOptions} {requested ttlSeconds : ℚ}
    {url expiresAt : JsString} {view : TtlView} {s : TtlCountdown} {now : Nat} {events : List CountdownEvent}
    (hview : SignedService.buildTtlView hosts options requested url = .ok view)
    (hrun : run next (mount expiresAt ttlSeconds now) events = some s) (hshown : s.expiresAt = view.expiresAt)
    (hsettled : s.interval = some s.expiryMs) :
    let clock := events.foldl readClock now
    ∃ t, readSignedUrlExpiry hosts url = .ok ⟨some t, view.effectiveTtlSeconds⟩ ∧
      (t ≤ clock → s.label = js "EXPIRED") ∧ (clock < t → readCountdown s.label = (t - clock).toNat / 1000) ∧
      (s.isExpired ↔ t ≤ clock) ∧ (s.isWarning ↔ clock < t ∧ t < clock + 60000) ∧
      ∃ fraction, s.fraction = some fraction ∧ 0 ≤ fraction ∧ fraction ≤ 1 := by
  intro clock
  obtain ⟨t, hread, ht, hparse⟩ := expiry_shared hview
  have hexpiry : s.expiryMs = some t := by rw [expiryMs, hshown, hparse]
  have hcounts : s.remaining = secondsLeft (some t) clock :=
    run_counts (mount_counts expiresAt ttlSeconds now) hrun (some t) (by rw [hsettled, hexpiry])
  have hexpired := isExpired_iff hcounts ht
  refine ⟨t, hread, ?_, label_reads hcounts ht, hexpired, isWarning_iff hcounts ht, fraction_bounds hcounts⟩
  intro h
  rw [label, if_pos (hexpired.mpr h)]

/-- A presigned URL of 7 July 2026, 10:00, for five minutes. -/
def briefUrl : JsString := js "https://minio.local/vault/key?X-Amz-Date=20260707T100000Z&X-Amz-Expires=300"

theorem briefUrl_signed : SignedWith plainHosts briefUrl 1783418400 300 := by
  have hparams : (parse plainHosts briefUrl).map UrlRecord.searchParams =
      some [(amzDateName, basicText (dateTimeOf 1783418400)), (amzExpiresName, decimal 300)] := by
    decide +kernel
  obtain ⟨record, hrecord, hpairs⟩ := Option.map_eq_some_iff.mp hparams
  refine ⟨⟨by decide +kernel, by decide +kernel⟩, ⟨record, hrecord, ?_⟩, ⟨record, hrecord, ?_⟩⟩
  · rw [hpairs]
    decide +kernel
  · rw [hpairs]
    decide +kernel

/-- A countdown set at ten o'clock, ten seconds before its end. -/
theorem last_seconds_warn : ∃ view s,
    SignedService.buildTtlView plainHosts ⟨⟨300, 300, 3600⟩, none⟩ 300 briefUrl = .ok view ∧
      run next (mount view.expiresAt 300 1783418400000) [.effect 1783418400000, .tick 1783418690000] = some s ∧
      s.isWarning ∧ readCountdown s.label = 10 := by
  obtain ⟨view, hview, -⟩ := buildTtlView_tells (briefUrl_signed.read (by decide)) ⟨⟨300, 300, 3600⟩, none⟩ 300
  let last : TtlCountdown := ⟨view.expiresAt, 300, secondsLeft (dateTimeParse view.expiresAt) 1783418690000,
    some (dateTimeParse view.expiresAt)⟩
  have hfirst : (mount view.expiresAt 300 1783418400000).interval ≠
      some (mount view.expiresAt 300 1783418400000).expiryMs := by
    intro h
    cases h
  have hrun : run next (mount view.expiresAt 300 1783418400000)
      [.effect 1783418400000, .tick 1783418690000] = some last := by
    simp only [run, next]
    rw [if_neg hfirst]
    rfl
  obtain ⟨t, hread, -, hlabel, -, hwarning, -⟩ := countdown_exact hview hrun rfl rfl
  rw [briefUrl_signed.read (by decide), Except.ok.injEq, SignedExpiry.mk.injEq, Option.some.injEq] at hread
  obtain ⟨rfl, -⟩ := hread
  exact ⟨view, last, hview, hrun, hwarning.mpr ⟨by decide, by decide⟩, hlabel (by decide)⟩

end TtlCountdown

end NestStorageExample.Web
