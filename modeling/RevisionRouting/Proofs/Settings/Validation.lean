import Mathlib.Algebra.Group.Nat.Defs
import Mathlib.Order.WellFounded
import RevisionRouting.Proofs.Json.Progress
import RevisionRouting.Proofs.Report.Severity
import RevisionRouting.Settings

/-!
# Which settings make sense

Settings make sense if they are `Acceptable`. Nothing else is asked of a text that
stands for settings, and once they have been loaded neither their policy nor their
severity can fail (`load_ok_iff_acceptable`). The policy then has the fields that were chosen, and
those of the profile for the others.

What can be wrong is listed as `Complaint`, in the order in which it is looked for,
and settings that give cause for several are refused for the first. That order is
not the order of the fields: a duration is compared with its limit before it is
turned into microseconds, and the policy is made of the results. So no product
wraps (`micros_toInt`), and of a zero window and a time to live beyond its
limit the second is reported.
-/

namespace RevisionRouting

/-! ### Policies from fields -/

namespace Policy

variable {window ttl : Int64} {channel : String}

/-- The fields of a policy make it up again. -/
theorem ofMicros_eq_ok (p : Policy) : ofMicros p.window p.channel p.ttl = .ok p := by
  -- the four proofs of the policy are what its fields are asked for
  obtain ⟨window, channel, ttl, hw, hc, ht, hs⟩ := p
  dsimp only
  rw [ofMicros, dif_pos hw]
  split
  · next hblank => exact absurd (hc.symm.trans hblank) (by decide)
  · rw [dif_pos ht, dif_pos hs]

/-- A policy is known by its durations and its channel. -/
theorem eq_of_toInt {p q : Policy} (hwindow : p.window.toInt = q.window.toInt)
    (hchannel : p.channel = q.channel) (httl : p.ttl.toInt = q.ttl.toInt) : p = q := by
  have hw : p.window = q.window := Int64.toInt_inj.1 hwindow
  have ht : p.ttl = q.ttl := Int64.toInt_inj.1 httl
  cases p
  cases q
  rw [Policy.mk.injEq]
  exact ⟨hw, hchannel, ht⟩

/-- A policy that is made of fields has these fields. -/
theorem ofMicros_eq_ok_iff {p : Policy} :
    ofMicros window channel ttl = .ok p ↔
      p.window = window ∧ p.channel = channel ∧ p.ttl = ttl := by
  constructor
  · intro h
    -- only where all four conditions hold is there a policy
    rw [ofMicros] at h
    split at h
    · split at h
      · cases h
      · split at h
        · split at h
          · cases h
            exact ⟨rfl, rfl, rfl⟩
          · cases h
        · cases h
    · cases h
  · rintro ⟨rfl, rfl, rfl⟩
    exact ofMicros_eq_ok p

theorem ofMicros_of_window_le (h : window.toInt ≤ 0) :
    ofMicros window channel ttl = .error (.windowNotPositive (millisOf window)) := by
  rw [ofMicros, dif_neg (Int.not_lt.2 h)]

theorem ofMicros_of_blank (hw : 0 < window.toInt) (hc : Text.isBlankText channel = true) :
    ofMicros window channel ttl = .error .channelBlank := by
  rw [ofMicros, dif_pos hw]
  split
  · rfl
  · next hnamed => exact absurd (hc.symm.trans hnamed) (by decide)

theorem ofMicros_of_ttl_le (hw : 0 < window.toInt) (hc : Text.isBlankText channel = false)
    (ht : ttl.toInt ≤ 0) :
    ofMicros window channel ttl = .error (.ttlNotPositive (secondsOf ttl)) := by
  rw [ofMicros, dif_pos hw]
  split
  · next hblank => exact absurd (hc.symm.trans hblank) (by decide)
  · rw [dif_neg (Int.not_lt.2 ht)]

theorem ofMicros_of_fraction (hw : 0 < window.toInt) (hc : Text.isBlankText channel = false)
    (ht : 0 < ttl.toInt) (hs : ¬ 1000000 ∣ ttl.toInt) :
    ofMicros window channel ttl = .error .ttlNotWhole := by
  rw [ofMicros, dif_pos hw]
  split
  · next hblank => exact absurd (hc.symm.trans hblank) (by decide)
  · rw [dif_pos ht, dif_neg hs]

end Policy

namespace Settings

/-! ### Durations -/

/-- A duration in microseconds as a number, which cannot wrap. -/
def exactMicros (unit : Nat) (default : Int64) : Option UInt64 → Int
  | some value => value.toNat * unit
  | none => default.toInt

/-- The window in microseconds, as a number that cannot wrap. -/
def windowMicros (s : Settings) : Int := exactMicros 1000 s.profile.policy.window s.windowMillis

/-- The time to live in microseconds, as a number that cannot wrap. -/
def ttlMicros (s : Settings) : Int := exactMicros 1000000 s.profile.policy.ttl s.ttlSeconds

section Durations

variable {field : String} {limit unit : Nat} {default d : Int64} {chosen : Option UInt64}

/-- A duration within its limit is turned into microseconds, and none are lost. -/
theorem micros_of_not (hfits : limit * unit < 2 ^ 63)
    (h : ¬ ∃ value ∈ chosen, limit < value.toNat) :
    ∃ d, micros field limit unit default chosen = .ok d ∧
      d.toInt = exactMicros unit default chosen := by
  cases chosen with
  | none => exact ⟨default, rfl, rfl⟩
  | some value =>
    have hlimit : value.toNat ≤ limit := Nat.not_lt.1 fun hlt => h ⟨value, rfl, hlt⟩
    -- the product is no greater than the limit's, which fits
    have hle : value.toNat * unit ≤ limit * unit := Nat.mul_le_mul_right unit hlimit
    refine ⟨_, if_pos hlimit, ?_⟩
    rw [Int64.toInt_ofNat_of_lt (Nat.lt_of_le_of_lt hle hfits), Int.natCast_mul, exactMicros]

theorem micros_of_complaint (h : ∃ value ∈ chosen, limit < value.toNat) :
    micros field limit unit default chosen =
      .error (.tooLarge field (chosen.getD 0) limit) := by
  obtain ⟨value, hvalue, hlt⟩ := h
  cases hvalue
  exact if_neg (Nat.not_le.2 hlt)

/-- A duration beyond its limit is refused, so none that there is has wrapped. -/
theorem micros_toInt (hfits : limit * unit < 2 ^ 63)
    (h : micros field limit unit default chosen = .ok d) :
    d.toInt = exactMicros unit default chosen := by
  -- beyond the limit there is no result, and within it none are lost
  by_cases hlarge : ∃ value ∈ chosen, limit < value.toNat
  · rw [micros_of_complaint hlarge] at h
    cases h
  · obtain ⟨d', hd', hexact⟩ : ∃ d', micros field limit unit default chosen = .ok d' ∧
        d'.toInt = exactMicros unit default chosen := micros_of_not hfits hlarge
    rw [h] at hd'
    cases hd'
    exact hexact

theorem exactMicros_pos (hunit : 0 < unit) (hdefault : 0 < default.toInt)
    (h : ¬ ∃ value ∈ chosen, value.toNat = 0) : 0 < exactMicros unit default chosen := by
  cases chosen with
  | none => exact hdefault
  | some value =>
    have hpos : 0 < value.toNat := Nat.pos_of_ne_zero fun hzero => h ⟨value, rfl, hzero⟩
    exact Int.mul_pos (Int.natCast_pos.2 hpos) (Int.natCast_pos.2 hunit)

theorem exactMicros_of_zero (h : ∃ value ∈ chosen, value.toNat = 0) :
    exactMicros unit default chosen = 0 := by
  obtain ⟨value, hvalue, hzero⟩ := h
  cases hvalue
  rw [exactMicros, hzero, Int.natCast_zero, Int.zero_mul]

/-- A duration is in its range if it is neither beyond its limit nor zero. -/
theorem forall_range_iff :
    (∀ value ∈ chosen, 1 ≤ value.toNat ∧ value.toNat ≤ limit) ↔
      (¬ ∃ value ∈ chosen, limit < value.toNat) ∧ ¬ ∃ value ∈ chosen, value.toNat = 0 := by
  simp only [not_exists, not_and, Nat.not_lt, ← forall_and]
  exact forall₂_congr fun value _ => by omega

end Durations

/-! ### What can be wrong -/

/-- What settings must be like to make sense. -/
structure Acceptable (s : Settings) : Prop where
  /-- The log level is the name of a severity. -/
  severity : ∃ n ∈ Severity.names, Severity.SameUpToCase s.logLevel n.1
  /-- A window lasts a millisecond at least, and a hundred years at most. -/
  window : ∀ ms ∈ s.windowMillis, 1 ≤ ms.toNat ∧ ms.toNat ≤ 3153600000000
  /-- A channel has a character that is no blank. -/
  channel : ∀ name ∈ s.channel, ∃ c ∈ name.toList, Text.isBlank c = false
  /-- A time to live lasts a second at least, and a hundred years at most. -/
  ttl : ∀ seconds ∈ s.ttlSeconds, 1 ≤ seconds.toNat ∧ seconds.toNat ≤ 3153600000

/-- What can be wrong with settings. -/
inductive Complaint where
  | severity
  | windowTooLarge
  | ttlTooLarge
  | windowZero
  | channelBlank
  | ttlZero
  deriving DecidableEq, Repr

namespace Complaint

/-- The place of a complaint in the order in which they are looked for. -/
def place : Complaint → Nat
  | severity => 0
  | windowTooLarge => 1
  | ttlTooLarge => 2
  | windowZero => 3
  | channelBlank => 4
  | ttlZero => 5

/-- Whether settings give cause for a complaint. -/
def AppliesTo (s : Settings) : Complaint → Prop
  | severity => ∀ n ∈ Severity.names, ¬ Severity.SameUpToCase s.logLevel n.1
  | windowTooLarge => ∃ ms ∈ s.windowMillis, 3153600000000 < ms.toNat
  | ttlTooLarge => ∃ seconds ∈ s.ttlSeconds, 3153600000 < seconds.toNat
  | windowZero => ∃ ms ∈ s.windowMillis, ms.toNat = 0
  | channelBlank => ∃ name ∈ s.channel, ∀ c ∈ name.toList, Text.isBlank c = true
  | ttlZero => ∃ seconds ∈ s.ttlSeconds, seconds.toNat = 0

/-- The fault that reports a complaint. -/
def fault (s : Settings) : Complaint → SettingsFault
  | severity => .unknownSeverity ⟨Severity.lowerCase s.logLevel⟩
  | windowTooLarge => .tooLarge "window_ms" (s.windowMillis.getD 0) 3153600000000
  | ttlTooLarge => .tooLarge "soft_delete_ttl_secs" (s.ttlSeconds.getD 0) 3153600000
  | windowZero => .policy (.windowNotPositive 0)
  | channelBlank => .policy .channelBlank
  | ttlZero => .policy (.ttlNotPositive 0)

/-- A complaint comes first if there is cause for it and for none before it. -/
structure First (s : Settings) (c : Complaint) : Prop where
  applies : c.AppliesTo s
  none_before : ∀ b : Complaint, b.place < c.place → ¬ b.AppliesTo s

end Complaint

variable {s : Settings}

/-- Where there is cause for a complaint, one comes first. -/
theorem exists_first {c : Complaint} (h : c.AppliesTo s) : ∃ c, Complaint.First s c := by
  -- of the complaints that there is cause for, one has the least place
  obtain ⟨c, hc, hmin⟩ := (measure Complaint.place).wf.has_min {c | c.AppliesTo s} ⟨c, h⟩
  exact ⟨c, hc, fun b hb happlies => hmin b happlies hb⟩

/-- Settings make sense if there is no cause for a complaint. -/
theorem acceptable_iff : s.Acceptable ↔ ∀ c : Complaint, ¬ c.AppliesTo s := by
  constructor
  · intro h c hc
    -- a duration out of its range is zero or too large, which are two causes
    have hwindow := forall_range_iff.1 h.window
    have httl := forall_range_iff.1 h.ttl
    cases c with
    | severity =>
      obtain ⟨n, hn, hname⟩ := h.severity
      exact hc n hn hname
    | windowTooLarge => exact hwindow.1 hc
    | ttlTooLarge => exact httl.1 hc
    | windowZero => exact hwindow.2 hc
    | channelBlank =>
      obtain ⟨name, hname, hblank⟩ := hc
      obtain ⟨c, hc, hfilled⟩ := h.channel name hname
      exact absurd ((hblank c hc).symm.trans hfilled) (by decide)
    | ttlZero => exact httl.2 hc
  · intro h
    constructor
    case severity =>
      by_contra hnone
      exact h .severity fun n hn hname => hnone ⟨n, hn, hname⟩
    case window => exact forall_range_iff.2 ⟨h .windowTooLarge, h .windowZero⟩
    case channel =>
      intro name hname
      -- a channel without such a character is blank, which is a cause
      by_contra hnone
      refine h .channelBlank ⟨name, hname, fun c hc => ?_⟩
      by_contra hfilled
      exact hnone ⟨c, hc, Bool.of_not_eq_true hfilled⟩
    case ttl => exact forall_range_iff.2 ⟨h .ttlTooLarge, h .ttlZero⟩

/-! ### The parts of a policy -/

/-- There is a severity, or cause for the complaint that there is none. -/
theorem severity_of_not (h : ¬ Complaint.severity.AppliesTo s) :
    ∃ least, s.severity = .ok least := by
  simp only [Complaint.AppliesTo, not_forall, not_not] at h
  obtain ⟨n, hn, hname⟩ := h
  exact ⟨n.2, Json.mapError_eq_ok_iff.2 (Severity.ofName_of_mem_names hn hname)⟩

theorem severity_of_complaint (h : Complaint.severity.AppliesTo s) :
    s.severity = .error (Complaint.severity.fault s) := by
  rw [severity, Severity.ofName_of_unknown h]
  rfl

theorem windowMicros_pos (h : ¬ Complaint.windowZero.AppliesTo s) : 0 < s.windowMicros :=
  exactMicros_pos (by decide) s.profile.policy.window_pos h

/-- No time to live that can be chosen has a fraction of a second. -/
theorem ttlMicros_whole (s : Settings) : 1000000 ∣ s.ttlMicros := by
  rw [ttlMicros]
  -- a profile has no such fraction, and the seconds that are chosen are whole
  cases s.ttlSeconds with
  | none => exact s.profile.policy.ttl_whole
  | some seconds => exact Int.dvd_mul_left _ _

/-- The channel for resurrected documents. -/
def channelInUse (s : Settings) : String := s.channel.getD s.profile.policy.channel

theorem channelInUse_of_not (h : ¬ Complaint.channelBlank.AppliesTo s) :
    Text.isBlankText s.channelInUse = false := by
  rw [channelInUse]
  cases hname : s.channel with
  | none => exact s.profile.policy.channel_named
  | some name =>
    by_contra hblank
    refine h ⟨name, hname, ?_⟩
    exact List.all_eq_true.1 (Bool.of_not_eq_false hblank)

theorem channelInUse_of_complaint (h : Complaint.channelBlank.AppliesTo s) :
    Text.isBlankText s.channelInUse = true := by
  -- where the channel is given, that of the profile is not looked at
  obtain ⟨name, hname, hblank⟩ := h
  rw [Option.mem_def] at hname
  rw [channelInUse, hname]
  exact List.all_eq_true.2 hblank

/-! ### Policies -/

/-- A policy is the one that is asked for if it has the fields that are. -/
theorem policy_eq_ok_iff {p : Policy} :
    s.policy = .ok p ↔
      s.window = .ok p.window ∧ s.ttl = .ok p.ttl ∧ p.channel = s.channelInUse := by
  rw [policy, Json.bind_eq_ok_iff]
  constructor
  · -- the window, then the time to live, then the policy that is made of both
    rintro ⟨w, hw, h⟩
    obtain ⟨t, ht, h⟩ := Json.bind_eq_ok_iff.1 h
    obtain ⟨rfl, hchannel, rfl⟩ := Policy.ofMicros_eq_ok_iff.1 (Json.mapError_eq_ok_iff.1 h)
    exact ⟨hw, ht, hchannel⟩
  · rintro ⟨hw, ht, hchannel⟩
    refine ⟨_, hw, Json.bind_eq_ok_iff.2 ⟨_, ht, Json.mapError_eq_ok_iff.2 ?_⟩⟩
    exact Policy.ofMicros_eq_ok_iff.2 ⟨rfl, hchannel, rfl⟩

theorem policy_eq_of_parts {w t : Int64} (hw : s.window = .ok w) (ht : s.ttl = .ok t) :
    s.policy = (Policy.ofMicros w s.channelInUse t).mapError .policy := by
  rw [policy, hw]
  change (s.ttl >>= _) = _
  rw [ht]
  rfl

/-- Durations within their limits are all known, and then the policy decides. -/
theorem exists_durations (hwindow : ¬ Complaint.windowTooLarge.AppliesTo s)
    (httl : ¬ Complaint.ttlTooLarge.AppliesTo s) :
    ∃ w t : Int64, w.toInt = s.windowMicros ∧ t.toInt = s.ttlMicros ∧
      s.policy = (Policy.ofMicros w s.channelInUse t).mapError .policy := by
  -- each duration is within its limit, so none of it is lost
  obtain ⟨w, hw, hwindow⟩ : ∃ w, s.window = .ok w ∧ w.toInt = s.windowMicros :=
    micros_of_not (by decide) hwindow
  obtain ⟨t, ht, httl⟩ : ∃ t, s.ttl = .ok t ∧ t.toInt = s.ttlMicros :=
    micros_of_not (by decide) httl
  exact ⟨w, t, hwindow, httl, policy_eq_of_parts hw ht⟩

/-- Settings that make sense have a policy, and none of its durations has wrapped. -/
theorem exists_policy (h : s.Acceptable) : ∃ p, s.policy = .ok p ∧
    p.window.toInt = s.windowMicros ∧ p.channel = s.channelInUse ∧ p.ttl.toInt = s.ttlMicros := by
  rw [acceptable_iff] at h
  obtain ⟨w, t, hwindow, httl, hpolicy⟩ :=
    exists_durations (h .windowTooLarge) (h .ttlTooLarge)
  -- what a policy asks of its fields is what no complaint is left about
  let p : Policy :=
    { window := w
      channel := s.channelInUse
      ttl := t
      window_pos := hwindow ▸ windowMicros_pos (h .windowZero)
      channel_named := channelInUse_of_not (h .channelBlank)
      ttl_pos := httl ▸ exactMicros_pos (by decide) s.profile.policy.ttl_pos (h .ttlZero)
      ttl_whole := httl ▸ ttlMicros_whole s }
  refine ⟨p, ?_, hwindow, rfl, httl⟩
  rw [hpolicy, Policy.ofMicros_eq_ok p]
  rfl

/-- The window of a policy in the unit in which it is chosen. -/
theorem windowMillis_of_micros {p : Policy} (h : p.window.toInt = s.windowMicros) :
    p.windowMillis =
      (s.windowMillis.map fun ms => (ms.toNat : Int)).getD s.profile.policy.windowMillis := by
  rw [Policy.windowMillis, Policy.millisOf, h, windowMicros]
  cases s.windowMillis with
  | none => rfl
  | some ms => exact Int.mul_tdiv_cancel _ (by decide)

/-- The time to live of a policy in the unit in which it is chosen. -/
theorem ttlSeconds_of_micros {p : Policy} (h : p.ttl.toInt = s.ttlMicros) :
    p.ttlSeconds = s.ttlSeconds.getD s.profile.policy.ttlSeconds := by
  rw [Policy.ttlSeconds, Policy.secondsOf, h, ttlMicros]
  cases s.ttlSeconds with
  | none => rfl
  | some seconds =>
    rw [exactMicros]
    change ((seconds.toNat * 1000000 : Int).tdiv 1000000).toNat.toUInt64 = seconds
    rw [Int.mul_tdiv_cancel _ (by decide), Int.toNat_natCast, Nat.toUInt64, UInt64.ofNat_toNat]

/-! ### Verdicts -/

theorem validate_of_acceptable (h : s.Acceptable) : s.validate = .ok () := by
  obtain ⟨least, hseverity⟩ := severity_of_not (acceptable_iff.1 h .severity)
  obtain ⟨p, hpolicy, -⟩ := exists_policy h
  exact Json.bind_eq_ok_iff.2 ⟨least, hseverity, Json.bind_eq_ok_iff.2 ⟨p, hpolicy, rfl⟩⟩

theorem validate_of_policy {f : SettingsFault} (h : ¬ Complaint.severity.AppliesTo s)
    (hpolicy : s.policy = .error f) : s.validate = .error f := by
  obtain ⟨least, hseverity⟩ := severity_of_not h
  rw [validate, hseverity]
  change (s.policy >>= _) = _
  rw [hpolicy]
  rfl

/-- Once both durations are known, what is wrong is found by the policy. -/
theorem validate_of_fields {f : PolicyFault} (hseverity : ¬ Complaint.severity.AppliesTo s)
    (hwindow : ¬ Complaint.windowTooLarge.AppliesTo s)
    (httl : ¬ Complaint.ttlTooLarge.AppliesTo s)
    (hfault : ∀ w t : Int64, w.toInt = s.windowMicros → t.toInt = s.ttlMicros →
      Policy.ofMicros w s.channelInUse t = .error f) : s.validate = .error (.policy f) := by
  obtain ⟨w, t, hw, ht, hpolicy⟩ := exists_durations hwindow httl
  refine validate_of_policy hseverity ?_
  rw [hpolicy, hfault w t hw ht]
  rfl

/-- Settings are refused for the first complaint that there is cause for. -/
theorem validate_of_first {c : Complaint} (h : c.First s) : s.validate = .error (c.fault s) := by
  have hnot (b : Complaint) (hb : b.place < c.place) := h.none_before b hb
  have happlies := h.applies
  -- one case for each complaint, in which those with a lower place are known to be without cause
  cases c with
  | severity =>
    rw [validate, severity_of_complaint happlies]
    rfl
  | windowTooLarge =>
    have hwindow : s.window = .error (Complaint.windowTooLarge.fault s) := micros_of_complaint happlies
    refine validate_of_policy (hnot .severity (by decide)) ?_
    rw [policy, hwindow]
    rfl
  | ttlTooLarge =>
    -- the window is turned into microseconds first, so it has to be within its limit
    obtain ⟨w, hw, -⟩ : ∃ w, s.window = .ok w ∧ w.toInt = s.windowMicros :=
      micros_of_not (by decide) (hnot .windowTooLarge (by decide))
    have httl : s.ttl = .error (Complaint.ttlTooLarge.fault s) := micros_of_complaint happlies
    refine validate_of_policy (hnot .severity (by decide)) ?_
    rw [policy, hw]
    change (s.ttl >>= _) = _
    rw [httl]
    rfl
  | windowZero =>
    refine validate_of_fields (hnot .severity (by decide)) (hnot .windowTooLarge (by decide))
      (hnot .ttlTooLarge (by decide)) fun w t hw ht => ?_
    have hzero : w.toInt = 0 := hw.trans (exactMicros_of_zero happlies)
    rw [Policy.ofMicros_of_window_le hzero.le, Policy.millisOf, hzero]
    rfl
  | channelBlank =>
    -- a policy looks at its channel only once the window is found positive
    refine validate_of_fields (hnot .severity (by decide)) (hnot .windowTooLarge (by decide))
      (hnot .ttlTooLarge (by decide)) fun w t hw ht => ?_
    have hpos := windowMicros_pos (hnot .windowZero (by decide))
    exact Policy.ofMicros_of_blank (hw ▸ hpos) (channelInUse_of_complaint happlies)
  | ttlZero =>
    refine validate_of_fields (hnot .severity (by decide)) (hnot .windowTooLarge (by decide))
      (hnot .ttlTooLarge (by decide)) fun w t hw ht => ?_
    have hpos := windowMicros_pos (hnot .windowZero (by decide))
    have hnamed := channelInUse_of_not (hnot .channelBlank (by decide))
    have hzero : t.toInt = 0 := ht.trans (exactMicros_of_zero happlies)
    rw [Policy.ofMicros_of_ttl_le (hw ▸ hpos) hnamed hzero.le, Policy.secondsOf, hzero]
    rfl

theorem acceptable_of_validate (h : s.validate = .ok ()) : s.Acceptable := by
  refine acceptable_iff.2 fun c hc => ?_
  -- any cause for a complaint would lead to a fault
  obtain ⟨c, hfirst⟩ := exists_first hc
  rw [validate_of_first hfirst] at h
  cases h

theorem load_eq_ok_iff {text : String} :
    load text = .ok s ↔ parse text = .ok s ∧ s.Acceptable := by
  rw [load, Json.bind_eq_ok_iff]
  constructor
  · -- what is loaded has been read and validated
    rintro ⟨s', hs, h⟩
    obtain ⟨u, hvalidate, h⟩ := Json.bind_eq_ok_iff.1 h
    cases h
    have hacceptable := acceptable_of_validate (Json.mapError_eq_ok_iff.1 hvalidate)
    exact ⟨Json.mapError_eq_ok_iff.1 hs, hacceptable⟩
  · rintro ⟨hs, h⟩
    refine ⟨s, Json.mapError_eq_ok_iff.2 hs, Json.bind_eq_ok_iff.2 ⟨(), ?_, rfl⟩⟩
    exact Json.mapError_eq_ok_iff.2 (validate_of_acceptable h)

/-- **The settings that load are those that make sense.** A text is loaded if it stands for such
settings. These have a policy and a severity, the policy with the fields that are chosen and those
of the profile for the others. Settings that make no sense are refused for the first complaint about
them. Where a duration is given in microseconds, it has not wrapped. -/
theorem load_ok_iff_acceptable (text : String) :
    (∀ s : Settings, load text = .ok s ↔ parse text = .ok s ∧ s.Acceptable) ∧
    (∀ s : Settings, s.Acceptable → ∃ p : Policy, ∃ n ∈ Severity.names,
      s.policy = .ok p ∧ s.severity = .ok n.2 ∧ Severity.SameUpToCase s.logLevel n.1 ∧
      p.windowMillis =
        (s.windowMillis.map fun ms => (ms.toNat : Int)).getD s.profile.policy.windowMillis ∧
      p.channel = s.channel.getD s.profile.policy.channel ∧
      p.ttlSeconds = s.ttlSeconds.getD s.profile.policy.ttlSeconds) ∧
    (∀ (s : Settings) (c : Complaint), parse text = .ok s → c.First s →
      load text = .error (.invalid (c.fault s))) ∧
    ∀ s : Settings, (∀ w, s.window = .ok w → w.toInt = s.windowMicros) ∧
      ∀ t, s.ttl = .ok t → t.toInt = s.ttlMicros := by
  refine ⟨fun s => load_eq_ok_iff, fun s h => ?_, fun s c hs h => ?_,
    fun s => ⟨fun w => micros_toInt (by decide), fun t => micros_toInt (by decide)⟩⟩
  · obtain ⟨p, hpolicy, hwindow, hchannel, httl⟩ := exists_policy h
    obtain ⟨n, hn, hname⟩ := h.severity
    have hseverity : s.severity = .ok n.2 :=
      Json.mapError_eq_ok_iff.2 (Severity.ofName_of_mem_names hn hname)
    exact ⟨p, n, hn, hpolicy, hseverity, hname, windowMillis_of_micros hwindow, hchannel,
      ttlSeconds_of_micros httl⟩
  · rw [load, hs]
    change (s.validate.mapError _ >>= _) = _
    rw [validate_of_first h]
    rfl

/-- The window is zero and the time to live beyond its limit: that is reported, as it is looked for
before. -/
example : (load "\x7b\"window_ms\":0,\"soft_delete_ttl_secs\":3153600001\x7d").mapError
    SettingsError.message = .error
      "Invalid configuration: soft_delete_ttl_secs is too large: 3153600001 (max 3153600000)" := by
  rfl

end Settings

end RevisionRouting
