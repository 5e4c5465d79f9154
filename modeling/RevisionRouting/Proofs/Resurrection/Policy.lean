import RevisionRouting.Decision.Basic
import RevisionRouting.Proofs.Routing.Staleness
import RevisionRouting.Proofs.Settings.Validation

/-!
# What a policy promises

A policy asks four things of its fields (`Policy.Requirement`). Fields that meet them all
make a policy, and others are refused for the first that they do not meet.

However it was come by, a policy keeps what it promises (`Policy.Sound`): its window is not
negative, the seconds that it is asked for are all of its time to live, and a
resurrected document goes to one channel that has a name and stays there for a second at
least. Built-in policies are made without being looked at; they promise the same since no
value of the type does without the four conditions. What has to be shown is that nothing
is lost on the way to seconds (`Policy.ttlSeconds_mul`).
-/

namespace RevisionRouting.Policy

variable {window ttl : Int64} {channel : String}

/-! ### Requirements -/

/-- What a policy asks of its fields. -/
inductive Requirement where
  | windowPositive
  | channelNamed
  | ttlPositive
  | ttlWhole
  deriving DecidableEq, Repr

namespace Requirement

/-- The place of a requirement in the order in which they are looked at. -/
def place : Requirement → Nat
  | windowPositive => 0
  | channelNamed => 1
  | ttlPositive => 2
  | ttlWhole => 3

/-- Whether fields meet a requirement. -/
def IsMet (window : Int64) (channel : String) (ttl : Int64) : Requirement → Prop
  | windowPositive => 0 < window.toInt
  | channelNamed => ∃ c ∈ channel.toList, Text.isBlank c = false
  | ttlPositive => 0 < ttl.toInt
  | ttlWhole => 1000000 ∣ ttl.toInt

/-- The sentence that fields are refused with, their durations cut toward zero. -/
def refusal (window ttl : Int64) : Requirement → String
  | windowPositive => "Invalid resurrection policy: window must be positive, got " ++
      toString (window.toInt.tdiv 1000) ++ "ms"
  | channelNamed => "Invalid resurrection policy: soft delete channel must not be empty"
  | ttlPositive => "Invalid resurrection policy: soft delete ttl must be positive, got " ++
      toString (ttl.toInt.tdiv 1000000) ++ "s"
  | ttlWhole => "Invalid resurrection policy: soft delete ttl must be a whole number of seconds"

/-- A requirement is the first that is not met. -/
structure FirstUnmet (window : Int64) (channel : String) (ttl : Int64) (r : Requirement) :
    Prop where
  unmet : ¬ r.IsMet window channel ttl
  met_before : ∀ q : Requirement, q.place < r.place → q.IsMet window channel ttl

/-- Where a requirement is not met, one is the first. -/
theorem exists_firstUnmet {r : Requirement} (h : ¬ r.IsMet window channel ttl) :
    ∃ r, FirstUnmet window channel ttl r := by
  -- of the requirements that are not met, one has the least place
  obtain ⟨r, hr, hmin⟩ :=
    (measure place).wf.has_min {r | ¬ r.IsMet window channel ttl} ⟨r, h⟩
  refine ⟨r, hr, fun q hq => ?_⟩
  by_contra hunmet
  exact hmin q hunmet hq

end Requirement

/-! ### Verdicts -/

theorem ofMicros_of_met (h : ∀ r : Requirement, r.IsMet window channel ttl) :
    ∃ p, ofMicros window channel ttl = .ok p := by
  -- the requirements are the four proofs that a policy carries
  let p : Policy :=
    { window, channel, ttl
      window_pos := h .windowPositive
      channel_named := Text.isBlankText_eq_false_iff.2 (h .channelNamed)
      ttl_pos := h .ttlPositive
      ttl_whole := h .ttlWhole }
  exact ⟨p, ofMicros_eq_ok p⟩

theorem met_of_ofMicros {p : Policy} (h : ofMicros window channel ttl = .ok p)
    (r : Requirement) : r.IsMet window channel ttl := by
  -- conversely, a policy that was made of the fields has them and the four proofs about them
  obtain ⟨rfl, rfl, rfl⟩ := ofMicros_eq_ok_iff.1 h
  cases r with
  | windowPositive => exact p.window_pos
  | channelNamed => exact Text.isBlankText_eq_false_iff.1 p.channel_named
  | ttlPositive => exact p.ttl_pos
  | ttlWhole => exact p.ttl_whole

/-- The fault that reports a requirement which is not met. -/
def Requirement.fault (window ttl : Int64) : Requirement → PolicyFault
  | windowPositive => .windowNotPositive (millisOf window)
  | channelNamed => .channelBlank
  | ttlPositive => .ttlNotPositive (secondsOf ttl)
  | ttlWhole => .ttlNotWhole

theorem Requirement.message_fault (window ttl : Int64) (r : Requirement) :
    (r.fault window ttl).message = r.refusal window ttl := by
  -- where the message gives a duration, the sentence is put together from the left
  cases r with
  | windowPositive =>
    show "Invalid resurrection policy: " ++
      ("window must be positive, got " ++ toString (millisOf window) ++ "ms") = _
    rw [← String.append_assoc, ← String.append_assoc]
    rfl
  | ttlPositive =>
    show "Invalid resurrection policy: " ++
      ("soft delete ttl must be positive, got " ++ toString (secondsOf ttl) ++ "s") = _
    rw [← String.append_assoc, ← String.append_assoc]
    rfl
  | channelNamed => rfl
  | ttlWhole => rfl

/-- Fields are refused for the first requirement that they do not meet. -/
theorem ofMicros_of_firstUnmet {r : Requirement} (h : r.FirstUnmet window channel ttl) :
    ofMicros window channel ttl = .error (r.fault window ttl) := by
  have hunmet := h.unmet
  cases r with
  | windowPositive => exact ofMicros_of_window_le (Int.not_lt.1 hunmet)
  | channelNamed =>
    -- a requirement is looked at after those before it, so these are met
    have hwindow := h.met_before .windowPositive (by decide)
    have hblank : Text.isBlankText channel = true := by
      by_contra hnamed
      exact hunmet (Text.isBlankText_eq_false_iff.1 (Bool.of_not_eq_true hnamed))
    exact ofMicros_of_blank hwindow hblank
  | ttlPositive =>
    have hwindow := h.met_before .windowPositive (by decide)
    have hnamed := h.met_before .channelNamed (by decide)
    exact ofMicros_of_ttl_le hwindow (Text.isBlankText_eq_false_iff.2 hnamed)
      (Int.not_lt.1 hunmet)
  | ttlWhole =>
    have hwindow := h.met_before .windowPositive (by decide)
    have hnamed := h.met_before .channelNamed (by decide)
    have httl := h.met_before .ttlPositive (by decide)
    exact ofMicros_of_fraction hwindow (Text.isBlankText_eq_false_iff.2 hnamed) httl hunmet

/-- No other fields are refused. -/
theorem exists_firstUnmet_of_error {f : PolicyFault} (h : ofMicros window channel ttl = .error f) :
    ∃ r : Requirement, r.FirstUnmet window channel ttl ∧ r.fault window ttl = f := by
  -- fields that meet all requirements are not refused
  have hunmet : ∃ r : Requirement, ¬ r.IsMet window channel ttl := by
    by_contra hmet
    push Not at hmet
    obtain ⟨p, hp⟩ := ofMicros_of_met hmet
    rw [hp] at h
    cases h
  obtain ⟨r, hr⟩ := hunmet
  obtain ⟨r, hfirst⟩ := Requirement.exists_firstUnmet hr
  -- the fault of that requirement is the one that was reported, as there is only one
  rw [ofMicros_of_firstUnmet hfirst] at h
  exact ⟨r, hfirst, Except.error.inj h⟩

/-! ### Promises -/

/-- What a policy promises. -/
structure Sound (p : Policy) : Prop where
  window_nonneg : 0 ≤ p.windowMillis
  /-- Nothing of the time to live is lost in seconds. -/
  ttl_exact : (p.ttlSeconds.toNat : Int) * 1000000 = p.ttl.toInt
  ttl_lasting : 1 ≤ p.ttlSeconds.toNat
  /-- A resurrected document goes to one channel, whose name is not blank. -/
  routed : ∃ name, (Decision.softDelete p).channels.names = [name] ∧
    ∃ c ∈ name.toList, Text.isBlank c = false
  /-- A resurrected document expires, and not at once. -/
  expires : ∃ seconds, (Decision.softDelete p).expiry = some (.relative seconds) ∧
    1 ≤ seconds.toNat

theorem one_le_ttlSeconds (p : Policy) : 1 ≤ p.ttlSeconds.toNat := by
  have hpos := p.ttl_pos
  have hmul := p.ttlSeconds_mul
  omega

/-- **Every policy keeps its promises.** -/
theorem sound (p : Policy) : p.Sound where
  window_nonneg := p.windowMillis_nonneg
  ttl_exact := p.ttlSeconds_mul
  ttl_lasting := p.one_le_ttlSeconds
  routed := ⟨p.channel, rfl, Text.isBlankText_eq_false_iff.1 p.channel_named⟩
  expires := ⟨p.ttlSeconds, rfl, p.one_le_ttlSeconds⟩

/-- **The fields that make a policy, and what every policy keeps.** There is a policy with given
fields if the window is positive, the channel has a character that is no blank, and the time to live
is positive and a whole number of seconds. Where there is none, the message is that of the first of
these requirements that is not met. A policy has the fields it was made of, cut toward zero to
milliseconds and to seconds, and keeps its promises; so do the policies of settings that make sense,
which always have one, and the built-in policies. -/
theorem ofMicros_ok_iff_met_and_sound (window : Int64) (channel : String) (ttl : Int64) :
    ((∃ p, ofMicros window channel ttl = .ok p) ↔
      0 < window.toInt ∧ (∃ c ∈ channel.toList, Text.isBlank c = false) ∧
        0 < ttl.toInt ∧ 1000000 ∣ ttl.toInt) ∧
    (∀ message, (∃ f, ofMicros window channel ttl = .error f ∧ f.message = message) ↔
      ∃ r : Requirement, r.FirstUnmet window channel ttl ∧ r.refusal window ttl = message) ∧
    (∀ p, ofMicros window channel ttl = .ok p → p.Sound ∧
      p.windowMillis = window.toInt.tdiv 1000 ∧ p.channel = channel ∧
        (p.ttlSeconds.toNat : Int) * 1000000 = ttl.toInt) ∧
    (∀ text s, Settings.load text = .ok s → ∃ p, s.policy = .ok p ∧ p.Sound) ∧
    ∀ profile : Profile, profile.policy.Sound := by
  -- the two directions of each equivalence, then the three kinds of policy
  refine ⟨⟨fun ⟨p, h⟩ => ?_, fun ⟨hw, hc, ht, hs⟩ => ?_⟩, fun message => ⟨?_, ?_⟩, fun p h => ?_,
    fun text s h => ?_, fun profile => sound _⟩
  · exact ⟨met_of_ofMicros h .windowPositive, met_of_ofMicros h .channelNamed,
      met_of_ofMicros h .ttlPositive, met_of_ofMicros h .ttlWhole⟩
  · exact ofMicros_of_met fun r => by cases r <;> assumption
  · rintro ⟨f, h, rfl⟩
    obtain ⟨r, hr, rfl⟩ := exists_firstUnmet_of_error h
    exact ⟨r, hr, (r.message_fault window ttl).symm⟩
  · rintro ⟨r, hr, rfl⟩
    exact ⟨r.fault window ttl, ofMicros_of_firstUnmet hr, r.message_fault window ttl⟩
  · -- a policy has just the fields that it was made of
    obtain ⟨rfl, rfl, rfl⟩ := ofMicros_eq_ok_iff.1 h
    exact ⟨p.sound, rfl, rfl, p.ttlSeconds_mul⟩
  · obtain ⟨-, hacceptable⟩ := Settings.load_eq_ok_iff.1 h
    obtain ⟨p, hp, -⟩ := Settings.exists_policy hacceptable
    exact ⟨p, hp, p.sound⟩

end RevisionRouting.Policy
