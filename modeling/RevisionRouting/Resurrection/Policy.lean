import RevisionRouting.Text.Character

/-!
# Resurrection policies

A policy says from what age on a document without a prior revision counts as a
resurrection, and to which channel and for how long such a document goes.
Durations are counted in microseconds; coarser units cut toward zero.

`Policy.ofMicros` refuses durations that are not positive, a channel without a
name, and a time to live with a fraction of a second, in this order. So a policy's
time to live is never cut: `ttlSeconds` seconds are all of it.
-/

namespace RevisionRouting

/-- When a document counts as resurrected, and what is then done with it. -/
structure Policy where
  /-- The age, in microseconds, that a resurrected document exceeds. -/
  window : Int64
  /-- The channel for resurrected documents. -/
  channel : String
  /-- How long a resurrected document is kept, in microseconds. -/
  ttl : Int64
  window_pos : 0 < window.toInt
  channel_named : Text.isBlankText channel = false
  ttl_pos : 0 < ttl.toInt
  /-- The time to live is a whole number of seconds. -/
  ttl_whole : 1000000 ∣ ttl.toInt
  deriving DecidableEq

/-- Why there is no policy with the given fields. -/
inductive PolicyFault where
  | windowNotPositive (millis : Int)
  | channelBlank
  | ttlNotPositive (seconds : Int)
  | ttlNotWhole
  deriving DecidableEq, Repr

namespace PolicyFault

/-- What is wrong with the policy. -/
def reason : PolicyFault → String
  | windowNotPositive millis => "window must be positive, got " ++ toString millis ++ "ms"
  | channelBlank => "soft delete channel must not be empty"
  | ttlNotPositive seconds => "soft delete ttl must be positive, got " ++ toString seconds ++ "s"
  | ttlNotWhole => "soft delete ttl must be a whole number of seconds"

/-- The code that a host knows the fault by. -/
def code : String := "SYNCROUTE_INVALID_POLICY"

/-- The sentence that reports a reason. -/
def sentence (reason : String) : String := "Invalid resurrection policy: " ++ reason

/-- The sentence that reports a fault. -/
def message (f : PolicyFault) : String := sentence f.reason

end PolicyFault

namespace Policy

/-- Microseconds in whole milliseconds. -/
def millisOf (micros : Int64) : Int := micros.toInt.tdiv 1000

/-- Microseconds in whole seconds. -/
def secondsOf (micros : Int64) : Int := micros.toInt.tdiv 1000000

/-- The policy with the given fields, the durations in microseconds. -/
def ofMicros (window : Int64) (channel : String) (ttl : Int64) : Except PolicyFault Policy :=
  if hw : 0 < window.toInt then
    match hc : Text.isBlankText channel with
    | true => .error .channelBlank
    | false =>
      if ht : 0 < ttl.toInt then
        if hs : 1000000 ∣ ttl.toInt then .ok ⟨window, channel, ttl, hw, hc, ht, hs⟩
        else .error .ttlNotWhole
      else .error (.ttlNotPositive (secondsOf ttl))
  else .error (.windowNotPositive (millisOf window))

/-- The window in whole milliseconds. -/
def windowMillis (p : Policy) : Int := millisOf p.window

/-- The time to live in seconds. -/
def ttlSeconds (p : Policy) : UInt64 := (secondsOf p.ttl).toNat.toUInt64

/-- The time to live in whole milliseconds. -/
def ttlMillis (p : Policy) : Int := millisOf p.ttl

/-! ### Built-in policies -/

/-- The channel for resurrected documents, if no other is chosen. -/
def defaultChannel : String := "soft_deleted"

/-- The microseconds of a number of minutes. -/
def minutes (n : Int64) : Int64 := n * 60 * 1000000

/-- The policy for production: an hour, and half a year. -/
def production : Policy :=
  ⟨minutes 60, defaultChannel, minutes (180 * 24 * 60), by decide, by decide, by decide, by decide⟩

/-- The policy for tests: an hour, and five minutes. -/
def testing : Policy :=
  ⟨minutes 60, defaultChannel, minutes 5, by decide, by decide, by decide, by decide⟩

end Policy

end RevisionRouting
