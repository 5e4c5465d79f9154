import RevisionRouting.Report.Basic

/-!
# Routing and sessions

A document without a prior revision that was last changed longer ago than the
policy's window is a resurrection: it was removed elsewhere and comes back. It
goes to the cleanup channel, whatever it asks for. Every other document goes where
it asks to go. A document that does not say when it was changed is no
resurrection, as nothing speaks for its age. Age and window are compared in whole
milliseconds, and the age has to exceed the window.

A session routes revisions under one policy while its clock is moved by hand, and
keeps all that was reported. Routing a revision reads the clock and nothing else
of the session, so its decision does not depend on what came before.

A session under watch tells its watchers each report at the moment at which it
arises: that a revision was received before the clock is read, and the decision once
it is made. Who the watchers are and what they make of a report is left to `tell`.
-/

namespace RevisionRouting

/-! ### Routing -/

/-- The age of a document in whole milliseconds, if it says when it was changed. -/
def Document.ageMillis (d : Document) (now : Time.Instant) : Option Int :=
  d.updatedAt.map fun stamp => now.millisSince stamp.instant

/-- Whether a revision brings back a removed document. -/
def Policy.isResurrection (p : Policy) (now : Time.Instant) (r : Revision) : Bool :=
  r.prior.isNone &&
    match r.document.ageMillis now with
    | none => false
    | some age => p.windowMillis < age

/-- The decision on a revision at a given time. -/
def Policy.evaluate (p : Policy) (now : Time.Instant) (r : Revision) : Decision :=
  if p.isResurrection now r then .softDelete p
  else .normal r.document.channels r.document.expiry

/-- The decision on a revision with what is reported of it. -/
def Policy.revise (p : Policy) (now : Time.Instant) (id : Invocation) (r : Revision) :
    Decision × List Report :=
  let d := p.evaluate now r
  (d, [.observed (.received id r), .observed (.routed id d)])

/-! ### Sessions -/

/-- Routing under one policy with a clock that is moved by hand. -/
structure Session where
  policy : Policy
  now : Time.Instant
  /-- All that was reported, the earliest first. -/
  reports : List Report := []

/-- What can be done in a session. -/
inductive Step where
  | moveClock (now : Time.Instant)
  | revise (id : Invocation) (r : Revision)
  | reject (reason : String)
  /-- An observation is told to the watchers without any routing. -/
  | tell (o : Observation)

namespace Session

/-- What a step reports. -/
def reportsOf (s : Session) : Step → List Report
  | .moveClock _ => []
  | .revise id r => (s.policy.revise s.now id r).2
  | .reject reason => [.rejected reason]
  | .tell o => [.observed o]

/-- The decision that a step asks for. -/
def decisionOf (s : Session) : Step → Option Decision
  | .revise id r => some (s.policy.revise s.now id r).1
  | _ => none

/-- The session after a step. -/
def after (s : Session) (step : Step) : Session :=
  { s with
    now := match step with
      | .moveClock now => now
      | _ => s.now
    reports := s.reports ++ s.reportsOf step }

/-- The session after some steps. -/
def run (s : Session) (steps : List Step) : Session := steps.foldl after s

end Session

/-! ### Sessions under watch -/

variable {ω : Type}

/-- The decision on a revision, and the watchers once they have been told. -/
def Policy.reviseWatched (p : Policy) (tell : ω → Report → ω) (watchers : ω)
    (now : Time.Instant) (id : Invocation) (r : Revision) : Decision × ω :=
  let watchers := tell watchers (.observed (.received id r))
  let d := p.evaluate now r
  (d, tell watchers (.observed (.routed id d)))

/-- A session with those who watch it. -/
structure WatchedSession (ω : Type) where
  policy : Policy
  now : Time.Instant
  watchers : ω

namespace WatchedSession

/-- Takes a step; the answer is the decision, if the step asks for one. -/
def step (tell : ω → Report → ω) (s : WatchedSession ω) :
    Step → Option Decision × WatchedSession ω
  | .moveClock now => (none, { s with now := now })
  | .revise id r =>
    let (d, watchers) := s.policy.reviseWatched tell s.watchers s.now id r
    (some d, { s with watchers := watchers })
  | .reject reason => (none, { s with watchers := tell s.watchers (.rejected reason) })
  | .tell o => (none, { s with watchers := tell s.watchers (.observed o) })

/-- Takes steps one after the other; the answers are in their order. -/
def run (tell : ω → Report → ω) (s : WatchedSession ω) :
    List Step → List (Option Decision) × WatchedSession ω
  | [] => ([], s)
  | step :: steps =>
    let (answer, s) := s.step tell step
    let (answers, s) := run tell s steps
    (answer :: answers, s)

end WatchedSession

end RevisionRouting
