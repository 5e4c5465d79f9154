import RevisionRouting.Session
import RevisionRouting.Stream.Run

/-!
# Routing a stream under watch

A stream tells its watchers of each line before the response to it is written. So
when a response breaks off, the watchers know of its line.
-/

namespace RevisionRouting.Stream

variable {ω : Type}

/-- What comes of a line under watch. -/
structure WatchedAnswer (ω : Type) where
  response : Response
  tally : Tally
  watchers : ω

/-- What comes of a line, the counts before it given. -/
def answerWatched (tell : ω → Report → ω) (p : Policy) (now : Time.Instant) (id : Invocation)
    (watchers : ω) (tally : Tally) (line : List UInt8) : WatchedAnswer ω :=
  match revisionOf line with
  | .ok r =>
    let (d, watchers) := p.reviseWatched tell watchers now id r
    let resurrections := tally.resurrections + if d.shortCircuited then 1 else 0
    ⟨.ofDecision d, { tally with routed := tally.routed + 1, resurrections := resurrections },
      watchers⟩
  | .error f =>
    ⟨.ofFailure f, { tally with rejected := tally.rejected + 1 },
      tell watchers (.rejected f.message)⟩

/-- What comes of a stream under watch. -/
structure WatchedOutcome (ω : Type) where
  result : Except Failure Tally
  output : String
  watchers : ω

/-- What comes of all that is read, turn by turn, the counts before it given; see `runReads`. -/
def watchReads (tell : ω → Report → ω) (p : Policy) (now : Time.Instant)
    (ids : Nat → Invocation) (breakage : Option Breakage) :
    ω → Tally → List Read → WatchedOutcome ω
  | watchers, tally, [] => ⟨.ok tally, "", watchers⟩
  | watchers, tally, read :: reads =>
    match turn (answerWatched tell p now (ids tally.routed) watchers tally) tally read with
    | .stop result => ⟨result, "", watchers⟩
    | .answer a =>
      match breakage.filter fun b => b.after ≤ tally.lines with
      | some b => ⟨.error b.failure, b.written a.response, a.watchers⟩
      | none =>
        let rest := watchReads tell p now ids breakage a.watchers a.tally reads
        ⟨rest.result, a.response.line ++ rest.output, rest.watchers⟩

/-- What comes of a stream under watch; see `run`. -/
def watch (tell : ω → Report → ω) (p : Policy) (now : Time.Instant) (ids : Nat → Invocation)
    (source : Source) (breakage : Option Breakage) (watchers : ω) : WatchedOutcome ω :=
  watchReads tell p now ids breakage watchers {} source.reads

end RevisionRouting.Stream
