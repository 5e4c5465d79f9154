import RevisionRouting.Proofs.Report.Watchers
import RevisionRouting.Stream.Watched

/-!
# The log level only filters

Watchers are told of what happens and have no say in it. Whoever they are, a session under watch
takes the steps of a session (`WatchedSession.run_watched`), a stream under watch is the stream
(`Stream.watch_eq`), and in either the watchers know what its reports tell them.

So two runs that differ in the least severity of the log alone differ in the text of the log
alone, and there the lesser severity has the records of the greater one and some more
(`log_level_only_filters`).
-/

namespace RevisionRouting

variable {ω : Type} (tell : ω → Report → ω)

/-! ### Sessions -/

/-- A session whose watchers have been told its reports. -/
def Session.watched (s : Session) (watchers : ω) : WatchedSession ω :=
  ⟨s.policy, s.now, s.reports.foldl tell watchers⟩

/-- The answers to some steps, one after the other. -/
def Session.answers (s : Session) : List Step → List (Option Decision)
  | [] => []
  | step :: steps => s.decisionOf step :: (s.after step).answers steps

/-- After a step the watchers have been told what it reports too. -/
theorem Session.watched_after (s : Session) (watchers : ω) (step : Step) :
    (s.after step).watched tell watchers =
      ⟨s.policy, (s.after step).now,
        (s.reportsOf step).foldl tell (s.watched tell watchers).watchers⟩ :=
  congrArg (WatchedSession.mk s.policy _) List.foldl_append

/-- A step under watch is the step, and the watchers are told what it reports. -/
theorem WatchedSession.step_watched (s : Session) (watchers : ω) (step : Step) :
    (s.watched tell watchers).step tell step =
      (s.decisionOf step, (s.after step).watched tell watchers) := by
  rw [Session.watched_after]
  cases step <;> rfl

/-- **Sessions do not depend on their watchers.** -/
theorem WatchedSession.run_watched (s : Session) (watchers : ω) (steps : List Step) :
    (s.watched tell watchers).run tell steps =
      (s.answers steps, (s.run steps).watched tell watchers) := by
  -- the watchers are those of the beginning throughout; what they were told grows with the session
  induction steps generalizing s with
  | nil => rfl
  | cons step steps ih =>
    rw [WatchedSession.run, step_watched]
    dsimp only
    rw [ih]
    rfl

/-! ### Streams -/

namespace Stream

variable (p : Policy) (now : Time.Instant) (ids : Nat → Invocation)

/-- What comes of a line under watch is what comes of the line, and the watchers are told of it. -/
theorem answerWatched_eq (id : Invocation) (watchers : ω) (tally : Tally) (line : List UInt8) :
    answerWatched tell p now id watchers tally line =
      ⟨(answer p now id tally line).response, (answer p now id tally line).tally,
        (answer p now id tally line).reports.foldl tell watchers⟩ := by
  unfold answerWatched answer
  -- a revision is told in two reports, a rejection in one
  cases revisionOf line <;> rfl

/-- Turn by turn, what comes of a stream under watch is what comes of the stream. -/
theorem watchReads_eq (breakage : Option Breakage) (watchers : ω) (tally : Tally)
    (reads : List Read) :
    watchReads tell p now ids breakage watchers tally reads =
      ⟨(runReads p now ids breakage tally reads).result,
        (runReads p now ids breakage tally reads).output,
        (runReads p now ids breakage tally reads).reports.foldl tell watchers⟩ := by
  induction reads generalizing watchers tally with
  | nil => rfl
  | cons read reads ih =>
    -- only a line has something to tell
    cases read with
    | finished => rfl
    | failed reason => rfl
    | line line =>
      rw [watchReads, runReads, turn, turn, answerWatched_eq]
      dsimp only
      cases breakage.filter fun b => b.after ≤ tally.lines with
      | some b => rfl
      | none =>
        -- the watchers are told of this line first, and then of all that follow
        dsimp only
        rw [ih, List.foldl_append]

/-- **Streams do not depend on their watchers.** -/
theorem watch_eq (source : Source) (breakage : Option Breakage) (watchers : ω) :
    watch tell p now ids source breakage watchers =
      ⟨(run p now ids source breakage).result, (run p now ids source breakage).output,
        (run p now ids source breakage).reports.foldl tell watchers⟩ :=
  -- a stream is the turns over what is read of it
  watchReads_eq tell p now ids breakage watchers {} source.reads

end Stream

/-! ### Levels -/

/-- What the watchers know of some reports, if the log was empty before. -/
theorem foldl_tell_fresh (least : Severity) (reports : List Report) :
    reports.foldl Watchers.tell ⟨⟨least, ""⟩, []⟩ =
      ⟨⟨least, logText (logOf least reports)⟩, observations reports⟩ := by
  rw [Watchers.foldl_tell, Log.foldl_tell, foldl_remember, String.empty_append, List.nil_append]

theorem watched_fresh (least : Severity) (s : Session) :
    s.watched Watchers.tell ⟨⟨least, ""⟩, []⟩ =
      ⟨s.policy, s.now, ⟨⟨least, logText (logOf least s.reports)⟩, observations s.reports⟩⟩ := by
  rw [Session.watched, foldl_tell_fresh]

/-- **The log level only filters.** Let a session take some steps, or a stream be run, with a log
and a memory as watchers. A log of traces holds the records of all reports. With any other least
severity the decisions, the memory, the output and the counts are the same; and the log is made of
the lines of those records that are at least as severe, in the same order. Each record is one line,
which gives its severity. -/
theorem log_level_only_filters (p : Policy) (now : Time.Instant) :
    (∀ steps : List Step,
      let s : Session := ⟨p, now, []⟩
      let reports := (s.run steps).reports
      let records := reports.map Report.record
      let watched (least : Severity) :=
        WatchedSession.run Watchers.tell ⟨p, now, ⟨⟨least, ""⟩, []⟩⟩ steps
      (watched .trace).2.watchers.log.text = logText records ∧
      ∀ least : Severity,
        (watched least).1 = s.answers steps ∧
        (watched least).2.watchers.memory = observations reports ∧
        (watched least).2.watchers.log.text =
          logText (records.filter fun r => least ≤ r.severity)) ∧
    (∀ (ids : Nat → Invocation) (source : Stream.Source) (breakage : Option Stream.Breakage),
      let o := Stream.run p now ids source breakage
      let records := o.reports.map Report.record
      let watched (least : Severity) :=
        Stream.watch Watchers.tell p now ids source breakage ⟨⟨least, ""⟩, []⟩
      (watched .trace).watchers.log.text = logText records ∧
      ∀ least : Severity,
        (watched least).result = o.result ∧ (watched least).output = o.output ∧
        (watched least).watchers.memory = observations o.reports ∧
        (watched least).watchers.log.text =
          logText (records.filter fun r => least ≤ r.severity)) ∧
    ∀ r : LogRecord, ∃ text : String, r.line = text ++ "\n" ∧ '\n' ∉ text.toList ∧
      r.members.get? "severity" = some (.string r.severity.name) := by
  refine ⟨fun steps => ?_, fun ids source breakage => ?_, LogRecord.line_spec⟩
  · -- sessions: the watchers are told the reports, and the log keeps those that are severe enough
    intro s reports records watched
    have hwatched (least : Severity) : watched least =
        (s.answers steps, ⟨(s.run steps).policy, (s.run steps).now,
          ⟨⟨least, logText (logOf least reports)⟩, observations reports⟩⟩) := by
      have hrun := WatchedSession.run_watched Watchers.tell s ⟨⟨least, ""⟩, []⟩ steps
      rwa [watched_fresh least (s.run steps)] at hrun
    refine ⟨?_, fun least => ?_⟩
    · rw [hwatched, logOf_trace]
    · rw [hwatched]
      exact ⟨rfl, rfl, rfl⟩
  · -- streams, in the same way
    intro o records watched
    have hwatched (least : Severity) : watched least =
        ⟨o.result, o.output, ⟨⟨least, logText (logOf least o.reports)⟩,
          observations o.reports⟩⟩ := by
      have hwatch := Stream.watch_eq Watchers.tell p now ids source breakage ⟨⟨least, ""⟩, []⟩
      rwa [foldl_tell_fresh] at hwatch
    refine ⟨?_, fun least => ?_⟩
    · rw [hwatched, logOf_trace]
    · rw [hwatched]
      exact ⟨rfl, rfl, rfl, rfl⟩

end RevisionRouting
