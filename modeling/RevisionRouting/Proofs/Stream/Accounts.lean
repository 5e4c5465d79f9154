import RevisionRouting.Proofs.Stream.Responses

/-!
# The accounts of a stream

A stream is accounted for four times: in the counts that it ends with, in the lines of
its output, in the memory and in the log. They are kept at different places, and they
agree (`run_accounts`).

The invariant is `Accounts`: it ties the counts, the reports and the lines taken so
far to each other. A line adds to all of them what it should (`Accounts.answer`), and
hence so does a stream (`Accounts.runLines`). What memory and log hold are lists made
of the reports one by one, so a line adds to them at the end.
-/

namespace RevisionRouting

/-! ### What is logged -/

/-- Whether an object names an event as its own. -/
def isAbout (event : String) (ms : Json.Members) : Bool :=
  (ms.get? "event").bind Json.Value.asString? = some event

theorem Event.name_inj {e e' : Event} : e.name = e'.name ↔ e = e' := by
  cases e <;> cases e' <;> simp [Event.name]

/-- The object of a record is about the event of the record. -/
theorem isAbout_members (event : Event) (r : LogRecord) :
    isAbout event.name r.members = decide (r.event = event) := by
  have hevent : r.members.get? "event" = some (.string r.event.name) := by
    rw [LogRecord.get?_members, if_neg (by decide), if_pos rfl]
  rw [isAbout, hevent, decide_eq_decide, ← Event.name_inj]
  exact Option.some_inj

/-- How many records about an event are in the log from a least severity on. -/
def loggedOf (event : Event) (least : Severity) (reports : List Report) : Nat :=
  (logOf least reports).countP fun r => r.event = event

/-- The records about an event are those whose objects are about it. -/
theorem countP_isAbout (event : Event) (least : Severity) (reports : List Report) :
    ((logOf least reports).map LogRecord.members).countP (isAbout event.name) =
      loggedOf event least reports := by
  rw [List.countP_map, loggedOf]
  exact List.countP_congr fun r _ => by rw [Function.comp_apply, isAbout_members]

section Append

variable (reports more : List Report)

theorem observations_append :
    observations (reports ++ more) = observations reports ++ observations more :=
  List.filterMap_append

theorem decisions_observations_append : decisions (observations (reports ++ more)) =
    decisions (observations reports) ++ decisions (observations more) := by
  rw [observations_append, decisions, List.filterMap_append]
  rfl

theorem loggedOf_append (event : Event) (least : Severity) :
    loggedOf event least (reports ++ more) =
      loggedOf event least reports + loggedOf event least more := by
  rw [loggedOf, logOf, keptFrom, List.map_append, List.filter_append, List.countP_append]
  rfl

end Append

/-- A report is logged under its own event, from its own severity on. -/
theorem loggedOf_singleton (event : Event) (least : Severity) (r : Report) :
    loggedOf event least [r] =
      if least ≤ r.record.severity ∧ r.record.event = event then 1 else 0 := by
  by_cases hleast : least ≤ r.record.severity <;> by_cases hevent : r.record.event = event <;>
    simp [loggedOf, logOf, keptFrom, hleast, hevent]

/-- A routed revision is logged as a resurrection if it is one, where warnings are logged. -/
theorem loggedOf_revise_resurrection {least : Severity} (hleast : least ≤ .warn) (p : Policy)
    (now : Time.Instant) (id : Invocation) (r : Revision) :
    loggedOf .resurrectionDetected least (p.revise now id r).2 =
      if (p.evaluate now r).shortCircuited then 1 else 0 := by
  change loggedOf _ _ ([_] ++ [_]) = _
  rw [loggedOf_append, loggedOf_singleton, loggedOf_singleton]
  -- the way by which a decision was made settles its severity and its event
  cases hshort : (p.evaluate now r).shortCircuited <;>
    simp [Report.record, Report.receivedRecord, Report.routedRecord, Report.routedEvent,
      Decision.path, hshort, hleast]

/-- A routed revision is no rejection. -/
theorem loggedOf_revise_rejection (least : Severity) (p : Policy) (now : Time.Instant)
    (id : Invocation) (r : Revision) :
    loggedOf .inputRejected least (p.revise now id r).2 = 0 := by
  change loggedOf _ _ ([_] ++ [_]) = _
  rw [loggedOf_append, loggedOf_singleton, loggedOf_singleton]
  cases hshort : (p.evaluate now r).shortCircuited <;>
    simp [Report.record, Report.receivedRecord, Report.routedRecord, Report.routedEvent,
      Decision.path, hshort]

namespace Stream

/-! ### What lines of output say -/

/-- Whether a line of output gives a status; the status ends the object on the line. -/
def givesStatus (status line : String) : Bool :=
  (",\"status\":\"" ++ status ++ "\"\x7d\n").toList.isSuffixOf line.toList

theorem givesStatus_okLine (d : Decision) :
    givesStatus "ok" (okLine d) = true ∧ givesStatus "error" (okLine d) = false := by
  simp [givesStatus, okLine, List.isSuffixOf, List.isPrefixOf]

theorem givesStatus_errorLine (message : String) :
    givesStatus "ok" (errorLine message) = false ∧
      givesStatus "error" (errorLine message) = true := by
  unfold errorLine
  simp [givesStatus, List.isSuffixOf, List.isPrefixOf]

variable (p : Policy) (now : Time.Instant)

/-- The decision on the revision in a line, if there is one. -/
def decisionOn (line : List UInt8) : Option Decision :=
  (revisionOf line).toOption.map (p.evaluate now)

/-- What is wrong with a line, if there is no revision in it. -/
def refusalOf (line : List UInt8) : Option String :=
  match revisionOf line with
  | .ok _ => none
  | .error f => some f.message

section Line

variable {line : List UInt8}

theorem decisionOn_of_revision {r : Revision} (h : revisionOf line = .ok r) :
    decisionOn p now line = some (p.evaluate now r) := by
  rw [decisionOn, h]
  rfl

theorem decisionOn_of_failure {f : Failure} (h : revisionOf line = .error f) :
    decisionOn p now line = none := by
  rw [decisionOn, h]
  rfl

theorem refusalOf_of_revision {r : Revision} (h : revisionOf line = .ok r) :
    refusalOf line = none := by
  rw [refusalOf, h]

theorem refusalOf_of_failure {f : Failure} (h : revisionOf line = .error f) :
    refusalOf line = some f.message := by
  rw [refusalOf, h]

end Line

/-- How many replies are of a kind, after one line more. -/
theorem countP_replies_concat (kind : String → Bool) (lines : List (List UInt8))
    (line : List UInt8) : ((lines ++ [line]).map (replyTo p now)).countP kind =
      (lines.map (replyTo p now)).countP kind + if kind (replyTo p now line) then 1 else 0 := by
  rw [List.map_append, List.countP_append, List.map_singleton, List.countP_singleton]

/-- The replies of a kind show what can be picked from their lines, if just these show it. -/
theorem filter_replies {α : Type} {kind : String → Bool} {pick : List UInt8 → Option α}
    {text : α → String}
    (h : ∀ line, Option.guard kind (replyTo p now line) = (pick line).map text)
    (lines : List (List UInt8)) :
    (lines.map (replyTo p now)).filter kind = (lines.filterMap pick).map text := by
  rw [← List.filterMap_eq_filter, List.filterMap_map, List.map_filterMap]
  exact congrArg (List.filterMap · lines) (funext h)

/-- The replies with the status `ok` give the decisions on their lines. -/
theorem filter_ok_replies (lines : List (List UInt8)) :
    (lines.map (replyTo p now)).filter (givesStatus "ok") =
      (lines.filterMap (decisionOn p now)).map okLine := by
  refine filter_replies p now (fun line => ?_) lines
  cases hr : revisionOf line with
  | ok r =>
    -- a revision gives its decision, and a line with the status `ok`
    rw [replyTo_of_revision p now hr, decisionOn_of_revision p now hr]
    exact if_pos (givesStatus_okLine _).1
  | error f =>
    -- there is no decision, and the status is another one
    rw [replyTo_of_failure p now hr, decisionOn_of_failure p now hr]
    exact if_neg (Bool.eq_false_iff.1 (givesStatus_errorLine _).1)

/-- The replies with the status `error` give what is wrong with their lines. -/
theorem filter_error_replies (lines : List (List UInt8)) :
    (lines.map (replyTo p now)).filter (givesStatus "error") =
      (lines.filterMap refusalOf).map errorLine := by
  refine filter_replies p now (fun line => ?_) lines
  cases hr : revisionOf line with
  | ok r =>
    -- there is no refusal, and the status is another one
    rw [replyTo_of_revision p now hr, refusalOf_of_revision hr]
    exact if_neg (Bool.eq_false_iff.1 (givesStatus_okLine _).2)
  | error f =>
    -- a refusal gives its message, and a line with the status `error`
    rw [replyTo_of_failure p now hr, refusalOf_of_failure hr]
    exact if_pos (givesStatus_errorLine _).2

/-- Every reply is one line. -/
theorem count_lineFeed_replies (lines : List (List UInt8)) :
    (bytesOf (String.join (lines.map (replyTo p now)))).count lineFeed = lines.length := by
  rw [bytesOf_join]
  induction lines with
  | nil => rfl
  | cons line lines ih =>
    -- a reply has one line feed, at its end
    obtain ⟨text, htext, hnot⟩ := exists_bytesOf_replyTo p now line
    rw [List.map_cons, List.flatMap_cons, List.count_append, ih, htext, List.count_append,
      List.count_eq_zero_of_not_mem hnot, List.length_cons]
    simp [Nat.add_comm]

/-! ### The invariant -/

/-- The counts and the reports after some lines. -/
structure Accounts (lines : List (List UInt8)) (t : Tally) (reports : List Report) : Prop where
  /-- Every line is counted. -/
  lines_eq : t.routed + t.rejected = lines.length
  /-- The routed revisions are those answered by decisions. -/
  routed_eq : t.routed = (lines.map (replyTo p now)).countP (givesStatus "ok")
  /-- The rejected lines are those answered by errors. -/
  rejected_eq : t.rejected = (lines.map (replyTo p now)).countP (givesStatus "error")
  /-- Each routed revision is observed twice. -/
  length_observations : (observations reports).length = 2 * t.routed
  /-- The decisions observed are those on the lines. -/
  decisions_eq : decisions (observations reports) = lines.filterMap (decisionOn p now)
  /-- The resurrections are the decisions made without looking at the document's wishes. -/
  resurrections_eq : t.resurrections =
    (decisions (observations reports)).countP (·.shortCircuited)
  /-- Resurrections are logged as such. -/
  resurrections_logged : ∀ least ≤ Severity.warn,
    loggedOf .resurrectionDetected least reports = t.resurrections
  /-- Rejections are logged as such. -/
  rejected_logged : ∀ least ≤ Severity.warn, loggedOf .inputRejected least reports = t.rejected

theorem Accounts.start : Accounts p now [] {} [] where
  lines_eq := rfl
  routed_eq := rfl
  rejected_eq := rfl
  length_observations := rfl
  decisions_eq := rfl
  resurrections_eq := rfl
  resurrections_logged _ _ := rfl
  rejected_logged _ _ := rfl

/-! ### One line more -/

variable {p now} {lines : List (List UInt8)} {t : Tally} {reports : List Report}
  {line : List UInt8}

/-- A line that is routed is entered in every account. -/
theorem Accounts.routed (h : Accounts p now lines t reports) {r : Revision}
    (hr : revisionOf line = .ok r) (id : Invocation) :
    Accounts p now (lines ++ [line])
      { t with
        routed := t.routed + 1
        resurrections := t.resurrections + if (p.evaluate now r).shortCircuited then 1 else 0 }
      (reports ++ (p.revise now id r).2) := by
  have hreply := replyTo_of_revision p now hr
  have hstatus := givesStatus_okLine (p.evaluate now r)
  have hdecision := decisionOn_of_revision p now hr
  -- all that the memory takes in are these two observations, and one decision
  have hobserved : observations (p.revise now id r).2 =
      [.received id r, .routed id (p.evaluate now r)] := rfl
  have hdecided : decisions (observations (p.revise now id r).2) = [p.evaluate now r] := rfl
  have hlines := h.lines_eq
  constructor
  case lines_eq =>
    -- the count of routed lines goes up, and so does the number of lines
    rw [List.length_append, List.length_singleton]
    dsimp only
    omega
  case routed_eq =>
    -- the reply has the status `ok`
    rw [countP_replies_concat, ← h.routed_eq, hreply, hstatus.1]
    rfl
  case rejected_eq =>
    -- the other status is not counted
    rw [countP_replies_concat, ← h.rejected_eq, hreply, hstatus.2]
    rfl
  case length_observations =>
    -- two observations for one revision more
    rw [observations_append, List.length_append, h.length_observations, hobserved]
    rfl
  case decisions_eq =>
    -- the decision observed is the one on the line
    rw [decisions_observations_append, h.decisions_eq, hdecided, List.filterMap_append,
      List.filterMap_cons_some hdecision, List.filterMap_nil]
  case resurrections_eq =>
    -- both sides go up by one just if the decision was short-circuited
    rw [decisions_observations_append, List.countP_append, ← h.resurrections_eq, hdecided,
      List.countP_singleton]
  case resurrections_logged =>
    -- warnings are kept, and the record is one of them just if the decision was short-circuited
    intro least hleast
    rw [loggedOf_append, h.resurrections_logged least hleast, loggedOf_revise_resurrection hleast]
  case rejected_logged =>
    -- a routed revision leaves no record of a rejection
    intro least hleast
    rw [loggedOf_append, h.rejected_logged least hleast, loggedOf_revise_rejection, Nat.add_zero]

/-- A line that is rejected is entered where rejections are. -/
theorem Accounts.rejected (h : Accounts p now lines t reports) {f : Failure}
    (hf : revisionOf line = .error f) :
    Accounts p now (lines ++ [line]) { t with rejected := t.rejected + 1 }
      (reports ++ [.rejected f.message]) := by
  have hreply := replyTo_of_failure p now hf
  have hstatus := givesStatus_errorLine f.message
  have hdecision := decisionOn_of_failure p now hf
  -- the memory ignores rejections
  have hobserved : observations (reports ++ [.rejected f.message]) = observations reports := by
    rw [observations_append]
    exact List.append_nil _
  have hlines := h.lines_eq
  constructor
  case lines_eq =>
    -- the count of rejected lines goes up, and so does the number of lines
    rw [List.length_append, List.length_singleton]
    dsimp only
    omega
  case routed_eq =>
    -- the other status is not counted
    rw [countP_replies_concat, ← h.routed_eq, hreply, hstatus.1]
    rfl
  case rejected_eq =>
    -- the reply has the status `error`
    rw [countP_replies_concat, ← h.rejected_eq, hreply, hstatus.2]
    rfl
  case length_observations =>
    -- neither observations nor decisions are added, here and in the two cases that follow
    rw [hobserved]
    exact h.length_observations
  case decisions_eq =>
    rw [hobserved, h.decisions_eq, List.filterMap_append, List.filterMap_cons_none hdecision,
      List.filterMap_nil, List.append_nil]
  case resurrections_eq =>
    rw [hobserved]
    exact h.resurrections_eq
  case resurrections_logged =>
    -- a rejection is logged under another event
    intro least hleast
    rw [loggedOf_append, h.resurrections_logged least hleast, loggedOf_singleton,
      if_neg (fun hlogged => absurd hlogged.2 (by simp [Report.record]))]
    rfl
  case rejected_logged =>
    -- a rejection is a warning, and so it is kept
    intro least hleast
    rw [loggedOf_append, h.rejected_logged least hleast, loggedOf_singleton,
      if_pos ⟨hleast, rfl⟩]

/-- **A line keeps the accounts in agreement**, whatever is in it. -/
theorem Accounts.answer (h : Accounts p now lines t reports) (id : Invocation)
    (line : List UInt8) :
    Accounts p now (lines ++ [line]) (answer p now id t line).tally
      (reports ++ (Stream.answer p now id t line).reports) := by
  cases hr : revisionOf line with
  | ok r =>
    rw [answer_of_revision p now hr]
    exact h.routed hr id
  | error f =>
    rw [answer_of_failure p now hr]
    exact h.rejected hr

/-! ### The whole stream -/

/-- A stream that goes on from accounts in agreement ends with accounts in agreement. -/
theorem Accounts.runLines (h : Accounts p now lines t reports) (ids : Nat → Invocation)
    (more : List (List UInt8)) :
    ∃ t', (runLines p now ids none none t more).result = .ok t' ∧
      Accounts p now (lines ++ more) t'
        (reports ++ (Stream.runLines p now ids none none t more).reports) := by
  induction more generalizing lines t reports with
  | nil =>
    refine ⟨t, rfl, ?_⟩
    rw [List.append_nil]
    -- no line more, and no report
    exact (List.append_nil reports).symm ▸ h
  | cons line more ih =>
    -- the line keeps the accounts, and the others go on from there
    obtain ⟨t', ht', haccounts⟩ := ih (h.answer (ids t.routed) line)
    refine ⟨t', ?_, ?_⟩
    · rw [runLines_cons, Option.filter_none]
      exact ht'
    · rw [runLines_cons, Option.filter_none]
      rw [List.append_assoc, List.append_assoc] at haccounts
      exact haccounts

variable (p now)

/-- The decisions that were made are as many as the routed lines. -/
theorem Accounts.length_decisions (h : Accounts p now lines t reports) :
    (decisions (observations reports)).length = t.routed := by
  rw [h.decisions_eq, h.routed_eq, List.countP_eq_length_filter, filter_ok_replies, List.length_map]

/-- **The accounts of a stream agree.** Let a stream without failures be watched by a log and a
memory. It ends with counts. Routed and rejected lines are together the lines that are not blank, and
as many line ends are written. The lines of output have the status `ok` as often as lines were
routed, and `error` as often as lines were rejected. The memory holds two observations of each
routed revision; its decisions are those on the lines, in order, and these are what the lines with
`ok` give. The resurrections are the decisions made without looking at the document's wishes, no
more than there are routed lines. If the log keeps warnings, it holds one line for each of them, and
one for each rejection. -/
theorem run_accounts (ids : Nat → Invocation) (least : Severity) (bytes : List UInt8) :
    let o := watch Watchers.tell p now ids ⟨bytes, none⟩ none ⟨⟨least, ""⟩, []⟩
    let lines := filledLines bytes
    let replies := lines.map (replyTo p now)
    let decided := decisions o.watchers.memory
    ∃ (t : Tally) (logged : List Json.Members),
      o.result = .ok t ∧
      o.output = String.join replies ∧
      t.routed + t.rejected = lines.length ∧
      (bytesOf o.output).count lineFeed = lines.length ∧
      t.resurrections ≤ t.routed ∧
      t.routed = replies.countP (givesStatus "ok") ∧
      t.rejected = replies.countP (givesStatus "error") ∧
      o.watchers.memory.length = 2 * t.routed ∧
      decided = lines.filterMap (decisionOn p now) ∧
      replies.filter (givesStatus "ok") =
        decided.map (fun d =>
          "\x7b\"data\":" ++ d.toValue.text ++ ",\"status\":\"ok\"\x7d\n") ∧
      replies.filter (givesStatus "error") =
        (lines.filterMap refusalOf).map (fun message =>
          "\x7b\"code\":\"SYNCROUTE_CLI_INVALID_INPUT\",\"message\":" ++
            (Json.Value.string message).text ++ ",\"status\":\"error\"\x7d\n") ∧
      t.resurrections = decided.countP (·.shortCircuited) ∧
      o.watchers.log.text = String.join (logged.map fun ms => ms.text ++ "\n") ∧
      (least ≤ .warn →
        logged.countP (isAbout "RESURRECTION_DETECTED") = t.resurrections ∧
        logged.countP (isAbout "INPUT_REJECTED") = t.rejected) := by
  intro o lines replies decided
  -- the invariant of the whole stream, from none of its lines to all of them
  obtain ⟨t, ht, h⟩ := (Accounts.start p now).runLines ids lines
  change (complete p now ids lines).result = .ok t at ht
  change Accounts p now lines t (complete p now ids lines).reports at h
  -- what the watchers know are the reports of the stream
  have ho : o = ⟨(complete p now ids lines).result, (complete p now ids lines).output,
      ⟨⟨least, logText (logOf least (complete p now ids lines).reports)⟩,
        observations (complete p now ids lines).reports⟩⟩ := by
    rw [← foldl_tell_fresh]
    exact watch_eq_complete p now ids Watchers.tell _ bytes
  -- what is written are the replies
  have houtput : o.output = String.join replies := by
    rw [ho]
    exact output_complete p now ids lines
  have hmemory : o.watchers.memory = observations (complete p now ids lines).reports := by rw [ho]
  have hdecided : decided = lines.filterMap (decisionOn p now) :=
    (congrArg decisions hmemory).trans h.decisions_eq
  -- the log is witnessed by the objects of its records
  refine ⟨t, (logOf least (complete p now ids lines).reports).map LogRecord.members,
    ?_, houtput, h.lines_eq, ?_, ?_, h.routed_eq, h.rejected_eq, ?_, hdecided, ?_,
    filter_error_replies p now lines, ?_, ?_, fun hleast => ⟨?_, ?_⟩⟩
  · rw [ho]
    exact ht
  · rw [houtput, count_lineFeed_replies]
  · -- short-circuited decisions are among the decisions, which are as many as routed lines
    rw [h.resurrections_eq, ← h.length_decisions]
    exact List.countP_le_length
  · rw [hmemory, h.length_observations]
  · rw [hdecided]
    exact filter_ok_replies p now lines
  · rw [hdecided, h.resurrections_eq, h.decisions_eq]
  · rw [ho, List.map_map]
    rfl
  · -- the records in the log are counted by their objects
    exact (countP_isAbout .resurrectionDetected least _).trans (h.resurrections_logged least hleast)
  · exact (countP_isAbout .inputRejected least _).trans (h.rejected_logged least hleast)

end Stream

end RevisionRouting
