import RevisionRouting.Proofs.Json.OneLine
import RevisionRouting.Proofs.Report.Levels
import RevisionRouting.Proofs.Stream.Lines
import RevisionRouting.Proofs.Text.Utf8

/-!
# One response a line

A stream whose reader and writer do not fail is answered to its end, whoever watches it,
and each of its lines gets one line of output, which depends on that line alone
(`run_output_eq`). What the line of output looks like is spelled out in `replyTo`: an
object with the decision, or one with the code and message of what is wrong. A host
that reads the output line by line stays in step with its own input, since a
reply holds one line end, as its last byte (`exists_bytesOf_replyTo`).

The loop hands counts and marks from line to line. `answer_response` is the step
that leaves them out of the response, and `runLines_eq` the induction over the
lines; what was counted before is arbitrary in it.
-/

namespace RevisionRouting

/-- The bytes of a text. -/
def bytesOf (s : String) : List UInt8 := Text.Utf8.encode s.toList

theorem bytesOf_append (s t : String) : bytesOf (s ++ t) = bytesOf s ++ bytesOf t := by
  rw [bytesOf, String.toList_append, Text.Utf8.encode_append]
  rfl

theorem bytesOf_join (texts : List String) :
    bytesOf (String.join texts) = texts.flatMap bytesOf := by
  induction texts with
  | nil => rfl
  | cons text texts ih => rw [String.join_cons, bytesOf_append, ih, List.flatMap_cons]

/-- No compact text has the byte of a line end. -/
theorem lineFeed_not_mem_bytesOf (v : Json.Value) : Stream.lineFeed ∉ bytesOf v.text := by
  intro h
  -- a line feed among the bytes is the byte of a line end in the text
  obtain ⟨c, hc, hn⟩ := (Text.Utf8.mem_encode_iff (by decide)).1 h
  have hcn : c = '\n' := Char.toNat_inj.1 hn
  rw [hcn, Json.Value.text, String.toList_ofList] at hc
  exact v.lineEnd_not_mem_chars hc

namespace Response

theorem lineFeed_not_mem_text (r : Response) : Stream.lineFeed ∉ bytesOf r.text :=
  lineFeed_not_mem_bytesOf (.object r.members)

/-- A response is a line: one line end, and that at its end. -/
theorem bytes_line (r : Response) : bytesOf r.line = bytesOf r.text ++ [Stream.lineFeed] := by
  rw [line, bytesOf_append]
  rfl

end Response

namespace Stream

/-- The response to a line: the decision on the revision in it, or what is wrong with the line. -/
def responseTo (p : Policy) (now : Time.Instant) (line : List UInt8) : Response :=
  match Text.Utf8.decode line with
  | .error f =>
    .error "SYNCROUTE_CLI_INVALID_INPUT" ("line is not valid UTF-8: " ++ f.message)
  | .ok cs =>
    match Revision.parse (String.ofList cs) with
    | .error e => .error "SYNCROUTE_CLI_INVALID_INPUT" ("JSON error: " ++ e.message)
    | .ok r => .ofDecision (p.evaluate now r)

/-! ### Lines of output -/

/-- The line of output that gives a decision. -/
def okLine (d : Decision) : String :=
  "\x7b\"data\":" ++ d.toValue.text ++ ",\"status\":\"ok\"\x7d\n"

/-- The line of output that says what is wrong with a line of input. -/
def errorLine (message : String) : String :=
  "\x7b\"code\":\"SYNCROUTE_CLI_INVALID_INPUT\",\"message\":" ++
    (Json.Value.string message).text ++ ",\"status\":\"error\"\x7d\n"

/-- The line of output that a line of input gets. -/
def replyTo (p : Policy) (now : Time.Instant) (line : List UInt8) : String :=
  match Text.Utf8.decode line with
  | .error f => errorLine ("line is not valid UTF-8: " ++ f.message)
  | .ok cs =>
    match Revision.parse (String.ofList cs) with
    | .error e => errorLine ("JSON error: " ++ e.message)
    | .ok r => okLine (p.evaluate now r)

/-- The line that a failure of the input is answered with. -/
theorem line_eq_errorLine {f : Failure} (h : f.kind = .input) :
    (Response.ofFailure f).line = errorLine f.message := by
  have hquoted : Json.quotedString "SYNCROUTE_CLI_INVALID_INPUT" =
      "\"SYNCROUTE_CLI_INVALID_INPUT\"".toList := by decide
  -- the code stands between quotes as it is
  have hcode : (Json.Value.string f.code).text = "\"SYNCROUTE_CLI_INVALID_INPUT\"" := by
    rw [Failure.code, h, FailureKind.code, Json.Value.text, Json.Value.chars, hquoted,
      String.ofList_toList]
  have hstart : "\x7b\"code\":" ++ "\"SYNCROUTE_CLI_INVALID_INPUT\"" ++ ",\"message\":" =
      "\x7b\"code\":\"SYNCROUTE_CLI_INVALID_INPUT\",\"message\":" := by simp
  rw [Response.line_ofFailure, hcode, hstart]
  rfl

variable (p : Policy) (now : Time.Instant)

/-- **The line of the response to a line**, in full. -/
theorem line_responseTo (line : List UInt8) :
    (responseTo p now line).line = replyTo p now line := by
  unfold responseTo replyTo
  -- one case for each way in which a line can be understood, or fail to be
  cases Text.Utf8.decode line with
  | error f => exact line_eq_errorLine (f := .ofUtf8 f) rfl
  | ok cs =>
    dsimp only
    cases Revision.parse (String.ofList cs) with
    | error e => exact line_eq_errorLine (f := .ofJson e) rfl
    | ok r => exact Response.line_ofDecision _

/-- A reply is a line: one line end, and that at its end. -/
theorem exists_bytesOf_replyTo (line : List UInt8) :
    ∃ text, bytesOf (replyTo p now line) = text ++ [lineFeed] ∧ lineFeed ∉ text := by
  refine ⟨bytesOf (responseTo p now line).text, ?_, Response.lineFeed_not_mem_text _⟩
  rw [← line_responseTo, Response.bytes_line]

/-! ### What comes of a line -/

theorem revisionOf_of_decode {line : List UInt8} {cs : List Char}
    (h : Text.Utf8.decode line = .ok cs) :
    revisionOf line = (Revision.parse (String.ofList cs)).mapError .ofJson := by
  rw [revisionOf, h]
  rfl

theorem revisionOf_of_fault {line : List UInt8} {f : Text.Utf8.Fault}
    (h : Text.Utf8.decode line = .error f) : revisionOf line = .error (.ofUtf8 f) := by
  rw [revisionOf, h]
  rfl

/-- A line that is no revision is bad input, whatever is wrong with it. -/
theorem kind_of_revisionOf {line : List UInt8} {f : Failure} (h : revisionOf line = .error f) :
    f.kind = .input := by
  -- decoding has failed or parsing has
  cases hd : Text.Utf8.decode line with
  | error e =>
    rw [revisionOf_of_fault hd] at h
    cases h
    rfl
  | ok cs =>
    rw [revisionOf_of_decode hd] at h
    cases hp : Revision.parse (String.ofList cs) with
    | error e =>
      rw [hp] at h
      cases h
      rfl
    | ok r =>
      rw [hp] at h
      cases h

section Answer

variable {line : List UInt8}

/-- A revision is routed and counted. -/
theorem answer_of_revision {r : Revision} (h : revisionOf line = .ok r) (id : Invocation)
    (t : Tally) : answer p now id t line = ⟨.ofDecision (p.evaluate now r), (p.revise now id r).2,
      { t with
        routed := t.routed + 1
        resurrections :=
          t.resurrections + if (p.evaluate now r).shortCircuited then 1 else 0 }⟩ := by
  rw [answer, h]
  rfl

/-- A line without a revision is rejected and counted. -/
theorem answer_of_failure {f : Failure} (h : revisionOf line = .error f) (id : Invocation)
    (t : Tally) : answer p now id t line =
      ⟨.ofFailure f, [.rejected f.message], { t with rejected := t.rejected + 1 }⟩ := by
  rw [answer, h]

end Answer

/-- The response to a line depends neither on its mark nor on the counts before it. -/
theorem answer_response (id : Invocation) (tally : Tally) (line : List UInt8) :
    (answer p now id tally line).response = responseTo p now line := by
  unfold answer responseTo
  -- reading the revision is decoding and parsing, as in `responseTo`
  cases hd : Text.Utf8.decode line with
  | error f =>
    rw [revisionOf_of_fault hd]
    rfl
  | ok cs =>
    rw [revisionOf_of_decode hd]
    dsimp only
    cases Revision.parse (String.ofList cs) <;> rfl

section Response

variable {line : List UInt8}

theorem responseTo_of_revision {r : Revision} (h : revisionOf line = .ok r) :
    responseTo p now line = .ofDecision (p.evaluate now r) := by
  rw [← answer_response p now ⟨""⟩ {}, answer_of_revision p now h]

theorem responseTo_of_failure {f : Failure} (h : revisionOf line = .error f) :
    responseTo p now line = .ofFailure f := by
  rw [← answer_response p now ⟨""⟩ {}, answer_of_failure p now h]

theorem replyTo_of_revision {r : Revision} (h : revisionOf line = .ok r) :
    replyTo p now line = okLine (p.evaluate now r) := by
  rw [← line_responseTo, responseTo_of_revision p now h, Response.line_ofDecision, okLine]

theorem replyTo_of_failure {f : Failure} (h : revisionOf line = .error f) :
    replyTo p now line = errorLine f.message := by
  rw [← line_responseTo, responseTo_of_failure p now h, line_eq_errorLine (kind_of_revisionOf h)]

end Response

/-! ### What comes of a stream -/

/-- Without failures the loop goes to the last line and writes the reply to every line. -/
theorem runLines_eq (ids : Nat → Invocation) (tally : Tally) (lines : List (List UInt8)) :
    (∃ t, (runLines p now ids none none tally lines).result = .ok t) ∧
      (runLines p now ids none none tally lines).output =
        String.join (lines.map (replyTo p now)) := by
  -- the counts are generalized, as each line changes them
  induction lines generalizing tally with
  | nil => exact ⟨⟨tally, rfl⟩, rfl⟩
  | cons line lines ih =>
    obtain ⟨hresult, houtput⟩ := ih (answer p now (ids tally.routed) tally line).tally
    -- no writer is broken, so the loop goes on to the other lines
    rw [runLines_cons, Option.filter_none]
    refine ⟨hresult, ?_⟩
    dsimp only
    rw [houtput, answer_response, line_responseTo, List.map_cons, String.join_cons]

section Complete

variable (ids : Nat → Invocation)

/-- The counts that a stream without failures reaches. -/
theorem exists_result_complete (lines : List (List UInt8)) :
    ∃ t, (complete p now ids lines).result = .ok t :=
  (runLines_eq p now ids {} lines).1

theorem output_complete (lines : List (List UInt8)) :
    (complete p now ids lines).output = String.join (lines.map (replyTo p now)) :=
  (runLines_eq p now ids {} lines).2

theorem bytesOf_output_complete (lines : List (List UInt8)) :
    bytesOf (complete p now ids lines).output =
      lines.flatMap fun line => bytesOf (replyTo p now line) := by
  rw [output_complete, bytesOf_join, List.flatMap_map]

/-- A stream without failures, whoever watches it. -/
theorem watch_eq_complete {ω : Type} (tell : ω → Report → ω) (watchers : ω)
    (bytes : List UInt8) :
    watch tell p now ids ⟨bytes, none⟩ none watchers =
      ⟨(complete p now ids (filledLines bytes)).result,
        (complete p now ids (filledLines bytes)).output,
        (complete p now ids (filledLines bytes)).reports.foldl tell watchers⟩ := by
  rw [watch_eq, run_eq_complete]

end Complete

/-- The output of a stream of one line is the response to it. -/
theorem run_of_filledLines (ids : Nat → Invocation) {bytes line : List UInt8}
    (h : filledLines bytes = [line]) :
    (∃ tally, (run p now ids ⟨bytes, none⟩ none).result = .ok tally) ∧
      (run p now ids ⟨bytes, none⟩ none).output = (responseTo p now line).line := by
  rw [run_eq_complete, h, output_complete, line_responseTo]
  refine ⟨exists_result_complete p now ids [line], ?_⟩
  rw [List.map_singleton, String.join_cons, String.join_nil, String.append_empty]

/-- **Every line is answered, by one line, and by itself.** Let a stream be read to its end and
written without a failure; whoever watches it, it comes to its end. What is written are the replies
to the lines that are not blank, in order: each a function of its line alone, with the decision on
the revision in the line or with the code and message of what is wrong with it. Every reply holds
one line end, its last byte. -/
theorem run_output_eq {ω : Type} (tell : ω → Report → ω) (watchers : ω) (ids : Nat → Invocation)
    (bytes : List UInt8) :
    let o := watch tell p now ids ⟨bytes, none⟩ none watchers
    (∃ tally, o.result = .ok tally) ∧
      bytesOf o.output = (filledLines bytes).flatMap (fun line => bytesOf (replyTo p now line)) ∧
      ∀ line : List UInt8,
        (∃ text, bytesOf (replyTo p now line) = text ++ [lineFeed] ∧ lineFeed ∉ text) ∧
        match Text.Utf8.decode line with
        | .error f => replyTo p now line =
            "\x7b\"code\":\"SYNCROUTE_CLI_INVALID_INPUT\",\"message\":" ++
              (Json.Value.string ("line is not valid UTF-8: " ++ f.message)).text ++
              ",\"status\":\"error\"\x7d\n"
        | .ok cs =>
          match Revision.parse (String.ofList cs) with
          | .error e => replyTo p now line =
              "\x7b\"code\":\"SYNCROUTE_CLI_INVALID_INPUT\",\"message\":" ++
                (Json.Value.string ("JSON error: " ++ e.message)).text ++
                ",\"status\":\"error\"\x7d\n"
          | .ok r => replyTo p now line =
              "\x7b\"data\":" ++ (p.evaluate now r).toValue.text ++ ",\"status\":\"ok\"\x7d\n" := by
  intro o
  have ho : o = _ := watch_eq_complete p now ids tell watchers bytes
  rw [ho]
  refine ⟨exists_result_complete p now ids _, bytesOf_output_complete p now ids _,
    fun line => ⟨exists_bytesOf_replyTo p now line, ?_⟩⟩
  -- the text of a reply goes by what is in the line
  unfold replyTo
  cases Text.Utf8.decode line with
  | error f => rfl
  | ok cs =>
    dsimp only
    cases Revision.parse (String.ofList cs) <;> rfl

end Stream

end RevisionRouting
