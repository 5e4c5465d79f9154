import RevisionRouting.Proofs.Decision.Channels
import RevisionRouting.Proofs.Stream.Replay

/-!
# What a stream gives away

A host sees responses and counts. They depend on three fields of a document and on whether there
is a prior revision, and on nothing else: not on other fields, of whatever name, not on what
the prior document or the metadata hold, and not on how the line was written. Revisions with the
same in these places are `RoutedAlike`, and a stream in which lines of the one are replaced by
lines of the other is answered the same (`run_of_alike`).

The decision carries this over from revisions to lines (`answer_of_alike`), which is the step; the
induction over the lines is `runLines_of_alike`. The counts before a line have to be the same for
both streams in it, since a broken writer fails by them.
-/

namespace RevisionRouting

open Json (Value)

/-- Two revisions hold the same wherever routing looks. Fields are compared as values, and
those tell `0.0` from `-0.0`, as their texts do. -/
structure Revision.RoutedAlike (r r' : Revision) : Prop where
  channels : r.document.get? "channels" = r'.document.get? "channels"
  expiry : r.document.get? "expiry" = r'.document.get? "expiry"
  updatedAt : r.document.get? "updatedAt" = r'.document.get? "updatedAt"
  /-- Both have a prior document, or neither has. -/
  prior : r.prior = none ↔ r'.prior = none

/-- **Decisions are alike**, under every policy and at any time. -/
theorem Revision.RoutedAlike.evaluate {r r' : Revision} (h : r.RoutedAlike r') (p : Policy)
    (now : Time.Instant) : p.evaluate now r = p.evaluate now r' := by
  -- the decision depends on the document through three fields, and on the prior through its
  -- presence
  apply p.evaluate_congr now
  · rw [Document.channels, Document.channels, h.channels]
  · rw [Document.expiry, Document.expiry, h.expiry]
  · rw [Document.updatedAt, Document.updatedAt, h.updatedAt]
  · rw [Bool.eq_iff_iff, Option.isNone_iff_eq_none, Option.isNone_iff_eq_none]
    exact h.prior

namespace Stream

/-- A line in the place of another: the same line, or one with a revision that is routed alike. -/
inductive Alike : List UInt8 → List UInt8 → Prop
  | same (line : List UInt8) : Alike line line
  | routed {line line' : List UInt8} {r r' : Revision} (hline : revisionOf line = .ok r)
      (hline' : revisionOf line' = .ok r') (h : r.RoutedAlike r') : Alike line line'

variable (p : Policy) (now : Time.Instant)

/-- The counts after a line do not depend on its mark. -/
theorem answer_tally (id id' : Invocation) (tally : Tally) (line : List UInt8) :
    (answer p now id tally line).tally = (answer p now id' tally line).tally := by
  cases hr : revisionOf line with
  | ok r => rw [answer_of_revision p now hr, answer_of_revision p now hr]
  | error f => rw [answer_of_failure p now hr, answer_of_failure p now hr]

/-- **A line is answered like one that is alike,** and counted like it. -/
theorem answer_of_alike {line line' : List UInt8} (h : Alike line line') (id id' : Invocation)
    (tally : Tally) :
    (answer p now id tally line).response = (answer p now id' tally line').response ∧
      (answer p now id tally line).tally = (answer p now id' tally line').tally := by
  cases h with
  | same =>
    -- on the same line only the marks differ, and they show in neither part
    rw [answer_response, answer_response]
    exact ⟨rfl, answer_tally p now id id' tally line⟩
  | routed hline hline' h =>
    -- both lines are routed, by decisions that are the same
    rw [answer_of_revision p now hline, answer_of_revision p now hline', h.evaluate p now]
    exact ⟨rfl, rfl⟩

/-- **So are streams of lines,** whatever the lines and the failures before. -/
theorem runLines_of_alike {lines lines' : List (List UInt8)} (h : List.Forall₂ Alike lines lines')
    (ids ids' : Nat → Invocation) (breakage : Option Breakage) (failure : Option String)
    (tally : Tally) :
    (runLines p now ids breakage failure tally lines).result =
        (runLines p now ids' breakage failure tally lines').result ∧
      (runLines p now ids breakage failure tally lines).output =
        (runLines p now ids' breakage failure tally lines').output := by
  -- the streams are taken line by line, with the same counts before the lines
  induction h generalizing tally with
  | nil =>
    -- the ends are alike, as both readers fail or neither does
    cases failure <;> exact ⟨rfl, rfl⟩
  | @cons line line' lines lines' hline _ ih =>
    obtain ⟨hresponse, htally⟩ :=
      answer_of_alike p now hline (ids tally.routed) (ids' tally.routed) tally
    rw [runLines_cons, runLines_cons]
    dsimp only
    rw [hresponse, htally]
    -- with the same counts before it, the writer fails on both lines or on neither
    cases breakage.filter fun b => b.after ≤ tally.lines with
    | some b => exact ⟨rfl, rfl⟩
    | none =>
      obtain ⟨hresult, houtput⟩ := ih (answer p now (ids' tally.routed) tally line').tally
      dsimp only
      rw [houtput]
      exact ⟨hresult, rfl⟩

/-- **Nothing but three fields and the presence of a prior shows in what a stream answers.** Take
two lines with revisions whose documents have the same under `channels`, `expiry` and
`updatedAt`, and which both have or both lack a prior document. Under every policy and at any
time they are answered with the same line and add the same to the counts. And a stream in which
lines are replaced by such lines, in any places, comes to the same result and the same output,
also when reading or writing fails. -/
theorem run_of_alike (p : Policy) (now : Time.Instant) :
    (∀ {line line' : List UInt8} {r r' : Revision}, revisionOf line = .ok r →
      revisionOf line' = .ok r' → r.RoutedAlike r' → ∀ (id id' : Invocation) (tally : Tally),
        (answer p now id tally line).response.line =
          (answer p now id' tally line').response.line ∧
        (answer p now id tally line).tally = (answer p now id' tally line').tally) ∧
    ∀ {s s' : Source}, List.Forall₂ Alike s.lines s'.lines → s.failure = s'.failure →
      ∀ (ids ids' : Nat → Invocation) (breakage : Option Breakage),
        (run p now ids s breakage).result = (run p now ids' s' breakage).result ∧
        (run p now ids s breakage).output = (run p now ids' s' breakage).output := by
  refine ⟨fun hline hline' h id id' tally => ?_, fun hlines hfailure ids ids' breakage => ?_⟩
  · -- one line of each, as the first case of being alike needs it
    obtain ⟨hresponse, htally⟩ :=
      answer_of_alike p now (.routed hline hline' h) id id' tally
    exact ⟨congrArg Response.line hresponse, htally⟩
  · -- streams are their lines, so the induction on these is all
    rw [run_eq_runLines, run_eq_runLines, hfailure]
    exact runLines_of_alike p now hlines ids ids' breakage _ {}

/-- A document for one channel. -/
def bare : Revision where
  document := ⟨[("channels", .string "a")]⟩
  prior := none
  metadata := .empty

/-- The same with another field, which is named like one of a revision, and with metadata. -/
def dressed : Revision where
  document := ⟨[("channels", .string "a"), ("oldDoc", .string "b")]⟩
  prior := none
  metadata := ⟨[("expiry", .string "2-c")]⟩

/-- The stream whose one line holds a revision. -/
def sourceOf (r : Revision) : Source := ⟨bytesOf r.members.text ++ [lineFeed], none⟩

theorem lines_sourceOf (r : Revision) : (sourceOf r).lines = [bytesOf r.members.text] := by
  rw [sourceOf, Source.lines_eq_filledLines, filledLines_object r.members (by decide)]

theorem revisionOf_bare : revisionOf (bytesOf bare.members.text) = .ok bare := by
  refine revisionOf_bytesOf (Revision.parse_text ⟨?_, .null, ?_⟩ ⟨?_, .null, ?_⟩)
  · exact .object (List.pairwise_singleton _ _) (List.forall_mem_singleton.2 .string)
  · exact .object .nil fun m hm => absurd hm List.not_mem_nil
  · exact .object (List.forall_mem_singleton.2 .string)
  · exact .object fun m hm => absurd hm List.not_mem_nil

theorem revisionOf_dressed : revisionOf (bytesOf dressed.members.text) = .ok dressed := by
  refine revisionOf_bytesOf (Revision.parse_text ⟨?_, .null, ?_⟩ ⟨?_, .null, ?_⟩)
  · refine .object (List.pairwise_pair.2 (by decide)) (List.forall_mem_cons.2 ⟨.string, ?_⟩)
    exact List.forall_mem_singleton.2 .string
  · exact .object (List.pairwise_singleton _ _) (List.forall_mem_singleton.2 .string)
  · refine .object (List.forall_mem_cons.2 ⟨.string, ?_⟩)
    exact List.forall_mem_singleton.2 .string
  · exact .object (List.forall_mem_singleton.2 .string)

/-- The other field and the metadata make no difference at noon. -/
theorem run_of_dressed : bare.RoutedAlike dressed ∧
    revisionOf (bytesOf bare.members.text) = .ok bare ∧
    revisionOf (bytesOf dressed.members.text) = .ok dressed ∧
    (run .testing midday (fun n => ⟨toString n⟩) (sourceOf bare) none).output =
      (run .testing midday (fun _ => ⟨"again"⟩) (sourceOf dressed) none).output := by
  have halike : bare.RoutedAlike dressed := ⟨rfl, rfl, rfl, Iff.rfl⟩
  have hlines : List.Forall₂ Alike (sourceOf bare).lines (sourceOf dressed).lines := by
    rw [lines_sourceOf, lines_sourceOf]
    exact .cons (.routed revisionOf_bare revisionOf_dressed halike) .nil
  obtain ⟨-, houtput⟩ := (run_of_alike .testing midday).2 hlines rfl
    (fun n => ⟨toString n⟩) (fun _ => ⟨"again"⟩) none
  exact ⟨halike, revisionOf_bare, revisionOf_dressed, houtput⟩

end Stream

end RevisionRouting
