import RevisionRouting.Proofs.Command.Stages
import RevisionRouting.Proofs.Decision.Channels
import RevisionRouting.Proofs.Time.Reading

/-!
# Two readers of time stamps

The time of a document's last change is read leniently: blanks around it do not matter, and a text
that is no time stamp counts as missing. The time that a command is given is read strictly.
Up to the blanks the two readers agree, and on the instant as well
(`Document.updatedAt_of_padded`).

A text that the strict reader accepts has no blanks to lose (`Time.Stamp.trim_of_ofChars?`). So a
document that was changed at the very time that a command is given has no age, be it in a leap
second (`Time.Instant.millisSince_self`), and no window is negative.
-/

namespace RevisionRouting

/-! ### No time between an instant and itself -/

namespace Time.Instant

theorem leapBetween_self (t : Instant) : leapBetween t t = 0 := by
  rw [leapBetween, if_neg fun h => Int.lt_irrefl _ h.1, if_neg fun h => Int.lt_irrefl _ h.1]

theorem millisSince_self (t : Instant) : millisSince t t = 0 := by
  rw [millisSince, nanosSince, leapBetween_self, Int.sub_self, Int.sub_self]
  rfl

end Time.Instant

/-- **A document that was changed just now is no resurrection.** -/
theorem Policy.evaluate_of_changedAt_now {p : Policy} {now : Time.Instant} {r : Revision}
    (h : r.document.ChangedAt now) : (p.evaluate now r).shortCircuited = false := by
  rw [evaluate_shortCircuited, isResurrection_eq h, Time.Instant.millisSince_self,
    decide_eq_false (Int.not_lt.2 p.windowMillis_nonneg), Bool.and_false]

/-! ### Blanks around a time stamp -/

namespace Document

variable {d d' : Document} {text before after : String}

/-- The last change is read from the core of the text. -/
theorem updatedAt_of_text (h : d.get? "updatedAt" = some (.string text)) :
    d.updatedAt = (Time.Stamp.ofChars? (Text.trim text.toList)).toOption := by
  rw [updatedAt, h]
  rfl

/-- A document was changed at the instant that the strict reader finds in the core of its text. -/
theorem changedAt_iff_readNow (h : d.get? "updatedAt" = some (.string text)) {u : Time.Instant} :
    d.ChangedAt u ↔ Command.readNow (String.ofList (Text.trim text.toList)) = .ok u := by
  -- the strict reader is the lenient one applied to the core
  rw [Command.readNow_eq_ok_iff, GivesTime, Time.Stamp.parse, String.toList_ofList]
  constructor
  · rintro ⟨text', stamp, htext', hstamp, hu⟩
    rw [h] at htext'
    cases htext'
    exact ⟨stamp, hstamp, hu⟩
  · rintro ⟨stamp, hstamp, hu⟩
    exact ⟨text, stamp, h, hstamp, hu⟩

/-- What the strict reader accepts is its own core. -/
theorem trim_of_readNow {now : Time.Instant} (h : Command.readNow text = .ok now) :
    String.ofList (Text.trim text.toList) = text := by
  obtain ⟨stamp, hstamp, -⟩ := Command.readNow_eq_ok_iff.1 h
  rw [Time.Stamp.trim_of_ofChars? hstamp, String.ofList_toList]

/-- **The two readers agree up to blanks.** Let two documents differ in the blanks around the text of
their `updatedAt`. Then both were last changed at the same time, and if they agree in all other
fields, all decisions on them are the same. They were changed at an instant if and only if the
strict reader finds it in the text without the blanks around it. And if it finds a time in the
text as it is, then at that time a document without a prior is not short-circuited. -/
theorem updatedAt_of_padded (hd : d.get? "updatedAt" = some (.string text))
    (hd' : d'.get? "updatedAt" = some (.string (before ++ text ++ after)))
    (hbefore : Text.isBlankText before = true) (hafter : Text.isBlankText after = true) :
    d'.updatedAt = d.updatedAt ∧
    ((∀ field, field ≠ "updatedAt" → d'.get? field = d.get? field) →
      ∀ (p : Policy) (now : Time.Instant) (prior : Option Document) (m : Metadata),
        p.evaluate now ⟨d', prior, m⟩ = p.evaluate now ⟨d, prior, m⟩) ∧
    (∃ core : String, Text.TrimsTo text.toList core.toList ∧ ∀ u,
      (∃ stamp, d.updatedAt = some stamp ∧ stamp.instant = u) ↔ Command.readNow core = .ok u) ∧
    ∀ now, Command.readNow text = .ok now → ∀ (p : Policy) (m : Metadata),
      (p.evaluate now ⟨d', none, m⟩).shortCircuited = false := by
  have htrim := Text.trim_toList_append hbefore hafter text
  -- both texts have the same core
  have hupdated : d'.updatedAt = d.updatedAt := by
    rw [updatedAt_of_text hd, updatedAt_of_text hd', htrim]
  refine ⟨hupdated, fun hother p now prior m => ?_, ?_, fun now hnow p m => ?_⟩
  · -- the other two fields that decisions look at are the same
    apply p.evaluate_congr now
    · rw [channels, channels, hother "channels" (by decide)]
    · rw [expiry, expiry, hother "expiry" (by decide)]
    · exact hupdated
    · rfl
  · -- the core of the text is the witness, and what the strict reader reads there is the instant
    refine ⟨String.ofList (Text.trim text.toList), ?_, fun u => ?_⟩
    · rw [String.toList_ofList]
      exact Text.trim_eq_iff.1 rfl
    · rw [← changedAt_iff, changedAt_iff_readNow hd]
  · -- what the strict reader accepts is its own core, so the document was changed at that time
    refine Policy.evaluate_of_changedAt_now ((changedAt_iff_readNow hd').2 ?_)
    rw [htrim, trim_of_readNow hnow, hnow]

/-- A document that was changed in the leap second at the end of 2016. -/
def leapDocument : Document :=
  ⟨[("channels", .string "a"), ("updatedAt", .string "2016-12-31T23:59:60.5Z")]⟩

/-- The same with blanks around the time. -/
def spacedDocument : Document :=
  ⟨[("channels", .string "a"), ("updatedAt", .string "\u3000\t2016-12-31T23:59:60.5Z\u00a0")]⟩

/-- The middle of that leap second. -/
def leapStamp : Time.Stamp where
  date := ⟨2016, 12, 31⟩
  time := ⟨23, 59, 59, 1500000000, by decide, by decide, by decide, by decide, by decide⟩
  offset := 0

/-- In the leap second the document has no age, whatever stands around the time. -/
theorem updatedAt_of_spacedDocument :
    leapDocument.get? "updatedAt" = some (.string "2016-12-31T23:59:60.5Z") ∧
    spacedDocument.get? "updatedAt" =
      some (.string ("\u3000\t" ++ "2016-12-31T23:59:60.5Z" ++ "\u00a0")) ∧
    Text.isBlankText "\u3000\t" = true ∧ Text.isBlankText "\u00a0" = true ∧
    Command.readNow "2016-12-31T23:59:60.5Z" = .ok leapStamp.instant ∧
    spacedDocument.updatedAt = leapDocument.updatedAt ∧
    (Policy.testing.evaluate leapStamp.instant ⟨spacedDocument, none, .empty⟩).shortCircuited =
      false := by
  have hd : leapDocument.get? "updatedAt" = some (.string "2016-12-31T23:59:60.5Z") := rfl
  have hd' : spacedDocument.get? "updatedAt" =
    some (.string ("\u3000\t" ++ "2016-12-31T23:59:60.5Z" ++ "\u00a0")) := rfl
  have hbefore : Text.isBlankText "\u3000\t" = true := by decide
  have hafter : Text.isBlankText "\u00a0" = true := by decide
  have hnow : Command.readNow "2016-12-31T23:59:60.5Z" = .ok leapStamp.instant :=
    Command.readNow_eq_ok_iff.2 ⟨leapStamp, by decide, rfl⟩
  obtain ⟨hupdated, -, -, hnever⟩ := updatedAt_of_padded hd hd' hbefore hafter
  exact ⟨hd, hd', hbefore, hafter, hnow, hupdated, hnever _ hnow .testing .empty⟩

end Document

end RevisionRouting
