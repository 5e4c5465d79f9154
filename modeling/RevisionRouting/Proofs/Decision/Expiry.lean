import RevisionRouting.Proofs.Decision.Channels
import RevisionRouting.Proofs.Json.OwnTexts
import RevisionRouting.Proofs.Json.Zero

/-!
# The expiry of a decision

A document that is no resurrection expires when its field `expiry` says, and the field is
passed on unread. That takes two readers to agree. A document looks at the value of the field,
and sorts it by a function of its own (`Expiry.ofValue`). A text that stands for an expiry by
itself is tried as one kind after the other (`Expiry.parseUntagged`): a text first, then a number
of seconds, then any value. The first kind that takes the text is the one by which the function
sorts its value (`Expiry.parse_eq_parseUntagged`), so the document asks for the expiry for
which the text of the field stands, as it is written in the text of the document.

Values that count as missing are left out (`Document.Falsy`). Among the numbers these are all
whose float is a zero, minus zero and what is too small to be a float included.
-/

namespace RevisionRouting

open Json

namespace Expiry

/-! ### Kinds in turn -/

/-- The expiry that a text stands for, read as the first of the three kinds whose own reader
takes the text. -/
def parseUntagged (text : String) : Except Json.Error Expiry :=
  match (Reader.string "a string").run text, Reader.word64.run text with
  | .ok stamp, _ => .ok (.absolute stamp)
  | .error _, .ok seconds => .ok (.relative seconds)
  | .error _, .error _ => (Value.parse text).map .raw

/-- What is neither a text nor an unsigned word is taken as it is. -/
theorem ofValue_eq_raw {v : Value} (hstring : ∀ s, v ≠ .string s)
    (hword : ∀ w, v ≠ .number (.ofUInt64 w)) : ofValue v = .raw v := by
  cases v with
  | string s => exact absurd rfl (hstring s)
  | number n =>
    cases hn : n.toUInt64? with
    | none => rw [ofValue, hn]
    -- any other number is not the word `w`, so only that word has to be excluded
    | some w => exact absurd (congrArg Value.number (Number.toUInt64?_eq_some_iff.1 hn)) (hword w)
  | _ => rfl

/-- **The two readers of an expiry agree,** on what they read and on what they refuse. -/
theorem parse_eq_parseUntagged (text : String) : parse text = parseUntagged text := by
  -- the readers of the first two kinds take exactly the texts of values of their kind
  have hstring (s : String) : (Reader.string "a string").run text = .ok s ↔
      Value.parse text = .ok (.string s) := by
    simp only [(Reader.picks_string nestingLimit "a string").run_eq_ok_iff,
      Value.asString?_eq_some_iff, exists_eq_right]
  have hword (w : UInt64) : Reader.word64.run text = .ok w ↔
      Value.parse text = .ok (.number (.ofUInt64 w)) := by
    simp only [(Reader.picks_word64 nestingLimit).run_eq_ok_iff, Value.asWord?_eq_some_iff,
      exists_eq_right]
  -- one case for each outcome of the three readers, in the order in which they are tried
  rw [parse, parseUntagged]
  cases hs : (Reader.string "a string").run text with
  | ok stamp =>
    rw [(hstring stamp).1 hs]
    rfl
  | error f =>
    cases hw : Reader.word64.run text with
    | ok seconds =>
      rw [(hword seconds).1 hw]
      -- a word is sorted as seconds, since it fits in 64 bits
      exact congrArg Except.ok (ofValue_ofUInt64 seconds)
    | error f' =>
      cases hv : Value.parse text with
      | error e => rfl
      | ok v =>
        -- either of the first two readers would have taken a value of its kind
        refine congrArg Except.ok (ofValue_eq_raw ?_ ?_)
        · rintro s rfl
          rw [(hstring s).2 hv] at hs
          cases hs
        · rintro w rfl
          rw [(hword w).2 hv] at hw
          cases hw

end Expiry

namespace Document

/-! ### Values that count as missing -/

/-- The values that count as missing. -/
inductive Falsy : Value → Prop
  | null : Falsy .null
  | bool : Falsy (.bool false)
  | string : Falsy (.string "")
  /-- A number in whatever spelling, if its float is a zero. -/
  | number {n : Number} (h : n.toFloat == 0.0) : Falsy (.number n)

theorem isFalsy_iff {v : Value} : isFalsy v = true ↔ Falsy v := by
  constructor
  · -- only the numbers need an argument, as their zeros have many spellings
    intro h
    cases v with
    | null => exact .null
    | bool b =>
      cases b with
      | false => exact .bool
      | true => cases h
    | number n => exact .number (Number.isZero_iff.1 h)
    | string s =>
      obtain rfl := of_decide_eq_true h
      exact .string
    | array items => cases h
    | object members => cases h
  · intro h
    cases h with
    | number h => exact Number.isZero_iff.2 h
    | _ => rfl

theorem expiry_of_falsy {d : Document} (h : ∀ v, d.get? "expiry" = some v → Falsy v) :
    d.expiry = none := by
  rw [expiry]
  split
  · rfl
  · next v hv => exact if_pos (isFalsy_iff.2 (h v hv))

theorem expiry_of_not_falsy {d : Document} {v : Value} (hv : d.get? "expiry" = some v)
    (h : ¬ Falsy v) : d.expiry = some (.ofValue v) := by
  rw [expiry, hv]
  exact if_neg fun hfalsy => h (isFalsy_iff.1 hfalsy)

/-! ### Decisions -/

/-- Under every policy and at any time, a decision on the document that takes the normal path is
written with this text as its expiry. -/
def WritesExpiry (d : Document) (expiry : String) : Prop :=
  ∀ (p : Policy) (now : Time.Instant) (r : Revision), r.document = d →
    (p.evaluate now r).path = .normal → (p.evaluate now r).toValue.text =
      "\x7b\"channels\":" ++ (Value.array (d.channels.names.map .string)).text ++
        ",\"expiry\":" ++ expiry ++ ",\"shortCircuited\":false\x7d"

theorem writesExpiry (d : Document) :
    d.WritesExpiry ((d.expiry.map Expiry.toValue).getD .null).text := by
  rintro p now r rfl hpath
  rw [Policy.evaluate_of_path hpath, Decision.text_normal]

/-- **The expiry of a document is passed on as it is.** If the field is missing, or its value
counts as missing, there is none, and a decision is written with `null`. Otherwise the document
asks for the expiry for which the text of the field stands by itself, and a decision is written
with the compact text of its value. -/
theorem expiry_passed_on {text : String} {d : Document} (h : Document.parse text = .ok d) :
    ((∀ v, d.get? "expiry" = some v → Falsy v) → d.expiry = none ∧ d.WritesExpiry "null") ∧
    ∀ v, d.get? "expiry" = some v → ¬ Falsy v →
      (∃ own e, Value.memberText? text "expiry" = some own ∧ Expiry.parse own = .ok e ∧
        Expiry.parseUntagged own = .ok e ∧ d.expiry = some e) ∧ d.WritesExpiry v.text := by
  -- either way the text of a decision holds the value of the expiry, or `null` where there is none
  have hwrites := d.writesExpiry
  refine ⟨fun hmissing => ?_, fun v hv hpresent => ?_⟩
  · have hnone := expiry_of_falsy hmissing
    rw [hnone] at hwrites
    exact ⟨hnone, hwrites⟩
  · have hexpiry := expiry_of_not_falsy hv hpresent
    rw [hexpiry, Option.map_some, Option.getD_some, Expiry.toValue_ofValue] at hwrites
    -- the text of the field stands for its value
    obtain ⟨own, hown, hparse⟩ := Value.exists_memberText (Document.parse_eq_ok_iff.1 h) hv
    have he : Expiry.parse own = .ok (.ofValue v) := by
      rw [Expiry.parse, hparse]
      rfl
    exact ⟨⟨own, .ofValue v, hown, he, Expiry.parse_eq_parseUntagged own ▸ he, hexpiry⟩, hwrites⟩

example : (Document.parse "\x7b\"expiry\": -1e-400\x7d").toOption.map (·.expiry.isNone) =
    some true := by
  decide +kernel

/-- A document that is to stay for two hours. -/
def reminder : Document := ⟨[("expiry", .number (.integer 7200 (by decide)))]⟩

theorem parse_reminder : Document.parse "\x7b\"expiry\":7200\x7d" = .ok reminder := by
  have hwellFormed : reminder.toValue.WellFormed nestingLimit :=
    .object (List.pairwise_singleton _ _) (List.forall_mem_singleton.2 .number)
  have hfloat : reminder.toValue.FloatFree := .object (List.forall_mem_singleton.2 .integer)
  have htext : reminder.toValue.text = "\x7b\"expiry\":7200\x7d" := rfl
  rw [Document.parse_eq_ok_iff, ← htext]
  exact Value.parse_text hwellFormed hfloat

/-- The two hours are passed on, as the number of seconds that they were written as. -/
theorem reminder_passed_on : Document.parse "\x7b\"expiry\":7200\x7d" = .ok reminder ∧
    reminder.get? "expiry" = some (.number (.integer 7200 (by decide))) ∧
    (∃ own e, Value.memberText? "\x7b\"expiry\":7200\x7d" "expiry" = some own ∧
      Expiry.parse own = .ok e ∧ Expiry.parseUntagged own = .ok e ∧ reminder.expiry = some e) ∧
    reminder.WritesExpiry "7200" := by
  have hv : reminder.get? "expiry" = some (.number (.integer 7200 (by decide))) := rfl
  have hpresent : ¬ Falsy (.number (.integer 7200 (by decide))) := by
    rw [← isFalsy_iff]
    decide
  -- the number is written with its digits
  have htext : (Value.number (.integer 7200 (by decide))).text = "7200" := rfl
  obtain ⟨hown, hwrites⟩ := (expiry_passed_on parse_reminder).2 _ hv hpresent
  rw [htext] at hwrites
  exact ⟨parse_reminder, hv, hown, hwrites⟩

end Document

end RevisionRouting
