import RevisionRouting.Proofs.Json.RoundTrip
import RevisionRouting.Proofs.Report.Watchers
import RevisionRouting.Proofs.Stream.Responses
import RevisionRouting.Proofs.Text.ByteOrder

/-!
# A log record cannot be forged

The line of a log record is that of a JSON object, and the object is read back from it
(`LogRecord.parse_text`). The details of a record come from documents, and their names may be
anything, `severity` included. They can neither pass for the event or the severity nor begin a
line of their own: the line is that of one object, and which object that is follows from the
record (`LogRecord.isObject_iff`).

Event and severity are inserted after all details, so a detail under one of these names is
overwritten; no report has one. Since an object is known by what is found in it, the order
in which details are given leaves no trace, unless two have one name.
-/

namespace RevisionRouting

open Json

/-! ### Records are read back -/

namespace LogRecord

/-- The line of a record less its line end. -/
def text (r : LogRecord) : String := r.members.text

theorem line_eq (r : LogRecord) : r.line = r.text ++ "\n" := rfl

/-- What holds of the details and of all texts holds of the members of a record. -/
theorem forall_mem_members {r : LogRecord} {holds : Value → Prop}
    (hfields : ∀ m ∈ r.fields, holds m.2) (hstring : ∀ s, holds (.string s)) :
    ∀ m ∈ r.members, holds m.2 := by
  intro m hm
  -- a member is a detail, or it is the event or the severity
  obtain hm | hm := List.mem_append.1 (Members.mem_of_mem_ofList hm)
  · exact hfields m hm
  · simp only [List.mem_cons, List.not_mem_nil, or_false] at hm
    obtain rfl | rfl := hm <;> exact hstring _

/-- **A log record is read back** from its line if its details can be. -/
theorem parse_text {r : LogRecord} (h : ∀ m ∈ r.fields, m.2.WellFormed (nestingLimit - 1))
    (hfloat : ∀ m ∈ r.fields, m.2.FloatFree) : Value.parse r.text = .ok (.object r.members) := by
  -- an object that was made by insertions is in order
  have hincreasing : r.members.Increasing := Members.increasing_ofList _
  exact Value.parse_text (.object hincreasing (forall_mem_members h fun _ => .string))
    (.object (forall_mem_members hfloat fun _ => .string))

end LogRecord

namespace Report

variable (id : Invocation) (r : Revision)

/-- The parts of a revision stand under their own names in its record. -/
theorem get?_receivedRecord :
    (receivedRecord id r).members.get? "doc" = some r.document.toValue ∧
      (receivedRecord id r).members.get? "old_doc" =
        some (orNull (r.prior.map Document.toValue)) ∧
      (receivedRecord id r).members.get? "meta" = some r.metadata.toValue := by
  simp [receivedRecord, LogRecord.members, Members.ofList, Members.get?_insert]

end Report

/-! ### Forgery -/

/-- The object that a record stands for: names in the order of their bytes, event and severity
under their own names, and under every other name the detail that was given last. -/
structure LogRecord.IsObject (r : LogRecord) (ms : Members) : Prop where
  increasing : ms.Pairwise fun m n => bytesOf m.1 < bytesOf n.1
  event : ms.get? "event" = some (.string r.event.name)
  severity : ms.get? "severity" = some (.string r.severity.name)
  detail : ∀ name, name ≠ "event" → name ≠ "severity" →
    ms.get? name = r.fields.reverse.lookup name

/-- The names of an object increase in the order of their bytes, too. -/
theorem pairwise_bytesOf_iff {ms : Members} :
    (ms.Pairwise fun m n => bytesOf m.1 < bytesOf n.1) ↔ ms.Increasing := by
  -- the order of texts is that of their bytes
  have hlt : (fun m n : String × Value => bytesOf m.1 < bytesOf n.1) = fun m n => m.1 < n.1 := by
    ext m n
    exact Text.Utf8.encode_lt_encode_iff
  rw [hlt, Members.Increasing]

namespace LogRecord

variable {r : LogRecord}

theorem isObject_members (r : LogRecord) : r.IsObject r.members where
  increasing := pairwise_bytesOf_iff.2 (Members.increasing_ofList _)
  event := by rw [get?_members, if_neg (by decide), if_pos rfl]
  severity := by rw [get?_members, if_pos rfl]
  detail name hevent hseverity := by rw [get?_members, if_neg hseverity, if_neg hevent]

/-- **A record stands for one object**, the one that it is written as. -/
theorem isObject_iff {ms : Members} : r.IsObject ms ↔ ms = r.members := by
  constructor
  · intro h
    -- two objects in order are the same if they give the same for each name
    refine (pairwise_bytesOf_iff.1 h.increasing).eq_of_get?_eq (Members.increasing_ofList _) ?_
    intro name
    rw [get?_members]
    split_ifs with hseverity hevent
    · rw [hseverity, h.severity]
    · rw [hevent, h.event]
    · exact h.detail name hevent hseverity
  · rintro rfl
    exact r.isObject_members

/-- Details with different names may come in any order. -/
theorem members_of_perm {fields : List (String × Value)} (h : (r.fields.map Prod.fst).Nodup)
    (hperm : r.fields.Perm fields) : ({ r with fields } : LogRecord).members = r.members := by
  -- the object of the other order has all that makes it the object of `r`
  have hobject : r.IsObject ({ r with fields } : LogRecord).members := by
    obtain ⟨hincreasing, hevent, hseverity, hdetail⟩ :=
      isObject_members ({ r with fields } : LogRecord)
    refine ⟨hincreasing, hevent, hseverity, fun name hne hne' => ?_⟩
    -- each name is looked up among the details, and there the order does not count
    calc ({ r with fields } : LogRecord).members.get? name
        = fields.reverse.lookup name := hdetail name hne hne'
      _ = (Members.ofList fields).get? name := (Members.get?_ofList fields name).symm
      _ = (Members.ofList r.fields).get? name := by rw [Members.ofList_eq_of_perm h hperm]
      _ = r.fields.reverse.lookup name := Members.get?_ofList r.fields name
  exact isObject_iff.1 hobject

/-- A record is read back from its whole line, too. -/
theorem parse_line (h : ∀ m ∈ r.fields, m.2.WellFormed (nestingLimit - 1))
    (hfloat : ∀ m ∈ r.fields, m.2.FloatFree) :
    Value.parse (r.members.text ++ "\n") = .ok (.object r.members) := by
  have hincreasing : r.members.Increasing := Members.increasing_ofList _
  have hlineEnd : "\n".toList = ['\n'] := rfl
  apply Value.parse_text_append
  · exact .object hincreasing (forall_mem_members h fun _ => .string)
  · exact .object (forall_mem_members hfloat fun _ => .string)
  · rw [hlineEnd]
    exact List.forall_mem_singleton.2 rfl

/-- **No detail forges a record or splits its line.** A record stands for one object. A log that
keeps the record gets one more line, the compact text of that object with a line end, and no other
byte of the line is that of a line end. Details with different names may be given in any order. Where
none of the details holds a float and none nests too deep, the line is read back as the object. -/
theorem write_unforgeable (r : LogRecord) : ∃ ms : Members,
    (∀ other, r.IsObject other ↔ other = ms) ∧
      (∀ l : Log, l.least ≤ r.severity →
        bytesOf (l.write r).text = bytesOf l.text ++ bytesOf ms.text ++ [Stream.lineFeed]) ∧
      Stream.lineFeed ∉ bytesOf ms.text ∧
      ((r.fields.map Prod.fst).Nodup → ∀ fields, r.fields.Perm fields →
        ∀ l : Log, l.write { r with fields } = l.write r) ∧
      ((∀ m ∈ r.fields, m.2.WellFormed (nestingLimit - 1)) → (∀ m ∈ r.fields, m.2.FloatFree) →
        Value.parse (ms.text ++ "\n") = .ok (.object ms)) := by
  refine ⟨r.members, fun _ => isObject_iff, fun l h => ?_, ?_, fun h fields hperm l => ?_,
    parse_line⟩
  · -- the log keeps the record, so it gets the line
    calc bytesOf (l.write r).text
        = bytesOf (l.text ++ (r.members.text ++ "\n")) := by rw [l.write_of_keeps h, line]
      _ = bytesOf l.text ++ bytesOf r.members.text ++ bytesOf "\n" := by
          rw [bytesOf_append, bytesOf_append, List.append_assoc]
  · exact lineFeed_not_mem_bytesOf (.object r.members)
  · -- the severity is that of the record, so the two are kept alike
    have hline : ({ r with fields } : LogRecord).line = r.line := by
      rw [line, line, members_of_perm h hperm]
    rw [Log.write, Log.write, hline]

/-- A detail named like the severity is lost, and a line end in a name is escaped. -/
example : (mk .info .policyLoaded
    [("severity", .string "ERROR"), ("note\n", .string "lost"), ("note\n", .null)]).line =
      "\x7b\"event\":\"POLICY_LOADED\",\"note\\n\":null,\"severity\":\"INFO\"\x7d\n" := by
  rfl

end LogRecord

end RevisionRouting
