import RevisionRouting.Proofs.Command.Check
import RevisionRouting.Proofs.Revision.Texts

/-!
# Files and lines are answered alike

A revision can be given in files, one for each of its parts, or in a line of a
stream. The files are read as values first and the line is read part by part, yet
the answers are the same (`evaluate_output_eq_run`), whatever blanks, escapes,
numbers and repeated names the texts of the parts hold.

A line is cut at its end, and it puts one more container around its parts. So
the files are taken to hold no line end and to nest one container less than they
might (`ObjectFile`).
-/

namespace RevisionRouting

namespace Stream

/-- The line of a revision whose parts have the given texts, inserted as they are. -/
def revisionLine (document : List UInt8) (prior metadata : Option (List UInt8)) : List UInt8 :=
  bytesOf "\x7b\"doc\":" ++ document ++
    (prior.map fun bytes => bytesOf ",\"oldDoc\":" ++ bytes).getD [] ++
    (metadata.map fun bytes => bytesOf ",\"meta\":" ++ bytes).getD [] ++ bytesOf "\x7d"

variable {document : List UInt8} {prior metadata : Option (List UInt8)}

theorem lineFeed_not_mem_revisionLine (hdocument : lineFeed ∉ document)
    (hprior : ∀ bytes ∈ prior, lineFeed ∉ bytes)
    (hmetadata : ∀ bytes ∈ metadata, lineFeed ∉ bytes) :
    lineFeed ∉ revisionLine document prior metadata := by
  -- a missing part adds nothing to the line, and a present one only its name and its bytes
  have hpart {name : String} (hname : lineFeed ∉ bytesOf name) {part : Option (List UInt8)}
      (hpart : ∀ bytes ∈ part, lineFeed ∉ bytes) :
      lineFeed ∉ (part.map fun bytes => bytesOf name ++ bytes).getD [] := by
    cases part with
    | none => exact List.not_mem_nil
    | some bytes => exact fun h => (List.mem_append.1 h).elim hname (hpart bytes rfl)
  simp only [revisionLine, List.mem_append, not_or]
  exact ⟨⟨⟨⟨by decide, hdocument⟩, hpart (by decide) hprior⟩, hpart (by decide) hmetadata⟩,
    by decide⟩

theorem getLast?_revisionLine :
    (revisionLine document prior metadata).getLast? ≠ some carriageReturn := by
  have hbrace : bytesOf "\x7d" = [0x7D] := rfl
  rw [revisionLine, hbrace, List.getLast?_concat]
  decide

theorem isBlankLine_revisionLine :
    isBlankLine (revisionLine document prior metadata) = false := by
  -- one brace is enough for a line not to be blank
  have hbrace : isBlankLine (bytesOf "\x7d") = false := rfl
  unfold isBlankLine at hbrace ⊢
  rw [revisionLine, List.all_append, hbrace, Bool.and_false]

end Stream

namespace Command

/-! ### Files of objects -/

/-- A file whose text is that of an object and can stand in a line. -/
structure ObjectFile (files : Files) extends ObjectText where
  path : String
  bytes : List UInt8
  read : files path = .ok bytes
  decoded : Text.Utf8.decode bytes = .ok chars
  oneLine : Stream.lineFeed ∉ bytes

variable {files : Files}

theorem ObjectFile.readObject_path (f : ObjectFile files) :
    readObject files f.path = .ok f.members := by
  have htext : files.text f.path = .ok (String.ofList f.chars) := by
    refine Json.bind_eq_ok_iff.2 ⟨f.bytes, f.read, ?_⟩
    rw [f.decoded]
    rfl
  rw [readObject, htext]
  change ((Json.Value.parse (String.ofList f.chars)).mapError _ >>= _) = _
  rw [f.parses]
  rfl

theorem readRevision_paths (document : ObjectFile files)
    (prior metadata : Option (ObjectFile files)) :
    readRevision files document.path (prior.map (·.path)) (metadata.map (·.path)) =
      .ok (.ofTexts document.toObjectText (prior.map (·.toObjectText))
        (metadata.map (·.toObjectText))) := by
  have hoptional (part : Option (ObjectFile files)) :
      (part.map (·.path)).mapM (readObject files) = .ok (part.map (·.members)) := by
    cases part with
    | none => rfl
    | some f =>
      change (readObject files f.path >>= _) = _
      rw [f.readObject_path]
      rfl
  -- the document first, then each of the two optional parts as `hoptional` has it
  rw [readRevision, document.readObject_path]
  change ((prior.map (·.path)).mapM (readObject files) >>= _) = _
  rw [hoptional]
  change ((metadata.map (·.path)).mapM (readObject files) >>= _) = _
  rw [hoptional]
  cases prior <;> cases metadata <;> rfl

/-- The line of the files decodes to the text put together from theirs. -/
theorem decode_revisionLine (document : ObjectFile files)
    (prior metadata : Option (ObjectFile files)) :
    Text.Utf8.decode (Stream.revisionLine document.bytes (prior.map (·.bytes))
        (metadata.map (·.bytes))) =
      .ok (Revision.charsOf document.toObjectText (prior.map (·.toObjectText))
        (metadata.map (·.toObjectText))) := by
  -- a part is its name and its file, or nothing where there is no file
  have hpart (name : String) (hname : Text.Utf8.decode (bytesOf name) = .ok name.toList)
      (part : Option (ObjectFile files)) :
      Text.Utf8.decode (((part.map (·.bytes)).map fun bytes => bytesOf name ++ bytes).getD []) =
        .ok ((part.map fun f => name.toList ++ f.chars).getD []) := by
    cases part with
    | none => rfl
    | some f => exact Text.Utf8.decode_append hname f.decoded
  have hopen : Text.Utf8.decode (bytesOf "\x7b\"doc\":") = .ok "\x7b\"doc\":".toList := rfl
  have hclose : Text.Utf8.decode (bytesOf "\x7d") = .ok "\x7d".toList := rfl
  have hdocument := Text.Utf8.decode_append hopen document.decoded
  have hprior := Text.Utf8.decode_append hdocument (hpart ",\"oldDoc\":" rfl prior)
  have hmetadata := Text.Utf8.decode_append hprior (hpart ",\"meta\":" rfl metadata)
  rw [Stream.revisionLine, Text.Utf8.decode_append hmetadata hclose, Revision.charsOf_eq,
    Option.map_map, Option.map_map]
  rfl

/-! ### The two ways -/

theorem responseTo_revisionLine (p : Policy) (now : Time.Instant) (document : ObjectFile files)
    (prior metadata : Option (ObjectFile files)) :
    Stream.responseTo p now (Stream.revisionLine document.bytes (prior.map (·.bytes))
        (metadata.map (·.bytes))) =
      .ofDecision (p.evaluate now (.ofTexts document.toObjectText (prior.map (·.toObjectText))
        (metadata.map (·.toObjectText)))) := by
  rw [Stream.responseTo, decode_revisionLine]
  dsimp only
  rw [Revision.parse_charsOf]

theorem runEvaluate_eq {settings now : String} {l : Loaded} {stamp : Time.Stamp}
    (hload : load files settings = .ok l) (hnow : Time.Stamp.parse now = .ok stamp)
    (document : ObjectFile files) (prior metadata : Option (ObjectFile files))
    (clock : Time.Instant) (id : Invocation) :
    (runEvaluate files clock id settings document.path (prior.map (·.path))
        (metadata.map (·.path)) (some now)).failure = none ∧
      (runEvaluate files clock id settings document.path (prior.map (·.path))
        (metadata.map (·.path)) (some now)).output =
        (Response.ofDecision (l.policy.evaluate stamp.instant
          (.ofTexts document.toObjectText (prior.map (·.toObjectText))
            (metadata.map (·.toObjectText))))).line := by
  -- reading the inputs gives the revision and the time that the texts stand for
  have hinputs : readInputs files clock document.path (prior.map (·.path)) (metadata.map (·.path))
      (some now) = .ok (.ofTexts document.toObjectText (prior.map (·.toObjectText))
        (metadata.map (·.toObjectText)), stamp.instant) := by
    have hread : readNow now = .ok stamp.instant := by
      rw [readNow, hnow]
    rw [readInputs, readRevision_paths]
    change ((readNow now).map some >>= _) = _
    rw [hread]
    rfl
  rw [runEvaluate, hload]
  dsimp only
  -- from here on the command only decides and writes
  rw [hinputs]
  exact ⟨rfl, rfl⟩

/-- **Files and lines are answered alike.** Under the same settings and at the same time, routing a
revision from files succeeds and writes just what a stream does whose one line holds the texts of
the files, whether the line has an end or not. -/
theorem evaluate_output_eq_run {settings now : String} {l : Loaded} {stamp : Time.Stamp}
    (hload : load files settings = .ok l) (hnow : Time.Stamp.parse now = .ok stamp)
    (document : ObjectFile files) (prior metadata : Option (ObjectFile files))
    {ending : List UInt8} (hending : ending ∈ Stream.lineEnds)
    (clock : Time.Instant) (ids ids' : Nat → Invocation) (source : Stream.Source) :
    (execute files clock ids source (.evaluate settings document.path (prior.map (·.path))
        (metadata.map (·.path)) (some now))).failure = none ∧
      (∃ tally, (Stream.run l.policy stamp.instant ids'
        ⟨Stream.revisionLine document.bytes (prior.map (·.bytes)) (metadata.map (·.bytes)) ++
          ending, none⟩ none).result = .ok tally) ∧
      (execute files clock ids source (.evaluate settings document.path (prior.map (·.path))
        (metadata.map (·.path)) (some now))).output =
        (Stream.run l.policy stamp.instant ids'
          ⟨Stream.revisionLine document.bytes (prior.map (·.bytes)) (metadata.map (·.bytes)) ++
            ending, none⟩ none).output := by
  have honeLine (part : Option (ObjectFile files)) :
      ∀ bytes ∈ part.map (·.bytes), Stream.lineFeed ∉ bytes := by
    intro bytes hbytes
    obtain ⟨f, -, rfl⟩ := Option.map_eq_some_iff.1 hbytes
    exact f.oneLine
  have hlines := Stream.filledLines_append_lineEnd
    (Stream.lineFeed_not_mem_revisionLine document.oneLine (honeLine prior) (honeLine metadata))
    -- so the stream reads exactly one line that is filled, with or without a line end
    Stream.getLast?_revisionLine Stream.isBlankLine_revisionLine hending
  -- both outputs are the response to the decision on one and the same revision
  obtain ⟨hresult, hstream⟩ := Stream.run_of_filledLines l.policy stamp.instant ids' hlines
  obtain ⟨hfailure, hfiles⟩ :=
    runEvaluate_eq hload hnow document prior metadata clock (ids 0)
  refine ⟨hfailure, hresult, ?_⟩
  rw [hstream, responseTo_revisionLine]
  exact hfiles

/-! ### An example -/

end Command

theorem Settings.policy_default : Settings.policy {} = .ok .production := by
  have hwindow : Settings.window {} = .ok Policy.production.window := rfl
  have httl : Settings.ttl {} = .ok Policy.production.ttl := rfl
  refine Json.bind_eq_ok_iff.2 ⟨_, hwindow, Json.bind_eq_ok_iff.2 ⟨_, httl, ?_⟩⟩
  exact Json.mapError_eq_ok_iff.2 (Policy.ofMicros_eq_ok .production)

namespace Command

/-- Settings that choose nothing, and a document. -/
def newsFiles : Files := fun path =>
  if path = "settings.json" then .ok (bytesOf "\x7b\x7d")
  else if path = "doc.json" then .ok (bytesOf "\x7b\"channels\": \"news\"\x7d ")
  else .error .missing

/-- The member of the document. -/
def newsMember : Json.MemberText (Json.Reader.value .content 0) where
  name := "channels"
  text := " \"news\"".toList
  content := .string "news"
  name_plain := by decide
  reads := by
    have hread : Json.Reader.value .content 0 " \"news\"".toList = .ok (.string "news", []) := rfl
    -- an item that can be read in front of any more text, as a value is that ends itself
    refine ⟨[], rfl, fun more => Json.Reader.value_append (Nat.le_refl 0) hread ?_⟩
    rintro ⟨n, hn⟩
    cases hn

/-- The file of the document. -/
def newsFile : ObjectFile newsFiles where
  path := "doc.json"
  bytes := bytesOf "\x7b\"channels\": \"news\"\x7d "
  chars := "\x7b\"channels\": \"news\"\x7d ".toList
  members := [("channels", .string "news")]
  parses := by
    -- the generic reader goes over the brackets, then over the one member
    have hobject := Json.Reader.objectTail_eq_ok_iff.2
      ⟨_, Json.writtenMembers_chars (Json.Reader.advances_value 0) newsMember [] [' '], rfl⟩
    have hread : Json.Reader.value .content 1 "\x7b\"channels\": \"news\"\x7d ".toList =
        .ok (.object [("channels", .string "news")], [' ']) :=
      Json.Reader.value_object_iff.2 ⟨_, rfl, hobject⟩
    refine Json.Reader.run_eq_ok_iff.2 ⟨[' '], ?_, rfl⟩
    rw [String.toList_ofList]
    exact Json.Reader.object_append (by decide) hread []
  nesting_le := by decide
  read := rfl
  decoded := rfl
  oneLine := by decide

theorem load_newsFiles : load newsFiles "settings.json" = .ok ⟨{}, .production, .info⟩ := by
  have htext : newsFiles.text "settings.json" = .ok "\x7b\x7d" := rfl
  have hparse : Settings.parse "\x7b\x7d" = .ok {} := rfl
  have hseverity : Settings.severity {} = .ok .info := rfl
  have hvalidate : Settings.validate {} = .ok () :=
    Json.bind_eq_ok_iff.2 ⟨_, hseverity, Json.bind_eq_ok_iff.2 ⟨_, Settings.policy_default, rfl⟩⟩
  have hsettings : Settings.load "\x7b\x7d" = .ok {} :=
    Json.bind_eq_ok_iff.2 ⟨_, Json.mapError_eq_ok_iff.2 hparse,
      Json.bind_eq_ok_iff.2 ⟨_, Json.mapError_eq_ok_iff.2 hvalidate, rfl⟩⟩
  exact load_eq_ok htext hsettings Settings.policy_default hseverity

/-- The beginning of the year 2024. -/
def newYear : Time.Stamp :=
  (Time.Stamp.parse "2024-01-01T00:00:00Z").toOption.get (by decide)

/-- The line in which the document replaces itself. -/
def newsLine : String :=
  "\x7b\"doc\":\x7b\"channels\": \"news\"\x7d ,\"oldDoc\":\x7b\"channels\": \"news\"\x7d \x7d\n"

/-- The document replaces itself, once in files and once in a line. -/
theorem evaluate_news_eq_run :
    load newsFiles "settings.json" = .ok ⟨{}, .production, .info⟩ ∧
      Time.Stamp.parse "2024-01-01T00:00:00Z" = .ok newYear ∧
      (execute newsFiles newYear.instant (fun _ => ⟨"first"⟩) ⟨[], none⟩
        (.evaluate "settings.json" "doc.json" (some "doc.json") none
          (some "2024-01-01T00:00:00Z"))).output =
        (Stream.run .production newYear.instant (fun _ => ⟨"second"⟩)
          ⟨bytesOf newsLine, none⟩ none).output := by
  have hnow : Time.Stamp.parse "2024-01-01T00:00:00Z" = .ok newYear := by decide
  have hending : [Stream.lineFeed] ∈ Stream.lineEnds := by decide
  obtain ⟨-, -, houtput⟩ := evaluate_output_eq_run load_newsFiles hnow newsFile (some newsFile)
    none hending newYear.instant (fun _ => ⟨"first"⟩) (fun _ => ⟨"second"⟩) ⟨[], none⟩
  exact ⟨load_newsFiles, hnow, houtput⟩

end Command

end RevisionRouting
