import RevisionRouting.Proofs.Command.Check

/-!
# The first failure ends a command

Routing a revision from files looks at several things in turn (`Stage`): at the settings, at the
file of each part of the revision that is given, and at the time if one is given. Each can fail in
several ways, and each way has its own code and message (`Stage.FailsWith`). The command fails as
the first stage does that fails at all, and then nothing has been routed or written; if all pass, it
writes its one response (`Command.evaluate_all_or_nothing`).

What is read from the files is read by computations that stop at their first error. Such a
computation goes through stages if it fails as the first of them does (`GoesThrough`); one after
another they go through the stages of both (`GoesThrough.bind`), so each stage has to be
looked at by itself only.
-/

namespace RevisionRouting

/-! ### Stages -/

/-- What has to be in order before a revision is routed. -/
inductive Stage where
  | settings (path : String)
  /-- A file has to hold a JSON object. -/
  | object (path : String)
  /-- A text has to be a time stamp. -/
  | time (text : String)

/-- The stages of routing a revision from files, in their order. -/
def Stage.all (settings document : String) (prior metadata now : Option String) : List Stage :=
  .settings settings :: .object document ::
    ((prior.map Stage.object).toList ++ (metadata.map Stage.object).toList ++
      (now.map Stage.time).toList)

/-- A file cannot be read as text, for a reason. -/
inductive Files.Unreadable (files : Files) (path : String) : ReadFault → Prop
  | refused {fault : ReadFault} : files path = .error fault → Unreadable files path fault
  | notUtf8 {bytes : List UInt8} {fault : Text.Utf8.Fault} : files path = .ok bytes →
      Text.Utf8.decode bytes = .error fault → Unreadable files path .notUtf8

/-- The ways in which a stage fails. -/
inductive Stage.FailsWith (files : Files) : Stage → Failure → Prop
  | settingsUnreadable {path : String} {fault : ReadFault} : files.Unreadable path fault →
      FailsWith files (.settings path)
        ⟨.settings, "Failed to read config '" ++ path ++ "': " ++ fault.message⟩
  | settingsMalformed {path text : String} {e : Json.Error} : files.text path = .ok text →
      Settings.parse text = .error e →
      FailsWith files (.settings path) ⟨.settings, "Invalid config JSON: " ++ e.message⟩
  | settingsInvalid {path text : String} {s : Settings} {fault : SettingsFault} :
      files.text path = .ok text → Settings.parse text = .ok s → s.validate = .error fault →
      FailsWith files (.settings path) ⟨.settings, "Invalid configuration: " ++ fault.reason⟩
  | objectUnreadable {path : String} {fault : ReadFault} : files.Unreadable path fault →
      FailsWith files (.object path)
        ⟨.io, "Failed to read '" ++ path ++ "': " ++ fault.message⟩
  | objectMalformed {path text : String} {e : Json.Error} : files.text path = .ok text →
      Json.Value.parse text = .error e →
      FailsWith files (.object path) ⟨.input, "JSON error: " ++ e.message⟩
  | notAnObject {path text : String} {v : Json.Value} : files.text path = .ok text →
      Json.Value.parse text = .ok v → (∀ ms, v ≠ .object ms) →
      FailsWith files (.object path)
        ⟨.input, "Revision body must be a JSON object, got " ++ v.kindName⟩
  | notAStamp {text : String} {fault : Time.StampFault} : Time.Stamp.parse text = .error fault →
      FailsWith files (.time text)
        ⟨.timestamp, "'" ++ text ++ "' is not an RFC 3339 timestamp: " ++ fault.message⟩

/-- A stage passes if it does not fail. -/
def Stage.Passes (files : Files) (stage : Stage) : Prop := ∀ f, ¬ stage.FailsWith files f

/-! ### First failures -/

/-- Some stages fail as the first of them does that fails at all. -/
inductive FirstFailure (files : Files) : List Stage → Failure → Prop
  | here {stage : Stage} {later : List Stage} {f : Failure} : stage.FailsWith files f →
      FirstFailure files (stage :: later) f
  | later {stage : Stage} {stages : List Stage} {f : Failure} : stage.Passes files →
      FirstFailure files stages f → FirstFailure files (stage :: stages) f

section FirstFailure

variable {files : Files} {f : Failure}

theorem firstFailure_singleton {stage : Stage} :
    FirstFailure files [stage] f ↔ stage.FailsWith files f := by
  refine ⟨fun h => ?_, .here⟩
  obtain h | ⟨-, h⟩ := h
  · exact h
  · cases h

theorem FirstFailure.not_passes {stages : List Stage} (h : FirstFailure files stages f) :
    ¬ ∀ s ∈ stages, s.Passes files := by
  induction h with
  | here hfails => exact fun hpass => hpass _ List.mem_cons_self _ hfails
  -- all before it pass, so the failure is among the others
  | later _ _ ih => exact fun hpass => ih fun s hs => hpass s (List.mem_cons_of_mem _ hs)

/-- Unless a first stage fails, all pass. -/
theorem passes_of_not_firstFailure {stages : List Stage}
    (h : ∀ f, ¬ FirstFailure files stages f) : ∀ s ∈ stages, s.Passes files := by
  induction stages with
  | nil => exact fun s hs => absurd hs List.not_mem_nil
  | cons stage stages ih =>
    have hstage : stage.Passes files := fun f hf => h f (.here hf)
    have hlater := ih fun f hf => h f (.later hstage hf)
    exact List.forall_mem_cons.2 ⟨hstage, hlater⟩

/-- Of two runs of stages the second counts only if the first passes. -/
theorem firstFailure_append {stages more : List Stage} :
    FirstFailure files (stages ++ more) f ↔
      FirstFailure files stages f ∨
        (∀ s ∈ stages, s.Passes files) ∧ FirstFailure files more f := by
  induction stages with
  | nil =>
    -- there is no first stage that could fail
    refine ⟨fun h => .inr ⟨fun s hs => absurd hs List.not_mem_nil, h⟩, ?_⟩
    rintro (h | ⟨-, h⟩)
    · cases h
    · exact h
  | cons stage stages ih =>
    constructor
    · -- read off which of the stages fails: this one, another of the first run, or one of the
      -- second
      rintro (h | ⟨hstage, h⟩)
      · exact .inl (.here h)
      · obtain h | ⟨hpass, h⟩ := ih.1 h
        · exact .inl (.later hstage h)
        · exact .inr ⟨List.forall_mem_cons.2 ⟨hstage, hpass⟩, h⟩
    · -- put together again: the second run needs every stage of the first to pass
      rintro ((h | ⟨hstage, h⟩) | ⟨hpass, h⟩)
      · exact .here h
      · exact .later hstage (ih.2 (.inl h))
      · obtain ⟨hstage, hpass⟩ := List.forall_mem_cons.1 hpass
        exact .later hstage (ih.2 (.inr ⟨hpass, h⟩))

/-- A stage that fails is the first if all before it pass. -/
theorem firstFailure_of_split {before after : List Stage} {stage : Stage}
    (hbefore : ∀ s ∈ before, s.Passes files) (h : stage.FailsWith files f) :
    FirstFailure files (before ++ stage :: after) f :=
  firstFailure_append.2 (.inr ⟨hbefore, .here h⟩)

end FirstFailure

/-! ### Computations that go through stages -/

/-- A computation goes through stages if it fails as they do. -/
def GoesThrough {α : Type} (files : Files) (x : Except Failure α) (stages : List Stage) : Prop :=
  ∀ f, x = .error f ↔ FirstFailure files stages f

namespace GoesThrough

variable {α β : Type} {files : Files} {x : Except Failure α} {stages more : List Stage}

/-- A computation that comes to its end has passed all its stages. -/
theorem passes {a : α} (h : GoesThrough files x stages) (hx : x = .ok a) :
    ∀ s ∈ stages, s.Passes files := by
  refine passes_of_not_firstFailure fun f hf => ?_
  have herror := (h f).2 hf
  rw [hx] at herror
  cases herror

/-- A computation all whose stages pass comes to its end. -/
theorem exists_ok (h : GoesThrough files x stages) (hpass : ∀ s ∈ stages, s.Passes files) :
    ∃ a, x = .ok a := by
  -- an error would be a first failure, and there is none
  cases hx : x with
  | ok a => exact ⟨a, rfl⟩
  | error f => exact absurd hpass ((h f).1 hx).not_passes

theorem ok (a : α) : GoesThrough files (.ok a) [] := by
  refine fun f => ⟨fun h => ?_, fun h => ?_⟩ <;> cases h

/-- One computation after another goes through the stages of both. -/
theorem bind {g : α → Except Failure β} (hx : GoesThrough files x stages)
    (hg : ∀ a, GoesThrough files (g a) more) : GoesThrough files (x >>= g) (stages ++ more) := by
  intro f
  rw [firstFailure_append]
  cases h : x with
  | error e =>
    -- the first has failed, so what comes after it does not count
    have hnot := ((hx e).1 h).not_passes
    rw [← hx f, h]
    exact ⟨fun he => .inl (Except.error.inj he ▸ rfl),
      fun hor => hor.elim (fun he => Except.error.inj he ▸ rfl) fun hpass => absurd hpass.1 hnot⟩
  | ok a =>
    -- the first has passed all its stages, so what counts is what comes after it
    have hpass := hx.passes h
    change g a = .error f ↔ _
    rw [hg a f]
    exact ⟨fun hmore => .inr ⟨hpass, hmore⟩,
      fun hor => hor.elim (fun hfirst => absurd hpass hfirst.not_passes) And.right⟩

theorem map {g : α → β} (hx : GoesThrough files x stages) :
    GoesThrough files (x.map g) stages := by
  intro f
  rw [← hx f]
  cases x with
  | error e => exact ⟨fun h => Except.error.inj h ▸ rfl, fun h => Except.error.inj h ▸ rfl⟩
  | ok a => exact ⟨nofun, nofun⟩

/-- What is only looked at if it is given goes through a stage only then. -/
theorem mapM {read : String → Except Failure α} {stage : String → Stage}
    (h : ∀ text, GoesThrough files (read text) [stage text]) (given : Option String) :
    GoesThrough files (given.mapM read) (given.map stage).toList := by
  cases given with
  | none => exact ok none
  | some text => exact (h text).map

end GoesThrough

/-! ### What passes -/

/-- What a computation makes of something that may be given. -/
theorem mapM_eq_ok_iff {α ε β : Type} {read : α → Except ε β} {given : Option α} {b : Option β} :
    given.mapM read = .ok b ↔ Option.Rel (fun a b => read a = .ok b) given b := by
  -- where nothing is given, nothing is read
  cases given with
  | none => exact ⟨fun h => Except.ok.inj h ▸ .none, fun h => by cases h; rfl⟩
  | some a =>
    change (read a).map some = _ ↔ _
    rw [Json.map_eq_ok_iff]
    constructor
    · rintro ⟨c, hc, rfl⟩
      exact .some hc
    · rintro (hc | _)
      exact ⟨_, hc, rfl⟩

/-- A file holds settings that make sense, which take effect as given. -/
structure Files.HoldsSettings (files : Files) (path : String) (l : Command.Loaded) : Prop where
  loaded : ∃ text, files.text path = .ok text ∧ Settings.load text = .ok l.settings
  policy : l.settings.policy = .ok l.policy
  severity : l.settings.severity = .ok l.least

/-- A file holds a JSON object with these members. -/
def Files.HoldsObject (files : Files) (path : String) (ms : Json.Members) : Prop :=
  ∃ text, files.text path = .ok text ∧ Json.Value.parse text = .ok (.object ms)

/-- A text is the stamp of a time. -/
def GivesTime (text : String) (t : Time.Instant) : Prop :=
  ∃ stamp, Time.Stamp.parse text = .ok stamp ∧ stamp.instant = t

/-! ### The stages one by one -/

variable {files : Files} {path text : String} {f : Failure}

theorem Files.text_of_decode {bytes : List UInt8} {cs : List Char} (hread : files path = .ok bytes)
    (hdecode : Text.Utf8.decode bytes = .ok cs) : files.text path = .ok (String.ofList cs) := by
  refine Json.bind_eq_ok_iff.2 ⟨bytes, hread, ?_⟩
  rw [hdecode]
  rfl

theorem Files.text_of_unreadable {fault : ReadFault} (h : files.Unreadable path fault) :
    files.text path = .error fault := by
  -- it was not read at all, or read and not decoded
  obtain hread | ⟨hread, hdecode⟩ := h
  · rw [text, hread]
    rfl
  · rw [text, hread]
    dsimp only [bind, Except.bind]
    rw [hdecode]

/-- There are no other reasons not to have the text of a file. -/
theorem Files.text_eq_error_iff {fault : ReadFault} :
    files.text path = .error fault ↔ files.Unreadable path fault := by
  refine ⟨fun h => ?_, text_of_unreadable⟩
  cases hread : files path with
  | error reason =>
    -- the file itself is refused
    have hunreadable : files.Unreadable path reason := .refused hread
    rw [text_of_unreadable hunreadable] at h
    exact Except.error.inj h ▸ hunreadable
  | ok bytes =>
    cases hdecode : Text.Utf8.decode bytes with
    | error reason =>
      -- the file is read, and its bytes are no text
      have hunreadable : files.Unreadable path .notUtf8 := .notUtf8 hread hdecode
      rw [text_of_unreadable hunreadable] at h
      exact Except.error.inj h ▸ hunreadable
    | ok cs =>
      -- the file is a text, against `h`
      rw [text_of_decode hread hdecode] at h
      cases h

theorem keptFrom_append (least : Severity) (records more : List LogRecord) :
    keptFrom least (records ++ more) = keptFrom least records ++ keptFrom least more :=
  List.filter_append records more

namespace Command

theorem load_of_unreadable {fault : ReadFault} (h : files.text path = .error fault) :
    load files path =
      .error ⟨.settings, "Failed to read config '" ++ path ++ "': " ++ fault.message⟩ := by
  rw [load, loadSettings, h]
  rfl

theorem load_of_error {e : SettingsError} (htext : files.text path = .ok text)
    (h : Settings.load text = .error e) : load files path = .error ⟨.settings, e.message⟩ := by
  rw [load, loadSettings, htext]
  change (Settings.load text >>= _).mapError _ = _
  rw [h]
  rfl

theorem load_of_malformed {e : Json.Error} (htext : files.text path = .ok text)
    (h : Settings.parse text = .error e) :
    load files path = .error ⟨.settings, "Invalid config JSON: " ++ e.message⟩ := by
  refine load_of_error (e := .malformed e) htext ?_
  rw [Settings.load, h]
  rfl

theorem load_of_invalid {s : Settings} {fault : SettingsFault}
    (htext : files.text path = .ok text) (hs : Settings.parse text = .ok s)
    (h : s.validate = .error fault) :
    load files path = .error ⟨.settings, "Invalid configuration: " ++ fault.reason⟩ := by
  refine load_of_error (e := .invalid fault) htext ?_
  rw [Settings.load, hs]
  change (s.validate.mapError _ >>= _) = _
  rw [h]
  rfl

theorem load_eq_ok_iff {l : Loaded} : load files path = .ok l ↔ files.HoldsSettings path l := by
  constructor
  · -- reading, understanding, the policy and the severity, each with its own code
    intro h
    obtain ⟨text, htext, h⟩ := Json.bind_eq_ok_iff.1 (Json.mapError_eq_ok_iff.1 h)
    obtain ⟨s, hs, h⟩ := Json.bind_eq_ok_iff.1 h
    obtain ⟨p, hp, h⟩ := Json.bind_eq_ok_iff.1 h
    obtain ⟨least, hleast, h⟩ := Json.bind_eq_ok_iff.1 h
    cases h
    exact ⟨⟨text, Json.mapError_eq_ok_iff.1 htext, hs⟩, Json.mapError_eq_ok_iff.1 hp,
      Json.mapError_eq_ok_iff.1 hleast⟩
  · rintro ⟨⟨text, htext, hs⟩, hp, hleast⟩
    exact load_eq_ok htext hs hp hleast

/-- Settings are read, understood and looked at, and nothing else can go wrong about them. -/
theorem goesThrough_load (files : Files) (path : String) :
    GoesThrough files (load files path) [.settings path] := by
  intro f
  rw [firstFailure_singleton]
  constructor
  · intro h
    -- one case for each step that may fail, in the order in which they are taken
    cases htext : files.text path with
    | error fault =>
      rw [load_of_unreadable htext] at h
      cases h
      exact .settingsUnreadable (Files.text_eq_error_iff.1 htext)
    | ok text =>
      cases hs : Settings.parse text with
      | error e =>
        rw [load_of_malformed htext hs] at h
        cases h
        exact .settingsMalformed htext hs
      | ok s =>
        cases hvalid : s.validate with
        | error fault =>
          rw [load_of_invalid htext hs hvalid] at h
          cases h
          exact .settingsInvalid htext hs hvalid
        | ok u =>
          -- settings that make sense have a policy and a severity
          have hacceptable := Settings.acceptable_of_validate hvalid
          obtain ⟨p, hp, -⟩ := Settings.exists_policy hacceptable
          obtain ⟨least, hleast⟩ :=
            Settings.severity_of_not (Settings.acceptable_iff.1 hacceptable .severity)
          have hloaded := Settings.load_eq_ok_iff.2 ⟨hs, hacceptable⟩
          rw [load_eq_ok htext hloaded hp hleast] at h
          cases h
  · -- each way to fail is an equation above
    intro h
    cases h with
    | settingsUnreadable h => exact load_of_unreadable (Files.text_eq_error_iff.2 h)
    | settingsMalformed htext hs => exact load_of_malformed htext hs
    | settingsInvalid htext hs hvalid => exact load_of_invalid htext hs hvalid

theorem readObject_of_unreadable {fault : ReadFault} (h : files.text path = .error fault) :
    readObject files path =
      .error ⟨.io, "Failed to read '" ++ path ++ "': " ++ fault.message⟩ := by
  rw [readObject, h]
  rfl

/-- A file with a text holds what the text stands for, if that is an object. -/
theorem readObject_of_text (htext : files.text path = .ok text) :
    readObject files path = ((Json.Value.parse text).mapError .ofJson >>= fun v =>
      (Json.Members.ofValue v).mapError .ofNotAnObject) := by
  rw [readObject, htext]
  rfl

theorem readObject_of_malformed {e : Json.Error} (htext : files.text path = .ok text)
    (h : Json.Value.parse text = .error e) :
    readObject files path = .error ⟨.input, "JSON error: " ++ e.message⟩ := by
  rw [readObject_of_text htext, h]
  rfl

theorem readObject_of_value {v : Json.Value} (htext : files.text path = .ok text)
    (h : Json.Value.parse text = .ok v) :
    readObject files path = (Json.Members.ofValue v).mapError .ofNotAnObject := by
  rw [readObject_of_text htext, h]
  rfl

theorem ofValue_of_ne_object {v : Json.Value} (h : ∀ ms, v ≠ .object ms) :
    Json.Members.ofValue v = .error ⟨v.kindName⟩ := by
  cases v with
  | object ms => exact absurd rfl (h ms)
  | _ => rfl

theorem readObject_eq_ok_iff {ms : Json.Members} :
    readObject files path = .ok ms ↔ files.HoldsObject path ms := by
  constructor
  · -- an object has passed three steps
    intro h
    obtain ⟨text, htext, h⟩ := Json.bind_eq_ok_iff.1 h
    obtain ⟨v, hv, h⟩ := Json.bind_eq_ok_iff.1 h
    rw [Json.mapError_eq_ok_iff] at htext hv h
    cases v with
    | object members =>
      cases h
      exact ⟨text, htext, hv⟩
    | _ => cases h
  · rintro ⟨text, htext, hv⟩
    rw [readObject_of_value htext hv]
    rfl

/-- A file is read, understood and has to hold an object. -/
theorem goesThrough_readObject (files : Files) (path : String) :
    GoesThrough files (readObject files path) [.object path] := by
  intro f
  rw [firstFailure_singleton]
  constructor
  · intro h
    -- one case for each step that may fail, in the order in which they are taken
    cases htext : files.text path with
    | error fault =>
      rw [readObject_of_unreadable htext] at h
      cases h
      exact .objectUnreadable (Files.text_eq_error_iff.1 htext)
    | ok text =>
      cases hv : Json.Value.parse text with
      | error e =>
        rw [readObject_of_malformed htext hv] at h
        cases h
        exact .objectMalformed htext hv
      | ok v =>
        -- what was read is a value, so it can only be refused for being no object
        rw [readObject_of_value htext hv] at h
        have hobject (ms : Json.Members) : v ≠ .object ms := by
          rintro rfl
          cases h
        rw [ofValue_of_ne_object hobject] at h
        cases h
        exact .notAnObject htext hv hobject
  · intro h
    cases h with
    | objectUnreadable h => exact readObject_of_unreadable (Files.text_eq_error_iff.2 h)
    | objectMalformed htext hv => exact readObject_of_malformed htext hv
    | notAnObject htext hv hobject =>
      -- the message names the kind of the value, whatever the value is
      rw [readObject_of_value htext hv, ofValue_of_ne_object hobject]
      rfl

theorem readNow_eq_ok_iff {t : Time.Instant} : readNow text = .ok t ↔ GivesTime text t := by
  rw [readNow, GivesTime]
  -- a text that is no stamp gives no time
  cases Time.Stamp.parse text with
  | error fault => exact ⟨nofun, nofun⟩
  | ok stamp =>
    constructor
    · intro h
      exact ⟨stamp, rfl, Except.ok.inj h⟩
    · rintro ⟨stamp, h, rfl⟩
      cases h
      rfl

theorem goesThrough_readNow (files : Files) (text : String) :
    GoesThrough files (readNow text) [.time text] := by
  intro f
  rw [firstFailure_singleton, readNow]
  constructor
  · intro h
    -- parsing the stamp is the one thing that may fail
    cases hstamp : Time.Stamp.parse text with
    | error fault =>
      rw [hstamp] at h
      cases h
      exact .notAStamp hstamp
    | ok stamp =>
      rw [hstamp] at h
      cases h
  · intro h
    cases h with
    | notAStamp hstamp =>
      rw [hstamp]
      rfl

/-! ### All stages -/

theorem goesThrough_readInputs (files : Files) (clock : Time.Instant) (document : String)
    (prior metadata now : Option String) :
    GoesThrough files (readInputs files clock document prior metadata now)
      (.object document ::
        ((prior.map Stage.object).toList ++ (metadata.map Stage.object).toList ++
          (now.map Stage.time).toList)) := by
  -- the revision first, its parts in their order
  have hrevision : GoesThrough files (readRevision files document prior metadata)
      ([.object document] ++ ((prior.map Stage.object).toList ++
        ((metadata.map Stage.object).toList ++ []))) :=
    (goesThrough_readObject files document).bind fun d =>
      (GoesThrough.mapM (goesThrough_readObject files) prior).bind fun p =>
        (GoesThrough.mapM (goesThrough_readObject files) metadata).bind fun m => .ok _
  -- the time comes after all parts
  have hinputs : GoesThrough files (readInputs files clock document prior metadata now)
      (([.object document] ++ ((prior.map Stage.object).toList ++
        ((metadata.map Stage.object).toList ++ []))) ++ ((now.map Stage.time).toList ++ [])) :=
    hrevision.bind fun r =>
      (GoesThrough.mapM (goesThrough_readNow files) now).bind fun t => .ok _
  -- the empty runs at the end come from `ok`
  rwa [List.append_nil, List.append_nil] at hinputs

theorem readInputs_eq_ok {clock : Time.Instant} {document : String}
    {prior metadata now : Option String} {r : Revision} {t : Time.Instant}
    (h : readInputs files clock document prior metadata now = .ok (r, t)) :
    ∃ d p m given, files.HoldsObject document d ∧ Option.Rel files.HoldsObject prior p ∧
      Option.Rel files.HoldsObject metadata m ∧ Option.Rel GivesTime now given ∧
      r = ⟨⟨d⟩, p.map .mk, (m.map .mk).getD .empty⟩ ∧ t = given.getD clock := by
  -- undo the five reads from the outside in
  obtain ⟨r', hr, h⟩ := Json.bind_eq_ok_iff.1 h
  obtain ⟨given, hgiven, h⟩ := Json.bind_eq_ok_iff.1 h
  cases h
  obtain ⟨d, hd, hr⟩ := Json.bind_eq_ok_iff.1 hr
  obtain ⟨p, hp, hr⟩ := Json.bind_eq_ok_iff.1 hr
  obtain ⟨m, hm, hr⟩ := Json.bind_eq_ok_iff.1 hr
  cases hr
  simp only [mapM_eq_ok_iff, readObject_eq_ok_iff, readNow_eq_ok_iff] at hd hp hm hgiven
  exact ⟨d, p, m, given, hd, hp, hm, hgiven, rfl, rfl⟩

/-- A command with a stage that fails has not come to route anything. -/
theorem runEvaluate_of_firstFailure {settings document : String} {prior metadata now : Option String}
    (h : FirstFailure files (Stage.all settings document prior metadata now) f)
    (clock : Time.Instant) (id : Invocation) :
    let e := runEvaluate files clock id settings document prior metadata now
    e.failure = some f ∧ e.output = "" ∧
      (e.log = [] ∨ ∃ l, files.HoldsSettings settings l ∧
        e.log = keptFrom l.least [policyRecord l.policy]) := by
  intro e
  -- the settings on one side, what is read afterwards on the other
  rw [Stage.all, ← List.singleton_append, firstFailure_append] at h
  obtain hsettings | ⟨hpass, hinputs⟩ := h
  · -- nothing was loaded, so there is no log either
    have hload := (goesThrough_load files settings f).2 hsettings
    have he : e = ⟨"", [], some f⟩ := by
      change runEvaluate files clock id settings document prior metadata now = _
      rw [runEvaluate, hload]
    rw [he]
    exact ⟨rfl, rfl, .inl rfl⟩
  · -- the settings are in force, so the log has the record of the policy
    obtain ⟨l, hload⟩ := (goesThrough_load files settings).exists_ok hpass
    have hread := (goesThrough_readInputs files clock document prior metadata now f).2 hinputs
    have he : e = ⟨"", l.log, some f⟩ := by
      change runEvaluate files clock id settings document prior metadata now = _
      rw [runEvaluate, hload]
      dsimp only
      rw [hread]
    rw [he]
    exact ⟨rfl, rfl, .inr ⟨l, load_eq_ok_iff.1 hload, rfl⟩⟩

/-- What has been read is routed, reported and answered. -/
theorem runEvaluate_of_read {settings document : String} {prior metadata now : Option String}
    {clock t : Time.Instant} {l : Loaded} {r : Revision} (hload : load files settings = .ok l)
    (hread : readInputs files clock document prior metadata now = .ok (r, t)) (id : Invocation) :
    runEvaluate files clock id settings document prior metadata now =
      ⟨(Response.ofDecision (l.policy.evaluate t r)).line,
        keptFrom l.least [policyRecord l.policy, Report.receivedRecord id r,
          Report.routedRecord id (l.policy.evaluate t r)], none⟩ := by
  rw [runEvaluate, hload]
  dsimp only
  rw [hread]
  -- the log of the policy comes first, and then that of the two reports
  have hlog := keptFrom_append l.least [policyRecord l.policy]
    [Report.receivedRecord id r, Report.routedRecord id (l.policy.evaluate t r)]
  exact congrArg (Execution.mk _ · none) hlog.symm

/-- **The first failure ends a command, and nothing comes of what was read before.** A revision that
is to be routed from files goes through its stages. If one fails and all before it pass, the command
fails as that one does: with the code and the message of this way to fail, without any output, and
without a word about a revision in the log, where at most the policy stands. If all stages
pass, the files hold settings and objects; the command does not fail, and its output is the line
that answers with the decision on the revision made of these objects, at the time that is given or
else at that of the clock. -/
theorem evaluate_all_or_nothing (files : Files) (clock : Time.Instant) (ids : Nat → Invocation)
    (source : Stream.Source) (settings document : String) (prior metadata now : Option String) :
    let e := execute files clock ids source (.evaluate settings document prior metadata now)
    let stages := Stage.all settings document prior metadata now
    (∀ (before after : List Stage) (stage : Stage) (f : Failure),
      stages = before ++ stage :: after → (∀ s ∈ before, s.Passes files) →
      stage.FailsWith files f →
        e.failure = some f ∧ e.exitCode = 1 ∧ e.output = "" ∧
        (e.log = [] ∨ ∃ l, files.HoldsSettings settings l ∧
          e.log = keptFrom l.least [policyRecord l.policy])) ∧
    ((∀ stage ∈ stages, stage.Passes files) →
      ∃ (l : Loaded) (d : Json.Members) (p m : Option Json.Members) (given : Option Time.Instant),
        files.HoldsSettings settings l ∧ files.HoldsObject document d ∧
        Option.Rel files.HoldsObject prior p ∧ Option.Rel files.HoldsObject metadata m ∧
        Option.Rel GivesTime now given ∧
        let r : Revision := ⟨⟨d⟩, p.map .mk, (m.map .mk).getD .empty⟩
        let decision := l.policy.evaluate (given.getD clock) r
        e.failure = none ∧ e.exitCode = 0 ∧
        e.output = "\x7b\"data\":" ++ decision.toValue.text ++ ",\"status\":\"ok\"\x7d\n" ∧
        e.log = keptFrom l.least [policyRecord l.policy, Report.receivedRecord (ids 0) r,
          Report.routedRecord (ids 0) decision]) := by
  intro e stages
  refine ⟨fun before after stage f hsplit hbefore hfails => ?_, fun hpass => ?_⟩
  · -- all stages before this one pass, so it is the first that fails
    have hfirst : FirstFailure files stages f := hsplit ▸ firstFailure_of_split hbefore hfails
    obtain ⟨hfailure, houtput, hlog⟩ := runEvaluate_of_firstFailure hfirst clock (ids 0)
    have hexit : e.exitCode = 1 := if_pos (congrArg Option.isSome hfailure)
    exact ⟨hfailure, hexit, houtput, hlog⟩
  · -- all stages pass, so both parts of the command come to their end
    obtain ⟨hsettings, hinputs⟩ := List.forall_mem_cons.1 hpass
    obtain ⟨l, hload⟩ := (goesThrough_load files settings).exists_ok
      (List.forall_mem_singleton.2 hsettings)
    obtain ⟨⟨r, t⟩, hread⟩ :=
      (goesThrough_readInputs files clock document prior metadata now).exists_ok hinputs
    -- what was read are objects and a time, and nothing else
    obtain ⟨d, p, m, given, hd, hp, hm, hgiven, rfl, rfl⟩ := readInputs_eq_ok hread
    refine ⟨l, d, p, m, given, load_eq_ok_iff.1 hload, hd, hp, hm, hgiven, ?_⟩
    intro r decision
    have he := runEvaluate_of_read hload hread (ids 0)
    change e = _ at he
    rw [he]
    exact ⟨rfl, rfl, Response.line_ofDecision decision, rfl⟩

end Command

end RevisionRouting
