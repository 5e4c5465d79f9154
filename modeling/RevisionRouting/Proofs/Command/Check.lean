import RevisionRouting.Command.Execution
import RevisionRouting.Proofs.Settings.RoundTrip
import RevisionRouting.Proofs.Stream.Responses

/-!
# A check prints settings

What a check writes about settings that make sense is a text of settings itself: it stands
for settings with the same profile and the same log level that take the same effect, and
a check of it writes the same once more (`runCheck_prints_settings`).

The members are printed in the order of their names, which is not the order in which settings
are listed; settings are read back from either.
-/

namespace RevisionRouting

/-- A file with the bytes of a text has that text. -/
theorem Files.text_of_bytes {files : Files} {path text : String}
    (h : files path = .ok (bytesOf text)) : files.text path = .ok text := by
  refine Json.bind_eq_ok_iff.2 ⟨_, h, ?_⟩
  -- decoding undoes encoding, so the bytes lead back to the characters of the text
  rw [bytesOf, Text.Utf8.decode_encode]
  dsimp only
  rw [String.ofList_toList]
  rfl

namespace Command

variable {files : Files} {path text : String} {s : Settings} {p : Policy} {least : Severity}

theorem load_eq_ok (htext : files.text path = .ok text) (hload : Settings.load text = .ok s)
    (hpolicy : s.policy = .ok p) (hseverity : s.severity = .ok least) :
    load files path = .ok ⟨s, p, least⟩ := by
  -- text, settings, policy and severity, in the order in which they are asked for
  refine Json.mapError_eq_ok_iff.2 ?_
  refine Json.bind_eq_ok_iff.2 ⟨_, Json.mapError_eq_ok_iff.2 htext, ?_⟩
  refine Json.bind_eq_ok_iff.2 ⟨_, hload, ?_⟩
  refine Json.bind_eq_ok_iff.2 ⟨_, Json.mapError_eq_ok_iff.2 hpolicy, ?_⟩
  exact Json.bind_eq_ok_iff.2 ⟨_, Json.mapError_eq_ok_iff.2 hseverity, rfl⟩

/-- What is printed about settings are the members of the settings as they take effect. -/
theorem members_perm (l : Loaded) :
    l.members.Perm (l.settings.inEffect l.policy).toMembers := by
  -- in the list of settings the profile comes first
  refine (Json.Members.ofList_perm ?_).trans List.perm_middle
  simp [policyMembers]

theorem runCheck_eq {l : Loaded} (h : load files path = .ok l) : runCheck files path =
    ⟨"\x7b\"data\":" ++ l.members.text ++ ",\"status\":\"ok\"\x7d\n", [], none⟩ := by
  rw [runCheck, h]
  dsimp only
  rw [Response.line_ok]
  rfl

/-- **A check prints settings.** It succeeds on every text of settings that make sense, and what it
writes about them is a text of settings, too: of the same profile and log level, and with the same
policy. Of any file with that text a check writes the same again. -/
theorem runCheck_prints_settings (htext : files.text path = .ok text)
    (hload : Settings.load text = .ok s) :
    ∃ (data : Json.Members) (s' : Settings) (p : Policy),
      runCheck files path =
        ⟨"\x7b\"data\":" ++ data.text ++ ",\"status\":\"ok\"\x7d\n", [], none⟩ ∧
      Settings.load data.text = .ok s' ∧
      s'.profile = s.profile ∧ s'.logLevel = s.logLevel ∧
      s.policy = .ok p ∧ s'.policy = .ok p ∧
      ∀ (files' : Files) (path' : String), files' path' = .ok (bytesOf data.text) →
        runCheck files' path' = runCheck files path := by
  -- what was loaded makes sense, so there is a policy and a least severity
  obtain ⟨-, hs⟩ := Settings.load_eq_ok_iff.1 hload
  obtain ⟨p, hpolicy, -⟩ := Settings.exists_policy hs
  obtain ⟨least, hseverity⟩ := Settings.severity_of_not (Settings.acceptable_iff.1 hs .severity)
  have hcheck := runCheck_eq (load_eq_ok htext hload hpolicy hseverity)
  -- the settings that are printed are those in effect
  have hdata : Settings.load (Loaded.members ⟨s, p, least⟩).text = .ok (s.inEffect p) :=
    Settings.load_eq_ok_iff.2
      ⟨Settings.parse_of_perm (members_perm _), Settings.acceptable_inEffect hs hpolicy⟩
  have heffect := Settings.policy_inEffect hs hpolicy
  -- the check of the new file loads the printed settings, whose effect is the same policy
  refine ⟨_, _, p, hcheck, hdata, rfl, rfl, hpolicy, heffect, fun files' path' h => ?_⟩
  rw [runCheck_eq (load_eq_ok (Files.text_of_bytes h) hdata heffect hseverity), hcheck]
  rfl

/-- Settings that leave a field open and name the log level in mixed case. -/
def binText : String :=
  "\x7b \"soft_delete_channel\": \"bin\", \"window_ms\": 90000, \"profile\": \"test\", " ++
    "\"log_level\": \"Warning\" \x7d"

/-- A file with that text at every path. -/
def binFiles : Files := fun _ => .ok (bytesOf binText)

/-- These settings. -/
def binSettings : Settings where
  profile := .test
  windowMillis := some 90000
  channel := some "bin"
  logLevel := "Warning"

/-- A check of these settings prints them with the field that was left open. -/
theorem runCheck_binFiles : binFiles.text "bin.json" = .ok binText ∧
    Settings.load binText = .ok binSettings ∧
    ∃ (data : Json.Members) (s' : Settings) (p : Policy),
      runCheck binFiles "bin.json" =
        ⟨"\x7b\"data\":" ++ data.text ++ ",\"status\":\"ok\"\x7d\n", [], none⟩ ∧
      Settings.load data.text = .ok s' ∧
      s'.profile = .test ∧ s'.logLevel = "Warning" ∧
      binSettings.policy = .ok p ∧ s'.policy = .ok p ∧
      ∀ (files' : Files) (path' : String), files' path' = .ok (bytesOf data.text) →
        runCheck files' path' = runCheck binFiles "bin.json" := by
  have htext : binFiles.text "bin.json" = .ok binText := Files.text_of_bytes rfl
  have hload : Settings.load binText = .ok binSettings := by rfl
  exact ⟨htext, hload, runCheck_prints_settings htext hload⟩

end Command

end RevisionRouting
