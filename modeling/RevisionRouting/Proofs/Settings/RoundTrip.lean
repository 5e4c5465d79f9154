import Mathlib.Data.List.Perm.Basic
import RevisionRouting.Proofs.Json.RecordTexts
import RevisionRouting.Proofs.Routing.Staleness
import RevisionRouting.Proofs.Settings.Validation

/-!
# Settings are read back

Settings are read back from the text of their members, in whatever order these are written
(`Settings.parse_of_perm`). At each member the invariant is that just the fields written so far have
been read (`Settings.readUpTo`). Nothing is asked of the settings, so also those that make no sense
are read back, and are then refused for what is wrong with them (`Settings.load_text`).

Settings that make sense can be spelled out: every field of their policy is chosen
(`Settings.inEffect`). They then make sense, too, and take the same effect
(`Settings.policy_inEffect`), since a policy from settings loses nothing in the units in
which settings choose (`windowMillis_range`).
-/

namespace RevisionRouting.Settings

open Json

/-! ### Reading fields back -/

theorem readsBack_string (depth : Nat) (s : String) : (Value.string s).ReadsBack depth :=
  Value.WellFormed.string.readsBack .string

theorem readsBack_word (depth : Nat) (n : UInt64) :
    (Value.number (.ofUInt64 n)).ReadsBack depth :=
  Value.WellFormed.number.readsBack .integer

theorem readsBack_null (depth : Nat) : Value.null.ReadsBack depth :=
  Value.WellFormed.null.readsBack .null

theorem profileEntry_chars (p : Profile) (rest : List Char) :
    profileEntry ((Value.string p.name).chars ++ rest) = .ok (p, rest) := by
  rw [Value.chars, Reader.quotedString_append]
  refine bind_eq_ok_iff.2 ⟨(p.name, rest), Reader.stringTail_escape p.name rest, ?_⟩
  cases p <;> rfl

theorem textEntry_chars (s : String) ⦃rest : List Char⦄ (hrest : EndsNumber rest) :
    textEntry ((Value.string s).chars ++ rest) = .ok (s, rest) :=
  Record.reads_of_picks (Reader.picks_string 0 "a string") (readsBack_string 0 s) rfl hrest

theorem openWord_chars (x : Option UInt64) ⦃rest : List Char⦄ (hrest : EndsNumber rest) :
    Reader.optional Reader.word64 ((openValue (fun n => .number (.ofUInt64 n)) x).chars ++ rest) =
      .ok (x, rest) := by
  -- an open field is written as `null`, which the reader of an optional field takes for none
  have hpicks := Reader.picks_optional (Reader.picks_word64 0)
  cases x with
  | none => exact Record.reads_of_picks hpicks (readsBack_null 0) rfl hrest
  | some n =>
    refine Record.reads_of_picks hpicks (readsBack_word 0 n) ?_ hrest
    exact Option.map_eq_some_iff.2 ⟨n, Number.toUInt64?_eq_some_iff.2 rfl, rfl⟩

theorem openText_chars (x : Option String) ⦃rest : List Char⦄ (hrest : EndsNumber rest) :
    Reader.optional textEntry ((openValue .string x).chars ++ rest) = .ok (x, rest) := by
  have hpicks := Reader.picks_optional (Reader.picks_string 0 "a string")
  cases x with
  | none => exact Record.reads_of_picks hpicks (readsBack_null 0) rfl hrest
  | some s => exact Record.reads_of_picks hpicks (readsBack_string 0 s) rfl hrest

/-- What has been read of settings once the members with the given names have. -/
def readUpTo (s : Settings) (names : List String) : Entries where
  profile := if "profile" ∈ names then some s.profile else none
  windowMillis := if "window_ms" ∈ names then some s.windowMillis else none
  channel := if "soft_delete_channel" ∈ names then some s.channel else none
  ttlSeconds := if "soft_delete_ttl_secs" ∈ names then some s.ttlSeconds else none
  logLevel := if "log_level" ∈ names then some s.logLevel else none

/-- Each member is taken by its field, unless that has been read. -/
theorem takes_of_mem_toMembers {s : Settings} {m : String × Value} (hm : m ∈ s.toMembers)
    {names : List String} (hnew : m.1 ∉ names) :
    record.Takes (s.readUpTo names) m (s.readUpTo (m.1 :: names)) := by
  -- one case for each field, which is unread as its name is new
  simp only [toMembers, List.mem_cons, List.not_mem_nil, or_false] at hm
  obtain rfl | rfl | rfl | rfl | rfl := hm
  · have hset : s.readUpTo ("profile" :: names) =
        { s.readUpTo names with profile := some s.profile } := by simp [readUpTo]
    have hunread : (s.readUpTo names).profile = none := if_neg hnew
    rw [hset]
    exact Record.takes_of Entries.profile (fun s p => { s with profile := some p }) rfl hunread
      fun rest _ => profileEntry_chars s.profile rest
  · have hset : s.readUpTo ("window_ms" :: names) =
        { s.readUpTo names with windowMillis := some s.windowMillis } := by simp [readUpTo]
    have hunread : (s.readUpTo names).windowMillis = none := if_neg hnew
    rw [hset]
    exact Record.takes_of Entries.windowMillis (fun s n => { s with windowMillis := some n }) rfl
      hunread (openWord_chars s.windowMillis)
  · have hset : s.readUpTo ("soft_delete_channel" :: names) =
        { s.readUpTo names with channel := some s.channel } := by simp [readUpTo]
    have hunread : (s.readUpTo names).channel = none := if_neg hnew
    rw [hset]
    exact Record.takes_of Entries.channel (fun s c => { s with channel := some c }) rfl hunread
      (openText_chars s.channel)
  · have hset : s.readUpTo ("soft_delete_ttl_secs" :: names) =
        { s.readUpTo names with ttlSeconds := some s.ttlSeconds } := by simp [readUpTo]
    have hunread : (s.readUpTo names).ttlSeconds = none := if_neg hnew
    rw [hset]
    exact Record.takes_of Entries.ttlSeconds (fun s n => { s with ttlSeconds := some n }) rfl
      hunread (openWord_chars s.ttlSeconds)
  · have hset : s.readUpTo ("log_level" :: names) =
        { s.readUpTo names with logLevel := some s.logLevel } := by simp [readUpTo]
    have hunread : (s.readUpTo names).logLevel = none := if_neg hnew
    rw [hset]
    exact Record.takes_of Entries.logLevel (fun s l => { s with logLevel := some l }) rfl hunread
      (textEntry_chars s.logLevel)

theorem takesAll_of_nodup {s : Settings} {ms : Members} (hms : ∀ m ∈ ms, m ∈ s.toMembers)
    {names : List String} (hnodup : (ms.map Prod.fst).Nodup) (hnew : ∀ m ∈ ms, m.1 ∉ names) :
    record.TakesAll (s.readUpTo names) ms (s.readUpTo ((ms.map Prod.fst).reverse ++ names)) := by
  -- by induction on the members still to come, for all names that may have been read before
  induction ms generalizing names with
  | nil => exact .nil
  | cons m ms ih =>
    obtain ⟨hm, hms⟩ := List.forall_mem_cons.1 hms
    obtain ⟨hmnew, hnew⟩ := List.forall_mem_cons.1 hnew
    rw [List.map_cons, List.nodup_cons] at hnodup
    -- the names are different, so the fields of the members after this one are still unread
    have hlater (m' : String × Value) (hm' : m' ∈ ms) : m'.1 ∉ m.1 :: names := by
      intro h
      rcases List.mem_cons.1 h with heq | h
      · exact hnodup.1 (heq ▸ List.mem_map_of_mem hm')
      · exact hnew m' hm' h
    rw [List.map_cons, List.reverse_cons, List.append_assoc]
    exact .cons (takes_of_mem_toMembers hm hmnew) (ih hms hnodup.2 hlater)

/-- With the members of all names everything has been read. -/
theorem ofEntries_readUpTo {s : Settings} {names : List String}
    (h : ∀ name ∈ s.toMembers.map Prod.fst, name ∈ names) :
    ofEntries (s.readUpTo names) = s := by
  have hread (name : String) (hname : name ∈ s.toMembers.map Prod.fst) {β : Type} (x : β) :
      (if name ∈ names then some x else none) = some x := if_pos (h name hname)
  simp only [ofEntries, readUpTo]
  -- every field has been read, the two optional ones as optional values
  rw [hread "profile" (by simp [toMembers]), hread "window_ms" (by simp [toMembers]),
    hread "soft_delete_channel" (by simp [toMembers]),
    hread "soft_delete_ttl_secs" (by simp [toMembers]), hread "log_level" (by simp [toMembers])]
  rfl

/-- **Settings are read back** from the text of their members, in whatever order. -/
theorem parse_of_perm {s : Settings} {ms : Members} (h : ms.Perm s.toMembers) :
    parse ms.text = .ok s := by
  have hnames : (ms.map Prod.fst).Perm (s.toMembers.map Prod.fst) := h.map Prod.fst
  have hnodup : (s.toMembers.map Prod.fst).Nodup := by simp [toMembers]
  -- the order of the members is no matter, only that their names differ and are all there
  have htakes := takesAll_of_nodup (fun m hm => h.mem_iff.1 hm) (hnames.nodup_iff.2 hnodup)
    fun m _ => List.not_mem_nil
  refine Record.parse_text htakes (congrArg Except.ok (ofEntries_readUpTo fun name hname => ?_))
  rw [List.append_nil, List.mem_reverse]
  exact hnames.mem_iff.2 hname

/-! ### Loading what was written -/

section Loading

variable {s : Settings} {text : String}

/-- What has been read is validated, and handed on if it makes sense. -/
theorem load_of_parse (h : parse text = .ok s) :
    load text = s.validate.mapError .invalid >>= fun _ => .ok s := by
  rw [load, h]
  rfl

theorem load_eq_ok_iff_of_parse (h : parse text = .ok s) {s' : Settings} :
    load text = .ok s' ↔ s' = s ∧ s.validate = .ok () := by
  -- a fault of the validation would be one of the load
  rw [load_of_parse h, Json.bind_eq_ok_iff]
  constructor
  · rintro ⟨u, hvalidate, hs⟩
    cases hs
    exact ⟨rfl, Json.mapError_eq_ok_iff.1 hvalidate⟩
  · rintro ⟨rfl, hvalidate⟩
    exact ⟨(), Json.mapError_eq_ok_iff.2 hvalidate, rfl⟩

theorem load_eq_error_iff_of_parse (h : parse text = .ok s) {e : SettingsError} :
    load text = .error e ↔ ∃ f, e = .invalid f ∧ s.validate = .error f := by
  rw [load_of_parse h]
  -- either there is no fault, and no error, or there is one, and the error reports it
  cases s.validate with
  | ok u =>
    constructor
    · intro herror
      cases herror
    · rintro ⟨f, -, herror⟩
      cases herror
  | error fault =>
    constructor
    · intro herror
      cases herror
      exact ⟨fault, rfl, rfl⟩
    · rintro ⟨f, rfl, herror⟩
      cases herror
      rfl

end Loading

/-- **Settings survive being written.** The text of any settings is read as just these, whether they
make sense or not. So it is loaded if and only if they make sense, and otherwise refused for the
fault that is found in them. -/
theorem load_text (s : Settings) :
    parse s.text = .ok s ∧
    (∀ s', load s.text = .ok s' ↔ s' = s ∧ s.validate = .ok ()) ∧
    ∀ e, load s.text = .error e ↔ ∃ f, e = .invalid f ∧ s.validate = .error f := by
  have hparse : parse s.text = .ok s := parse_of_perm (.refl s.toMembers)
  exact ⟨hparse, fun s' => load_eq_ok_iff_of_parse hparse,
    fun e => load_eq_error_iff_of_parse hparse⟩

/-! ### Settings as they take effect -/

/-- Settings that choose every field of a policy. -/
def inEffect (s : Settings) (p : Policy) : Settings where
  profile := s.profile
  windowMillis := some p.windowMillis.toNat.toUInt64
  channel := some p.channel
  ttlSeconds := some p.ttlSeconds
  logLevel := s.logLevel

variable {s : Settings} {p : Policy}

/-- The fields of a policy that settings ask for are those that they choose or their profile's. -/
theorem fields_of_policy (h : s.policy = .ok p) : p.window.toInt = s.windowMicros ∧
    p.channel = s.channelInUse ∧ p.ttl.toInt = s.ttlMicros := by
  obtain ⟨hw, ht, hchannel⟩ := policy_eq_ok_iff.1 h
  exact ⟨micros_toInt (by decide) hw, hchannel, micros_toInt (by decide) ht⟩

/-- The window of a policy that settings ask for is a whole number of milliseconds that could have
been chosen. -/
theorem windowMillis_range (hs : s.Acceptable) (h : s.policy = .ok p) :
    1 ≤ p.windowMillis ∧ p.windowMillis ≤ 3153600000000 ∧
      p.windowMillis * 1000 = p.window.toInt := by
  obtain ⟨hwindow, -, -⟩ := fields_of_policy h
  -- a window that is not chosen is the profile's, and those are within the limits
  rw [windowMillis_of_micros hwindow, hwindow, windowMicros]
  cases hms : s.windowMillis with
  | none =>
    have hprofile : ∀ profile : Profile, 1 ≤ profile.policy.windowMillis ∧
        profile.policy.windowMillis ≤ 3153600000000 ∧
        profile.policy.windowMillis * 1000 = profile.policy.window.toInt := by
      intro profile
      cases profile <;> decide
    exact hprofile s.profile
  | some ms =>
    obtain ⟨hone, hlimit⟩ := hs.window ms hms
    refine ⟨?_, ?_, rfl⟩
    · exact Int.ofNat_le.2 hone
    · exact Int.ofNat_le.2 hlimit

theorem ttlSeconds_range (hs : s.Acceptable) (h : s.policy = .ok p) :
    1 ≤ p.ttlSeconds.toNat ∧ p.ttlSeconds.toNat ≤ 3153600000 := by
  obtain ⟨-, -, httl⟩ := fields_of_policy h
  rw [ttlSeconds_of_micros httl]
  cases hseconds : s.ttlSeconds with
  | none =>
    have hprofile : ∀ profile : Profile, 1 ≤ profile.policy.ttlSeconds.toNat ∧
        profile.policy.ttlSeconds.toNat ≤ 3153600000 := by
      intro profile
      cases profile <;> decide
    exact hprofile s.profile
  | some seconds => exact hs.ttl seconds hseconds

theorem toNat_windowMillis (hs : s.Acceptable) (h : s.policy = .ok p) :
    (p.windowMillis.toNat.toUInt64.toNat : Int) = p.windowMillis := by
  obtain ⟨hone, hlimit, -⟩ := windowMillis_range hs h
  -- within its limit a window fits in a word, so the word gives it back
  rw [Nat.toUInt64, UInt64.toNat_ofNat', Nat.mod_eq_of_lt (by omega)]
  omega

/-- Settings that make sense make sense as they take effect. -/
theorem acceptable_inEffect (hs : s.Acceptable) (h : s.policy = .ok p) :
    (s.inEffect p).Acceptable where
  severity := hs.severity
  window := by
    -- the chosen window is the one in effect, which was within its range before
    intro ms hms
    cases hms
    have hword := toNat_windowMillis hs h
    obtain ⟨hone, hlimit, -⟩ := windowMillis_range hs h
    omega
  channel := by
    intro name hname
    cases hname
    exact Text.isBlankText_eq_false_iff.1 p.channel_named
  ttl := by
    intro seconds hseconds
    cases hseconds
    exact ttlSeconds_range hs h

/-- **Spelled out, settings take the same effect.** -/
theorem policy_inEffect (hs : s.Acceptable) (h : s.policy = .ok p) :
    (s.inEffect p).policy = .ok p := by
  -- settings in effect make sense, so they have a policy, and it remains to compare the fields
  obtain ⟨q, hq, hwindow, hchannel, httl⟩ := exists_policy (acceptable_inEffect hs h)
  have hword := toNat_windowMillis hs h
  obtain ⟨-, -, hwhole⟩ := windowMillis_range hs h
  have hwindow : q.window.toInt = p.window.toInt := by
    calc q.window.toInt = p.windowMillis.toNat.toUInt64.toNat * 1000 := hwindow
      _ = p.windowMillis * 1000 := by rw [hword]
      _ = p.window.toInt := hwhole
  have httl : q.ttl.toInt = p.ttl.toInt := httl.trans p.ttlSeconds_mul
  rw [hq, Policy.eq_of_toInt hwindow hchannel httl]

end RevisionRouting.Settings
