import Mathlib.Data.List.Perm.Basic
import RevisionRouting.Decision.Reader
import RevisionRouting.Proofs.Json.Leniency
import RevisionRouting.Proofs.Revision.RoundTrip
import RevisionRouting.Session

/-!
# Decisions survive the wire

A decision that was made on a document, or that was read, is read back from its own
text (`parse_text_of_obtained`). The kind of an expiry is not written down: a text is
a time stamp, an unsigned integer a number of seconds, and `null` is no expiry at all.
An expiry that passed on one of these unread would come back as another one.

The invariant is `Expiry.Readable`: the expiry is the one that its own value stands for,
that value is not `null`, and it nests no deeper than a member of a text may. It holds
of every expiry that a decision was ever given (`Decision.Obtained.readable`), as all of
them stand for values that were read or count the seconds of a policy.
-/

namespace RevisionRouting

open Json

/-! ### Sets of channels -/

namespace Channels

theorem eq_of_names_eq {c c' : Channels} (h : c.names = c'.names) : c = c' := by
  -- the channels are a list with a proof that it increases, and proofs are equal
  cases c
  cases c'
  simpa using h

/-- A set is known by its members. -/
theorem eq_of_mem_iff {c c' : Channels} (h : ∀ name, name ∈ c.names ↔ name ∈ c'.names) :
    c = c' := by
  have hnodup (c : Channels) : c.names.Nodup := c.increasing.imp fun h => Std.ne_of_lt h
  have hperm : c.names.Perm c'.names :=
    (List.perm_ext_iff_of_nodup (hnodup c) (hnodup c')).2 h
  -- both lists increase, so they have the same members in the same order
  refine eq_of_names_eq (hperm.eq_of_pairwise ?_ c.increasing c'.increasing)
  exact fun a b _ _ hab hba => absurd hba (String.lt_asymm hab)

/-- A set is made again from its members. -/
theorem ofList_names (c : Channels) : ofList c.names = c := eq_of_mem_iff fun _ => mem_ofList

end Channels

/-! ### The kinds of expiry -/

namespace Expiry

/-- Nothing is lost of a value that is taken for an expiry. -/
theorem toValue_ofValue (v : Value) : (ofValue v).toValue = v := by
  -- only an integer may be taken for another kind
  cases v with
  | number n =>
    cases n with
    | float x => rfl
    | integer n fits =>
      rw [ofValue, Number.toUInt64?]
      split_ifs with hn
      · -- an integer that is not negative is below 2 ^ 64, so no seconds are lost
        have hword : (n.toNat.toUInt64.toNat : Int) = n := by
          rw [Nat.toUInt64, UInt64.toNat_ofNat', Nat.mod_eq_of_lt (by omega)]
          omega
        simp only [toValue, Number.ofUInt64, hword]
      · rfl
  | _ => rfl

/-- An expiry that can be read back as what it is. -/
structure Readable (e : Expiry) : Prop where
  /-- The value of the expiry stands for no other expiry. -/
  canonical : ofValue e.toValue = e
  ne_null : e.toValue ≠ .null
  /-- The value fits in an object of its own text. -/
  wellFormed : e.toValue.WellFormed (nestingLimit - 1)

theorem readable_ofValue {v : Value} (hnull : v ≠ .null) (hv : v.WellFormed (nestingLimit - 1)) :
    (ofValue v).Readable where
  canonical := by rw [toValue_ofValue]
  ne_null := by rwa [toValue_ofValue]
  wellFormed := by rwa [toValue_ofValue]

theorem ofValue_ofUInt64 (seconds : UInt64) :
    ofValue (.number (.ofUInt64 seconds)) = relative seconds := by
  have hnonneg : (0 : Int) ≤ seconds.toNat := by omega
  -- the integer is that of an unsigned word, and the sort gives the word back
  simp [ofValue, Number.ofUInt64, Number.toUInt64?, hnonneg]

theorem readable_relative (seconds : UInt64) : (relative seconds).Readable := by
  -- seconds that no value was read for are those of a number all the same
  rw [← ofValue_ofUInt64]
  exact readable_ofValue (by simp) .number

end Expiry

/-! ### Documents that were read -/

/-- A document that a text stands for: one of its own, that of a value, or a part of a revision. -/
inductive Document.Read : Document → Prop
  | alone {text : String} {d : Document} (h : Document.parse text = .ok d) : Read d
  | ofValue {text : String} {v : Value} {d : Document} (hv : Value.parse text = .ok v)
      (hd : Document.ofValue v = .ok d) : Read d
  | ofRevision {text : String} {r : Revision} (h : Revision.parse text = .ok r) : Read r.document

theorem Document.ofValue_eq_ok {v : Value} {d : Document} (h : Document.ofValue v = .ok d) :
    v = d.toValue := by
  cases v with
  | object ms =>
    cases h
    rfl
  | _ => cases h

/-- The text of a document is that of its object. -/
theorem Document.parse_eq_ok_iff {text : String} {d : Document} :
    Document.parse text = .ok d ↔ Value.parse text = .ok d.toValue := by
  refine (Revision.picks_ofObject Document.mk nestingLimit).run_eq_ok_iff.trans ?_
  simp only [ofObject_eq_some_iff]
  constructor
  · rintro ⟨v, hv, ms, rfl, rfl⟩
    exact hv
  · intro h
    exact ⟨d.toValue, h, d.body, rfl, rfl⟩

/-- A document that was read is well formed, whatever it was read from. -/
theorem Document.Read.wellFormed {d : Document} (h : d.Read) :
    d.toValue.WellFormed nestingLimit := by
  cases h with
  | alone h => exact Value.wellFormed_of_parse (Document.parse_eq_ok_iff.1 h)
  | ofValue hv hd => exact Document.ofValue_eq_ok hd ▸ Value.wellFormed_of_parse hv
  | ofRevision h =>
    -- a part of a revision nests one container less
    exact (Revision.wellFormed_of_parse h).document.mono (by decide)

theorem Document.Read.readable {d : Document} (h : d.Read) {e : Expiry} (he : d.expiry = some e) :
    e.Readable := by
  rw [Document.expiry] at he
  -- there is an expiry only where the field is present and does not count as missing
  split at he
  · cases he
  · next v hv =>
    split_ifs at he with hfalsy
    cases he
    refine Expiry.readable_ofValue ?_ (Value.WellFormed.of_get? h.wellFormed hv)
    -- `null` counts as missing
    rintro rfl
    exact hfalsy rfl

namespace Decision

/-! ### The fields of a decision -/

/-- The set of channels that a value is. -/
def asChannels (v : Value) : Option Channels :=
  (v.asList? Value.asString?).map Channels.ofList

theorem picks_channelSet :
    Reader.Picks (Reader.value .content (nestingLimit - 1)) channelSet asChannels :=
  (Reader.picks_list (Reader.picks_string (nestingLimit - 2) "a string")).map Channels.ofList

theorem picks_expiryValue :
    Reader.Picks (Reader.value .content (nestingLimit - 1)) expiryValue
      fun v => some (Expiry.ofValue v) := by
  intro cs e rest
  rw [expiryValue, map_fst_eq_ok_iff]
  simp only [Option.some.injEq]

/-- The field that is read as a set of channels. -/
def channelsField : TypedField (Reader.value .content (nestingLimit - 1)) Fields :=
  .of "channels" Fields.channels (fun s c => { s with channels := some c }) false picks_channelSet

/-- The field that is read as an expiry, if there is one. -/
def expiryField : TypedField (Reader.value .content (nestingLimit - 1)) Fields :=
  .of "expiry" Fields.expiry (fun s e => { s with expiry := some e }) false
    (Reader.picks_optional picks_expiryValue)

/-- The field that says whether the host is to skip its own routing. -/
def shortCircuitedField : TypedField (Reader.value .content (nestingLimit - 1)) Fields :=
  .of "shortCircuited" Fields.shortCircuited (fun s b => { s with shortCircuited := some b }) false
    (Reader.picks_boolean (nestingLimit - 1))

/-- The fields in the order of declaration. -/
def typedFields : List (TypedField (Reader.value .content (nestingLimit - 1)) Fields) :=
  [channelsField, expiryField, shortCircuitedField]

theorem channelsField_name : channelsField.field.name = "channels" := rfl
theorem expiryField_name : expiryField.field.name = "expiry" := rfl
theorem shortCircuitedField_name : shortCircuitedField.field.name = "shortCircuited" := rfl

theorem fields_eq_typedFields : fields = typedFields.map (·.field) := rfl

/-! ### Decisions that were read -/

/-- What has been read of a decision has an expiry that can be read back. -/
def Fields.Readable (s : Fields) : Prop := ∀ e, s.expiry = some (some e) → e.Readable

theorem Fields.Readable.read {f : RecordField Fields} (hf : f ∈ fields) {s s' : Fields}
    {cs rest : List Char} (hs : s.Readable) (h : f.read s cs = .ok (s', rest)) : s'.Readable := by
  -- each field of a decision is read as a value first and taken from that
  rw [fields_eq_typedFields, List.mem_map] at hf
  obtain ⟨g, hg, rfl⟩ := hf
  obtain ⟨v, hv, htake⟩ := g.takes.1 h
  have hfields : g = channelsField ∨ g = expiryField ∨ g = shortCircuitedField := by
    simpa [typedFields] using hg
  -- the other two fields leave the expiry as it is
  obtain rfl | rfl | rfl := hfields
  · obtain ⟨c, -, rfl⟩ := Option.map_eq_some_iff.1 htake
    exact hs
  · -- the expiry is that of a value which was read, and was not `null`
    obtain ⟨x, hpick, rfl⟩ := Option.map_eq_some_iff.1 htake
    intro e he
    cases he
    have hnull : v ≠ .null := by
      rintro rfl
      cases hpick
    rw [Reader.orNull_of_ne_null hnull] at hpick
    cases hpick
    exact Expiry.readable_ofValue hnull (Reader.wellFormed_of_value hv)
  · obtain ⟨b, -, rfl⟩ := Option.map_eq_some_iff.1 htake
    exact hs

theorem expiry_of_ofFields {s : Fields} {d : Decision} (h : ofFields s = .ok d) :
    d.expiry = s.expiry.getD none := by
  obtain ⟨channels, -, h⟩ := bind_eq_ok_iff.1 h
  obtain ⟨shortCircuited, -, h⟩ := bind_eq_ok_iff.1 h
  cases h
  rfl

theorem readable_of_parse {text : String} {d : Decision} (h : parse text = .ok d) {e : Expiry}
    (he : d.expiry = some e) : e.Readable := by
  -- what is kept of the fields is readable from the start and after each of them
  obtain ⟨s, hs, hfinish⟩ := Record.exists_of_parse
    (fun f hf s cs s' rest hs h => Fields.Readable.read hf hs h) (fun e he => by cases he) h
  rw [expiry_of_ofFields hfinish] at he
  refine hs e ?_
  cases hexpiry : s.expiry with
  | none =>
    rw [hexpiry] at he
    cases he
  | some x =>
    rw [hexpiry] at he
    exact congrArg some he

/-- How a decision comes about: it is made on a document that was read, or is read itself. -/
inductive Obtained : Decision → Prop
  | evaluated {r : Revision} (h : r.document.Read) (p : Policy) (now : Time.Instant) :
      Obtained (p.evaluate now r)
  | read {text : String} {d : Decision} (h : parse text = .ok d) : Obtained d

/-- **Every expiry that a decision is given can be read back.** -/
theorem Obtained.readable {d : Decision} (h : d.Obtained) {e : Expiry} (he : d.expiry = some e) :
    e.Readable := by
  cases h with
  | @evaluated r h p now =>
    rw [Policy.evaluate] at he
    split_ifs at he
    · -- a resurrected document stays for the seconds of the policy
      cases he
      exact Expiry.readable_relative p.ttlSeconds
    · -- any other has the expiry that it asks for
      exact h.readable he
  | read h => exact readable_of_parse h he

/-! ### Reading back -/

theorem mapM_asString? (names : List String) :
    (names.map Value.string).mapM Value.asString? = some names := by
  induction names with
  | nil => rfl
  | cons name names ih => exact Reader.mapM_cons_eq_some_iff.2 ⟨name, names, rfl, ih, rfl⟩

theorem asChannels_names (c : Channels) :
    asChannels (.array (c.names.map .string)) = some c := by
  rw [asChannels, Value.asList?, mapM_asString?, Option.map_some, Channels.ofList_names]

theorem orNull_toValue {x : Option Expiry} (hx : ∀ e, x = some e → e.Readable) :
    Reader.orNull (fun v => some (Expiry.ofValue v)) ((x.map Expiry.toValue).getD .null) =
      some x := by
  cases x with
  | none => rfl
  | some e =>
    -- were the value `null`, no expiry would be read
    have he := hx e rfl
    rw [Option.map_some, Option.getD_some, Reader.orNull_of_ne_null he.ne_null, he.canonical]
    rfl

/-- The members of the object that a decision is written as. -/
def members (d : Decision) : Members := [
  ("channels", .array (d.channels.names.map .string)),
  ("expiry", (d.expiry.map Expiry.toValue).getD .null),
  ("shortCircuited", .bool d.shortCircuited)]

theorem toValue_eq (d : Decision) : d.toValue = .object d.members := rfl

/-- The text of a decision. -/
theorem text_toValue (d : Decision) : d.toValue.text =
    "\x7b\"channels\":" ++ (Value.array (d.channels.names.map .string)).text ++ ",\"expiry\":" ++
      ((d.expiry.map Expiry.toValue).getD .null).text ++ ",\"shortCircuited\":" ++
      (Value.bool d.shortCircuited).text ++ "\x7d" := by
  have hchannels : quotedString "channels" = "\"channels\"".toList := by decide
  have hexpiry : quotedString "expiry" = "\"expiry\"".toList := by decide
  have hflag : quotedString "shortCircuited" = "\"shortCircuited\"".toList := by decide
  refine String.toList_inj.1 ?_
  -- the three members are written one after the other, with a comma in front of all but the first
  rw [toValue_eq, ← Members.text, members, Members.toList_text, memberTexts, memberTexts,
    memberTexts, memberTexts, intercalate_cons]
  simp [moreTexts, memberChars, hchannels, hexpiry, hflag, Value.text]

theorem text_normal (channels : Channels) (expiry : Option Expiry) :
    (normal channels expiry).toValue.text =
      "\x7b\"channels\":" ++ (Value.array (channels.names.map .string)).text ++ ",\"expiry\":" ++
        ((expiry.map Expiry.toValue).getD .null).text ++ ",\"shortCircuited\":false\x7d" := by
  have hflag : (Value.bool false).text = "false" := rfl
  rw [text_toValue, normal, hflag, String.append_assoc, String.append_assoc]
  rfl

/-- Each field takes the member that was written for it. -/
theorem foldlM_takeMember_members {d : Decision} (hexpiry : ∀ e, d.expiry = some e → e.Readable) :
    d.members.foldlM (takeMember typedFields) {} =
      some ⟨some d.channels, some d.expiry, some d.shortCircuited⟩ := by
  -- each member is taken by the field with its name, which is free until then
  have htake₁ : takeMember typedFields {} ("channels", .array (d.channels.names.map .string)) =
      some ⟨some d.channels, none, none⟩ := by
    rw [typedFields, takeMember_cons_of_eq channelsField_name, channelsField,
      TypedField.of_eq_some_iff]
    exact ⟨rfl, d.channels, asChannels_names d.channels, rfl⟩
  have htake₂ : takeMember typedFields ⟨some d.channels, none, none⟩
      ("expiry", (d.expiry.map Expiry.toValue).getD .null) =
        some ⟨some d.channels, some d.expiry, none⟩ := by
    rw [typedFields, takeMember_cons_of_ne (by decide), takeMember_cons_of_eq expiryField_name,
      expiryField, TypedField.of_eq_some_iff]
    exact ⟨rfl, d.expiry, orNull_toValue hexpiry, rfl⟩
  have htake₃ : takeMember typedFields ⟨some d.channels, some d.expiry, none⟩
      ("shortCircuited", .bool d.shortCircuited) =
        some ⟨some d.channels, some d.expiry, some d.shortCircuited⟩ := by
    rw [typedFields, takeMember_cons_of_ne (by decide), takeMember_cons_of_ne (by decide),
      takeMember_cons_of_eq shortCircuitedField_name, shortCircuitedField,
      TypedField.of_eq_some_iff]
    exact ⟨rfl, d.shortCircuited, rfl, rfl⟩
  simp only [members, List.foldlM_cons, List.foldlM_nil, Option.bind_eq_bind, Option.bind_some,
    htake₁, htake₂, htake₃]
  rfl

/-- What holds of the channels, of the flag, of `null` and of the expiry, if there is one, holds of
the members of a decision. -/
theorem forall_mem_members {d : Decision} {holds : Value → Prop}
    (hchannels : holds (.array (d.channels.names.map .string))) (hnull : holds .null)
    (hexpiry : ∀ e, d.expiry = some e → holds e.toValue)
    (hflag : holds (.bool d.shortCircuited)) : ∀ m ∈ d.members, holds m.2 := by
  have hwritten : holds ((d.expiry.map Expiry.toValue).getD .null) := by
    cases hx : d.expiry with
    | none => exact hnull
    | some e => exact hexpiry e hx
  simp only [members, List.forall_mem_cons]
  exact ⟨hchannels, hwritten, hflag, fun m hm => absurd hm List.not_mem_nil⟩

/-- **Decisions survive the wire.** A decision that was made on a document which was read, or that
was read itself, is read back from its own text, unless there is a float in its expiry: with the
same channels, the same expiry of the same kind, and the same flag. -/
theorem parse_text_of_obtained {d : Decision} (h : d.Obtained)
    (hfloat : ∀ e, d.expiry = some e → e.toValue.FloatFree) :
    parse d.toValue.text = .ok d := by
  -- how the decision was obtained counts only for its expiry
  have hexpiry (e : Expiry) (he : d.expiry = some e) : e.Readable := h.readable he
  have hwellFormed : ∀ m ∈ d.members, m.2.WellFormed (nestingLimit - 1) :=
    forall_mem_members (.array (List.forall_mem_map.2 fun _ _ => .string)) .null
      (fun e he => (hexpiry e he).wellFormed) .bool
  have hfloatFree : ∀ m ∈ d.members, m.2.FloatFree :=
    forall_mem_members (.array (List.forall_mem_map.2 fun _ _ => .string)) .null hfloat .bool
  have hwritten : Value.writtenMembers d.toValue.text = .ok d.members := by
    rw [toValue_eq]
    exact Value.writtenMembers_text hwellFormed hfloatFree
  have hfinish : ofFields ⟨some d.channels, some d.expiry, some d.shortCircuited⟩ = .ok d := rfl
  -- no member that is written is unknown, so a reader that refuses such members would do
  refine Record.parse_of_refusing ?_
  refine (Record.parse_iff rfl fields_eq_typedFields).2 (.inl ⟨d.members, _, hwritten, ?_, hfinish⟩)
  exact foldlM_takeMember_members hexpiry

/-- An expiry in a form of its own. -/
def mixedExpiry : Value := .array [.number (.integer (-1) (by decide)), .null]

/-- A document with such an expiry. -/
def notice : Document := ⟨[("channels", .string "news"), ("expiry", mixedExpiry)]⟩

theorem wellFormed_mixedExpiry : mixedExpiry.WellFormed (nestingLimit - 1) :=
  .array (by simp [Value.WellFormed.number, Value.WellFormed.null])

theorem floatFree_mixedExpiry : mixedExpiry.FloatFree :=
  .array (by simp [Value.FloatFree.integer, Value.FloatFree.null])

/-- The document is read from its own text. -/
theorem notice_read : notice.Read := by
  -- two members with different names, the second of which nests one array
  have hwellFormed : notice.toValue.WellFormed nestingLimit := by
    refine .object ?_ ?_
    · exact List.pairwise_pair.2 (by decide)
    · exact List.forall_mem_cons.2 ⟨.string, List.forall_mem_singleton.2 wellFormed_mixedExpiry⟩
  have hfloat : notice.toValue.FloatFree := by
    refine .object ?_
    exact List.forall_mem_cons.2 ⟨.string, List.forall_mem_singleton.2 floatFree_mixedExpiry⟩
  exact .ofValue (Value.parse_text hwellFormed hfloat) rfl

/-- The decision on that document, which follows its wishes. -/
def noticed : Decision :=
  Policy.testing.evaluate ⟨1710072000, 250000000, by decide⟩ ⟨notice, none, .empty⟩

/-- The expiry of that document is passed on unread, and comes back as it was. -/
theorem parse_text_noticed : noticed.Obtained ∧ noticed.expiry = some (.raw mixedExpiry) ∧
    mixedExpiry.FloatFree ∧ parse noticed.toValue.text = .ok noticed := by
  have hobtained : noticed.Obtained := .evaluated notice_read _ _
  have hexpiry : noticed.expiry = some (.raw mixedExpiry) := rfl
  have hfloat (e : Expiry) (he : noticed.expiry = some e) : e.toValue.FloatFree := by
    rw [hexpiry] at he
    cases he
    exact floatFree_mixedExpiry
  exact ⟨hobtained, hexpiry, floatFree_mixedExpiry, parse_text_of_obtained hobtained hfloat⟩

end Decision

end RevisionRouting
