import Mathlib.Logic.Relation
import RevisionRouting.Proofs.Decision.RoundTrip
import RevisionRouting.Proofs.Routing.Staleness
import RevisionRouting.Proofs.Stream.Responses
import RevisionRouting.Proofs.Text.ByteOrder

/-!
# The channels of a decision

A document that is no resurrection goes to the channels whose names its field `channels`
holds (`Document.Names`), and a decision lists them in the order of their bytes, each once.
So the list is known by what is in it, and how the field was spelled leaves no trace: the
order of its items, items that stand there twice, items that name nothing, and the brackets
around a single name (`Respells`).

One respelling keeps the names that the field holds (`Respells.mem_channelNames`), and the
induction over a chain of them, in either direction, is `channels_of_respelled`. A decision is
then the same because it looks at nothing else that may differ (`Policy.evaluate_congr`).
-/

namespace RevisionRouting

open Json

namespace Document

/-! ### Names -/

/-- A name that the field `channels` of a document holds: it is the field, or an item of it. -/
def Names (d : Document) (name : String) : Prop :=
  name ≠ "" ∧ (d.get? "channels" = some (.string name) ∨
    ∃ items, d.get? "channels" = some (.array items) ∧ .string name ∈ items)

theorem mem_channelNames_iff {v : Value} {name : String} : name ∈ channelNames v ↔
    v = .string name ∨ ∃ items, v = .array items ∧ .string name ∈ items := by
  cases v with
  | string s => simp [channelNames, eq_comm]
  | array items => simp [channelNames, List.mem_filterMap, Value.asString?_eq_some_iff]
  | _ => simp [channelNames]

theorem mem_channels_iff {d : Document} {name : String} :
    name ∈ d.channels.names ↔ d.Names name := by
  -- the set of channels is that of the names which are not empty
  have hofList : name ∈ d.channels.names ↔ _ := Channels.mem_ofList
  rw [hofList, List.mem_filter, decide_eq_true_eq, Names, and_comm]
  refine and_congr_right fun _ => ?_
  cases d.get? "channels" with
  | none => simp
  | some v => simp only [Option.map_some, Option.getD_some, Option.some.injEq, mem_channelNames_iff]

/-! ### Respellings -/

/-- A step from one spelling of the field `channels` to another. -/
inductive Respells : Value → Value → Prop
  /-- Items come in another order. -/
  | permute {items items' : List Value} (h : items.Perm items') :
      Respells (.array items) (.array items')
  /-- An item is repeated. -/
  | duplicate {items : List Value} {item : Value} (h : item ∈ items) :
      Respells (.array items) (.array (item :: items))
  /-- An item is added that names nothing: it is no text, or the empty one. -/
  | pad {items : List Value} {item : Value} (h : ∀ name, item = .string name → name = "") :
      Respells (.array items) (.array (item :: items))
  /-- A name is put between brackets. -/
  | wrap (name : String) : Respells (.string name) (.array [.string name])

/-- A step keeps the names. -/
theorem Respells.mem_channelNames {v v' : Value} (h : Respells v v') {name : String}
    (hname : name ≠ "") : name ∈ channelNames v ↔ name ∈ channelNames v' := by
  -- both sides say the name is the field or an item of it, so only the items are compared
  simp only [mem_channelNames_iff]
  cases h with
  | permute h => simp [h.mem_iff]
  | @duplicate items item h =>
    -- the item was there before, so a name that is the new copy was an item already
    have hmem : Value.string name = item → .string name ∈ items := fun heq => heq ▸ h
    simpa using hmem
  | @pad items item h =>
    -- a name that is not empty is not an item which names nothing
    have hne : Value.string name ≠ item := fun heq => hname (h name heq.symm)
    simp [hne]
  | wrap other => simp [eq_comm]

/-- **However the field is spelled,** the channels are the same. -/
theorem channels_of_respelled {d d' : Document} {v v' : Value} (hd : d.get? "channels" = some v)
    (hd' : d'.get? "channels" = some v') (h : Relation.EqvGen Respells v v') :
    d.channels = d'.channels := by
  have hkept : ∀ name ≠ "", (name ∈ channelNames v ↔ name ∈ channelNames v') := by
    intro name hname
    -- the fields are those of the two ends, so they are no part of the induction over the chain
    clear hd hd'
    induction h with
    | rel v v' hstep => exact hstep.mem_channelNames hname
    | refl v => exact Iff.rfl
    | symm v v' _ ih => exact ih.symm
    | trans v w v' _ _ ih ih' => exact ih.trans ih'
  -- a set of channels is known by its members
  refine Channels.eq_of_mem_iff fun name => ?_
  rw [mem_channels_iff, mem_channels_iff, Names, Names, hd, hd']
  refine and_congr_right fun hname => ?_
  have hiff := hkept name hname
  simpa only [mem_channelNames_iff, Option.some.injEq] using hiff

end Document

/-! ### Decisions -/

namespace Policy

/-- **Nothing else matters to a decision** but the channels that the document asks for, its expiry,
the time of its last change, and whether there is a prior. -/
theorem evaluate_congr (p : Policy) (now : Time.Instant) {r r' : Revision}
    (hchannels : r.document.channels = r'.document.channels)
    (hexpiry : r.document.expiry = r'.document.expiry)
    (hupdated : r.document.updatedAt = r'.document.updatedAt)
    (hprior : r.prior.isNone = r'.prior.isNone) : p.evaluate now r = p.evaluate now r' := by
  rw [evaluate, evaluate, isResurrection, isResurrection, Document.ageMillis, Document.ageMillis,
    hchannels, hexpiry, hupdated, hprior]

/-- On the normal path a decision is the document's own. -/
theorem evaluate_of_path {p : Policy} {now : Time.Instant} {r : Revision}
    (h : (p.evaluate now r).path = .normal) :
    p.evaluate now r = .normal r.document.channels r.document.expiry := by
  rw [evaluate] at h ⊢
  split_ifs at h ⊢ with hresurrection
  · cases h
  · rfl

/-- **A decision names the channels that the document asks for,** in the order of their bytes. A
revision that takes the normal path is routed to the names that are not empty and are the field
`channels` of its document or an item of it, each once. The decision on any revision is the same for
a document in which the field is spelled another way. -/
theorem evaluate_channels (p : Policy) (now : Time.Instant) (r : Revision) :
    ((p.evaluate now r).path = .normal → ∃ (names : List String) (expiry : String),
      (p.evaluate now r).toValue.text =
        "\x7b\"channels\":" ++ (Value.array (names.map .string)).text ++ ",\"expiry\":" ++ expiry ++
          ",\"shortCircuited\":false\x7d" ∧
      (names.Pairwise fun a b => bytesOf a < bytesOf b) ∧
      ∀ name, name ∈ names ↔ r.document.Names name) ∧
    ∀ (d : Document) (v v' : Value), r.document.get? "channels" = some v →
      d.get? "channels" = some v' → Relation.EqvGen Document.Respells v v' →
      (∀ field, field ≠ "channels" → r.document.get? field = d.get? field) →
      p.evaluate now r = p.evaluate now { r with document := d } := by
  refine ⟨fun h => ?_, fun d v v' hv hv' hrespelled hfields => ?_⟩
  · let expiry := (r.document.expiry.map Expiry.toValue).getD .null
    refine ⟨r.document.channels.names, expiry.text, ?_, ?_, fun name => Document.mem_channels_iff⟩
    · rw [evaluate_of_path h, Decision.text_normal]
    · exact r.document.channels.increasing.imp fun hlt => Text.Utf8.encode_lt_encode_iff.2 hlt
  · have hother (field : String) (hfield : field ≠ "channels") := hfields field hfield
    -- expiry and time are read from other fields, which are the same
    apply p.evaluate_congr now (Document.channels_of_respelled hv hv' hrespelled)
    · rw [Document.expiry, Document.expiry, hother "expiry" (by decide)]
    · rw [Document.updatedAt, Document.updatedAt, hother "updatedAt" (by decide)]
    · rfl

end Policy

end RevisionRouting
