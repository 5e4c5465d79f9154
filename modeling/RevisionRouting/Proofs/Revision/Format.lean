import RevisionRouting.Proofs.Json.Members
import RevisionRouting.Proofs.Json.Records
import RevisionRouting.Revision

/-!
# The format of revisions

Which texts are those of revisions, in terms of the values that they stand for
(`parse_ok_iff_format`). A revision is never read as a value: its reader takes one
member after the other and refuses a member as soon as it does not fit. The texts
that it accepts are nevertheless given by their values, with one addition. The
value of an object no longer shows whether a name was written twice, so the format
also asks that of the members as they are written.

The invariant is `Holds`: after some members, each part that has been read stands
for the member with its name, and no name has come twice. It determines what has
been read, so a member can be taken exactly if the invariant can be kept
(`Holds.append`, `Holds.exists_of_append`).
-/

namespace RevisionRouting

open Json

/-- What `make` makes of the members of a value, if the value is an object. -/
def ofObject {α : Type} (make : Members → α) (v : Value) : Option α := v.asObject?.map make

theorem ofObject_eq_some_iff {α : Type} {make : Members → α} {v : Value} {a : α} :
    ofObject make v = some a ↔ ∃ ms, v = .object ms ∧ make ms = a := by
  constructor
  · intro h
    cases v with
    | object ms => exact ⟨ms, rfl, Option.some.inj h⟩
    | _ => cases h
  · rintro ⟨ms, rfl, rfl⟩
    rfl

namespace Revision

/-! ### The parts pick values -/

theorem picks_ofObject {α : Type} (make : Members → α) (depth : Nat) :
    Reader.Picks (Reader.value .content depth)
      (fun cs => (Reader.object depth cs).map fun r => (make r.1, r.2)) (ofObject make) :=
  (Reader.picks_object depth).map make

/-- The part that is read as a document. -/
def documentField : TypedField (Reader.value .content partDepth) Parts :=
  .of "doc" Parts.document (fun s d => { s with document := some d }) false
    (picks_ofObject Document.mk partDepth)

/-- The part that is read as the replaced document, which may be none. -/
def priorField : TypedField (Reader.value .content partDepth) Parts :=
  .of "oldDoc" Parts.prior (fun s d => { s with prior := some d }) true
    (Reader.picks_optional (picks_ofObject Document.mk partDepth))

/-- The part that is read as metadata. -/
def metadataField : TypedField (Reader.value .content partDepth) Parts :=
  .of "meta" Parts.metadata (fun s m => { s with metadata := some m }) true
    (picks_ofObject Metadata.mk partDepth)

/-- The parts in the order of declaration. -/
def typedParts : List (TypedField (Reader.value .content partDepth) Parts) :=
  [documentField, priorField, metadataField]

theorem fields_eq_typedParts : record.fields = typedParts.map (·.field) := rfl

/-- The names of the parts. -/
def partNames : List String := ["doc", "oldDoc", "meta"]

theorem find?_typedParts (name : String) :
    (typedParts.find? fun f => f.field.name = name) =
      if "doc" = name then some documentField
      else if "oldDoc" = name then some priorField
      else if "meta" = name then some metadataField else none := by
  have hdocument : documentField.field.name = "doc" := rfl
  have hprior : priorField.field.name = "oldDoc" := rfl
  have hmetadata : metadataField.field.name = "meta" := rfl
  -- the three names differ, so at most one part has the given name
  rw [typedParts, List.find?, List.find?, List.find?, List.find?_nil, hdocument, hprior, hmetadata]
  split_ifs <;> simp [*]

/-- What has been read holds one part more after a member, the one that the member has the name
of. -/
theorem takeMember_iff {name : String} {v : Value} {s s' : Parts} :
    takeMember typedParts s (name, v) = some s' ↔
      (name = "doc" ∧ s.document = none ∧
        ∃ d, ofObject Document.mk v = some d ∧ s' = { s with document := some d }) ∨
      (name = "oldDoc" ∧ s.prior = none ∧
        ∃ d, Reader.orNull (ofObject Document.mk) v = some d ∧ s' = { s with prior := some d }) ∨
      (name = "meta" ∧ s.metadata = none ∧
        ∃ m, ofObject Metadata.mk v = some m ∧ s' = { s with metadata := some m }) := by
  rw [takeMember_of_find (find?_typedParts name)]
  -- one case for each name, and one for all names that are unknown
  split_ifs with hdoc hprior hmeta
  · subst hdoc
    rw [Option.bind_some, documentField, TypedField.of_eq_some_iff]
    simp
  · subst hprior
    rw [Option.bind_some, priorField, TypedField.of_eq_some_iff]
    simp
  · subst hmeta
    rw [Option.bind_some, metadataField, TypedField.of_eq_some_iff]
    simp
  · simp [Ne.symm hdoc, Ne.symm hprior, Ne.symm hmeta]

/-! ### What has been read -/

/-- A part that holds `x` stands for the member `v`, if there is one. -/
def StandsFor {β : Type} (pick : Value → Option β) (v : Option Value) (x : Option β) : Prop :=
  v.map pick = x.map some

section StandsFor

variable {β : Type} {pick : Value → Option β} {v : Value} {x : Option β}

theorem standsFor_none : StandsFor pick none x ↔ x = none := by
  cases x <;> simp [StandsFor]

theorem standsFor_some : StandsFor pick (some v) x ↔ ∃ a, pick v = some a ∧ x = some a := by
  cases x <;> simp [StandsFor]

/-- Nothing was read of a part that no member stands for, and the other way round. -/
theorem standsFor_nothing {v : Option Value} : StandsFor pick v none ↔ v = none := by
  cases v <;> simp [StandsFor]

end StandsFor

/-- What has been read after the members `ms` of an object. -/
structure Holds (ms : List (String × Value)) (s : Parts) : Prop where
  nodup : (ms.map Prod.fst).Nodup
  known : ∀ name ∈ ms.map Prod.fst, name ∈ partNames
  document : StandsFor (ofObject Document.mk) ((Members.ofList ms).get? "doc") s.document
  prior : StandsFor (Reader.orNull (ofObject Document.mk)) ((Members.ofList ms).get? "oldDoc")
    s.prior
  metadata : StandsFor (ofObject Metadata.mk) ((Members.ofList ms).get? "meta") s.metadata

theorem holds_nil_iff {s : Parts} : Holds [] s ↔ s = {} := by
  constructor
  · intro h
    obtain ⟨document, prior, metadata⟩ := s
    obtain rfl : document = none := standsFor_none.1 h.document
    obtain rfl : prior = none := standsFor_none.1 h.prior
    obtain rfl : metadata = none := standsFor_none.1 h.metadata
    rfl
  · rintro rfl
    exact ⟨List.nodup_nil, by simp, rfl, rfl, rfl⟩

section Step

variable {ms : List (String × Value)} {name : String} {v : Value} {s s' : Parts}

/-- **Taking a member keeps the invariant.** -/
theorem Holds.append (h : Holds ms s) (htake : takeMember typedParts s (name, v) = some s') :
    Holds (ms ++ [(name, v)]) s' := by
  have hget (other : String) := Members.get?_ofList_append ms name v other
  -- a part with another name keeps its member, and the one with this name gets its own
  have hkeep {β : Type} {pick : Value → Option β} {other : String} {x : Option β}
      (hne : other ≠ name) (hx : StandsFor pick ((Members.ofList ms).get? other) x) :
      StandsFor pick ((Members.ofList (ms ++ [(name, v)])).get? other) x := by
    rw [hget, if_neg hne]
    exact hx
  have hnew {β : Type} {pick : Value → Option β} {a : β} (ha : pick v = some a) :
      StandsFor pick ((Members.ofList (ms ++ [(name, v)])).get? name) (some a) := by
    rw [hget, if_pos rfl]
    exact standsFor_some.2 ⟨a, ha, rfl⟩
  have hknown (hname : name ∈ partNames) :
      ∀ other ∈ (ms ++ [(name, v)]).map Prod.fst, other ∈ partNames := by
    rw [List.map_append]
    exact List.forall_mem_append.2 ⟨h.known, by simpa using hname⟩
  -- a part that was not read has no member yet, so the name is new
  obtain ⟨rfl, hs, d, hd, rfl⟩ | ⟨rfl, hs, d, hd, rfl⟩ | ⟨rfl, hs, m, hm, rfl⟩ :=
    takeMember_iff.1 htake
  · have hfresh := standsFor_nothing.1 (hs ▸ h.document)
    exact ⟨Members.nodup_append_iff.2 ⟨hfresh, h.nodup⟩, hknown (by simp [partNames]),
      hnew hd, hkeep (by decide) h.prior, hkeep (by decide) h.metadata⟩
  · have hfresh := standsFor_nothing.1 (hs ▸ h.prior)
    exact ⟨Members.nodup_append_iff.2 ⟨hfresh, h.nodup⟩, hknown (by simp [partNames]),
      hkeep (by decide) h.document, hnew hd, hkeep (by decide) h.metadata⟩
  · have hfresh := standsFor_nothing.1 (hs ▸ h.metadata)
    exact ⟨Members.nodup_append_iff.2 ⟨hfresh, h.nodup⟩, hknown (by simp [partNames]),
      hkeep (by decide) h.document, hkeep (by decide) h.prior, hnew hm⟩

/-- Nothing but taking the last member leads to where the invariant holds. -/
theorem Holds.exists_of_append (h : Holds (ms ++ [(name, v)]) s') :
    ∃ s, Holds ms s ∧ takeMember typedParts s (name, v) = some s' := by
  have hget (other : String) := Members.get?_ofList_append ms name v other
  -- the earlier members are without the name, and their names differ
  obtain ⟨hfresh, hnodup⟩ := Members.nodup_append_iff.1 h.nodup
  have hknown : ∀ other ∈ ms.map Prod.fst, other ∈ partNames := fun other hmem =>
    h.known other (by rw [List.map_append]; exact List.mem_append_left _ hmem)
  have hname : name ∈ partNames := h.known name (by simp)
  have hdocument := h.document
  have hprior := h.prior
  have hmetadata := h.metadata
  -- what each part stands for, told apart by whether it has the name of the last member
  rw [hget] at hdocument hprior hmetadata
  -- the part with the name of the member is taken back; the others stay as they are
  obtain rfl | rfl | rfl : name = "doc" ∨ name = "oldDoc" ∨ name = "meta" := by
    simpa [partNames] using hname
  · rw [if_pos rfl] at hdocument
    obtain ⟨d, hd, hs⟩ := standsFor_some.1 hdocument
    refine ⟨{ s' with document := none },
      ⟨hnodup, hknown, standsFor_nothing.2 hfresh, hprior, hmetadata⟩, ?_⟩
    exact takeMember_iff.2 (.inl ⟨rfl, rfl, d, hd, by rw [← hs]⟩)
  · rw [if_pos rfl] at hprior
    obtain ⟨d, hd, hs⟩ := standsFor_some.1 hprior
    refine ⟨{ s' with prior := none },
      ⟨hnodup, hknown, hdocument, standsFor_nothing.2 hfresh, hmetadata⟩, ?_⟩
    exact takeMember_iff.2 (.inr (.inl ⟨rfl, rfl, d, hd, by rw [← hs]⟩))
  · rw [if_pos rfl] at hmetadata
    obtain ⟨m, hm, hs⟩ := standsFor_some.1 hmetadata
    refine ⟨{ s' with metadata := none },
      ⟨hnodup, hknown, hdocument, hprior, standsFor_nothing.2 hfresh⟩, ?_⟩
    exact takeMember_iff.2 (.inr (.inr ⟨rfl, rfl, m, hm, by rw [← hs]⟩))

end Step

/-- The members that the parts can take are those that the invariant can be kept for. -/
theorem foldlM_takeMember_iff {ms : List (String × Value)} {s : Parts} :
    ms.foldlM (takeMember typedParts) {} = some s ↔ Holds ms s := by
  induction ms using List.reverseRecOn generalizing s with
  | nil =>
    -- no member leaves every part unread
    rw [holds_nil_iff, eq_comm]
    exact Option.some_inj
  | append_singleton ms m ih =>
    rw [List.foldlM_append, Option.bind_eq_bind, Option.bind_eq_some_iff]
    -- by induction the earlier members lead to exactly the parts that hold them
    simp only [ih, List.foldlM_cons, List.foldlM_nil, bind_pure]
    constructor
    · rintro ⟨s₁, hs₁, htake⟩
      exact hs₁.append htake
    · intro h
      exact h.exists_of_append

/-- The parts take between one and three items, each its own. -/
theorem takeItems_iff {vs : List Value} {s : Parts} :
    takeItems typedParts {} vs = some s ↔ (1 ≤ vs.length ∧ vs.length ≤ 3) ∧
      StandsFor (ofObject Document.mk) vs[0]? s.document ∧
      StandsFor (Reader.orNull (ofObject Document.mk)) vs[1]? s.prior ∧
      StandsFor (ofObject Metadata.mk) vs[2]? s.metadata := by
  have hdocument (s : Parts) (v : Value) : documentField.take s v =
      (ofObject Document.mk v).map fun d => { s with document := some d } := rfl
  have hprior (s : Parts) (v : Value) : priorField.take s v =
      (Reader.orNull (ofObject Document.mk) v).map fun d => { s with prior := some d } := rfl
  have hmetadata (s : Parts) (v : Value) : metadataField.take s v =
      (ofObject Metadata.mk v).map fun m => { s with metadata := some m } := rfl
  have hmayEndBefore : documentField.field.mayEndBefore = false ∧
      priorField.field.mayEndBefore = true ∧ metadataField.field.mayEndBefore = true :=
    ⟨rfl, rfl, rfl⟩
  obtain ⟨document, prior, metadata⟩ := s
  -- one case for each length that is accepted, and one on either side of them
  match vs with
  | [] => simp [typedParts, takeItems, hmayEndBefore]
  | [a] =>
    cases ha : ofObject Document.mk a <;>
      simp [typedParts, takeItems, hmayEndBefore, hdocument, standsFor_none, standsFor_some, ha,
        eq_comm]
  | [a, b] =>
    cases ha : ofObject Document.mk a <;> cases hb : Reader.orNull (ofObject Document.mk) b <;>
      simp [typedParts, takeItems, hmayEndBefore, hdocument, hprior, standsFor_none,
        standsFor_some, ha, hb, eq_comm]
  | [a, b, c] =>
    cases ha : ofObject Document.mk a <;> cases hb : Reader.orNull (ofObject Document.mk) b <;>
      cases hc : ofObject Metadata.mk c <;>
        simp [typedParts, takeItems, hdocument, hprior, hmetadata, standsFor_some, ha, hb, hc,
          eq_comm]
  | a :: b :: c :: d :: vs => simp [typedParts, takeItems]

/-! ### The format -/

/-- The part of a revision that a value has under a name, or at a position among its items. -/
def partOf (v : Value) (name : String) (position : Nat) : Option Value :=
  match v with
  | .object ms => Members.get? ms name
  | .array vs => vs[position]?
  | _ => none

/-- The types of the parts: the document is an object, the prior one is missing, null or an
object, and metadata are missing or an object. -/
structure WellTyped (v : Value) : Prop where
  document : ∃ ms, partOf v "doc" 0 = some (.object ms)
  prior : partOf v "oldDoc" 1 = none ∨ partOf v "oldDoc" 1 = some .null ∨
    ∃ ms, partOf v "oldDoc" 1 = some (.object ms)
  metadata : partOf v "meta" 2 = none ∨ ∃ ms, partOf v "meta" 2 = some (.object ms)

/-- The revision has exactly the parts of a value, no prior document if that is missing or null,
and empty metadata if they are missing. -/
structure ComposedOf (r : Revision) (v : Value) : Prop where
  document : partOf v "doc" 0 = some (.object r.document.body)
  prior : r.prior = none ∧ (partOf v "oldDoc" 1 = none ∨ partOf v "oldDoc" 1 = some .null) ∨
    ∃ d, r.prior = some d ∧ partOf v "oldDoc" 1 = some (.object d.body)
  metadata : r.metadata = .empty ∧ partOf v "meta" 2 = none ∨
    partOf v "meta" 2 = some (.object r.metadata.fields)

/-- The shape of a text that stands for `v`: an object that is written without a name twice and
has no names but those of the parts, or an array of one to three items. -/
def Shaped (text : String) : Value → Prop
  | .object ms => (∃ written, Value.writtenMembers text = .ok written ∧
      ms = Members.ofList written ∧ (written.map Prod.fst).Nodup) ∧
      ∀ name, Members.get? ms name ≠ none → name ∈ partNames
  | .array vs => 1 ≤ vs.length ∧ vs.length ≤ 3
  | _ => False

theorem exists_composedOf_iff {v : Value} : (∃ r, ComposedOf r v) ↔ WellTyped v := by
  constructor
  · rintro ⟨r, h⟩
    refine ⟨⟨_, h.document⟩, ?_, ?_⟩
    · obtain ⟨-, hnone | hnull⟩ | ⟨d, -, hd⟩ := h.prior
      · exact .inl hnone
      · exact .inr (.inl hnull)
      · exact .inr (.inr ⟨_, hd⟩)
    · obtain ⟨-, hnone⟩ | hm := h.metadata
      · exact .inl hnone
      · exact .inr ⟨_, hm⟩
  · intro h
    -- a revision is made of the parts that the types grant, with defaults where they are missing
    obtain ⟨body, hbody⟩ := h.document
    obtain ⟨prior, hprior⟩ : ∃ prior : Option Document,
        prior = none ∧ (partOf v "oldDoc" 1 = none ∨ partOf v "oldDoc" 1 = some .null) ∨
        ∃ d, prior = some d ∧ partOf v "oldDoc" 1 = some (.object d.body) := by
      obtain hnone | hnull | ⟨ms, hms⟩ := h.prior
      · exact ⟨none, .inl ⟨rfl, .inl hnone⟩⟩
      · exact ⟨none, .inl ⟨rfl, .inr hnull⟩⟩
      · exact ⟨some ⟨ms⟩, .inr ⟨⟨ms⟩, rfl, hms⟩⟩
    obtain hnone | ⟨ms, hms⟩ := h.metadata
    · exact ⟨⟨⟨body⟩, prior, .empty⟩, hbody, hprior, .inl ⟨rfl, hnone⟩⟩
    · exact ⟨⟨⟨body⟩, prior, ⟨ms⟩⟩, hbody, hprior, .inr hms⟩

theorem standsFor_document_iff {p : Option Value} {d : Document} :
    StandsFor (ofObject Document.mk) p (some d) ↔ p = some (.object d.body) := by
  -- the body of the document is the members of the object
  cases p with
  | none => simp [standsFor_none]
  | some v =>
    simp only [standsFor_some, ofObject_eq_some_iff, Option.some.injEq, exists_eq_right']
    constructor
    · rintro ⟨ms, rfl, rfl⟩
      rfl
    · rintro rfl
      exact ⟨d.body, rfl, rfl⟩

theorem exists_standsFor_prior_iff {p : Option Value} {prior : Option Document} :
    (∃ x, StandsFor (Reader.orNull (ofObject Document.mk)) p x ∧ x.getD none = prior) ↔
      prior = none ∧ (p = none ∨ p = some .null) ∨
        ∃ d, prior = some d ∧ p = some (.object d.body) := by
  constructor
  · rintro ⟨x, hx, rfl⟩
    -- either no member was there, or one was there and was picked from
    cases p with
    | none =>
      obtain rfl := standsFor_none.1 hx
      exact .inl ⟨rfl, .inl rfl⟩
    | some v =>
      obtain ⟨prior, hprior, rfl⟩ := standsFor_some.1 hx
      -- `null` stands for no document; every other value has to be one
      by_cases hnull : v = .null
      · subst hnull
        cases hprior
        exact .inl ⟨rfl, .inr rfl⟩
      · rw [Reader.orNull_of_ne_null hnull, Option.map_eq_some_iff] at hprior
        obtain ⟨d, hd, rfl⟩ := hprior
        obtain ⟨ms, rfl, rfl⟩ := ofObject_eq_some_iff.1 hd
        exact .inr ⟨⟨ms⟩, rfl, rfl⟩
  · rintro (⟨rfl, rfl | rfl⟩ | ⟨d, rfl, rfl⟩)
    · exact ⟨none, rfl, rfl⟩
    · exact ⟨some none, rfl, rfl⟩
    · exact ⟨some (some d), rfl, rfl⟩

theorem exists_standsFor_metadata_iff {p : Option Value} {m : Metadata} :
    (∃ x, StandsFor (ofObject Metadata.mk) p x ∧ x.getD .empty = m) ↔
      m = .empty ∧ p = none ∨ p = some (.object m.fields) := by
  constructor
  · rintro ⟨x, hx, rfl⟩
    cases p with
    | none =>
      obtain rfl := standsFor_none.1 hx
      exact .inl ⟨rfl, rfl⟩
    | some v =>
      obtain ⟨m, hm, rfl⟩ := standsFor_some.1 hx
      obtain ⟨ms, rfl, rfl⟩ := ofObject_eq_some_iff.1 hm
      exact .inr rfl
  · rintro (⟨rfl, rfl⟩ | rfl)
    · exact ⟨none, rfl, rfl⟩
    · exact ⟨some m, rfl, rfl⟩

theorem ofParts_eq_ok_iff {s : Parts} {r : Revision} : ofParts s = .ok r ↔
    s.document = some r.document ∧ s.prior.getD none = r.prior ∧
      s.metadata.getD .empty = r.metadata := by
  rw [ofParts]
  -- nothing is made without a document
  cases hdocument : s.document with
  | none => simp
  | some d =>
    constructor
    · intro h
      cases h
      exact ⟨rfl, rfl, rfl⟩
    · rintro ⟨hd, hprior, hmetadata⟩
      cases hd
      rw [hprior, hmetadata]

/-- The parts of a value make up a revision as they have been read. -/
theorem composedOf_iff {r : Revision} {v : Value} : ComposedOf r v ↔
    ∃ s : Parts, StandsFor (ofObject Document.mk) (partOf v "doc" 0) s.document ∧
      StandsFor (Reader.orNull (ofObject Document.mk)) (partOf v "oldDoc" 1) s.prior ∧
      StandsFor (ofObject Metadata.mk) (partOf v "meta" 2) s.metadata ∧ ofParts s = .ok r := by
  constructor
  · intro h
    -- what has been read is the parts of the revision, a missing one as missing
    obtain ⟨prior, hprior, hr⟩ := exists_standsFor_prior_iff.2 h.prior
    obtain ⟨metadata, hmetadata, hr'⟩ := exists_standsFor_metadata_iff.2 h.metadata
    exact ⟨⟨some r.document, prior, metadata⟩, standsFor_document_iff.2 h.document, hprior,
      hmetadata, ofParts_eq_ok_iff.2 ⟨rfl, hr, hr'⟩⟩
  · rintro ⟨s, hdocument, hprior, hmetadata, h⟩
    obtain ⟨hd, hr, hr'⟩ := ofParts_eq_ok_iff.1 h
    rw [hd] at hdocument
    exact ⟨standsFor_document_iff.1 hdocument, exists_standsFor_prior_iff.1 ⟨_, hprior, hr⟩,
      exists_standsFor_metadata_iff.1 ⟨_, hmetadata, hr'⟩⟩

/-- A text is that of a revision if it has the shape of one and its parts make up the revision. -/
theorem parse_eq_ok_iff {text : String} {r : Revision} : parse text = .ok r ↔
    ∃ v, Value.parse text = .ok v ∧ Shaped text v ∧ ComposedOf r v := by
  -- members and items are taken as the invariant and the positions have it
  rw [parse, Record.parse_iff rfl fields_eq_typedParts]
  change (∃ ms s, _ ∧ List.foldlM (takeMember typedParts) {} ms = some s ∧ ofParts s = _) ∨
    (∃ vs s, _ ∧ takeItems typedParts {} vs = some s ∧ ofParts s = _) ↔ _
  simp only [foldlM_takeMember_iff, takeItems_iff, composedOf_iff]
  constructor
  · rintro (⟨ms, s, hms, hs, hr⟩ | ⟨vs, s, hvs, ⟨hlength, hdocument, hprior, hmetadata⟩, hr⟩)
    · refine ⟨.object (Members.ofList ms), Value.parse_object_iff.2 ⟨ms, hms, rfl⟩,
        ⟨⟨ms, hms, rfl, hs.nodup⟩, fun name hname => ?_⟩,
        s, hs.document, hs.prior, hs.metadata, hr⟩
      -- what has no unknown name as it is written has none as a value
      by_contra hunknown
      exact hname (Members.get?_ofList_eq_none_iff.2 fun hmem => hunknown (hs.known name hmem))
    · exact ⟨.array vs, hvs, hlength, s, hdocument, hprior, hmetadata, hr⟩
  · rintro ⟨v, hv, hshape, s, hdocument, hprior, hmetadata, hr⟩
    cases v with
    | object ms =>
      obtain ⟨⟨written, hwritten, rfl, hnodup⟩, hknown⟩ := hshape
      refine .inl ⟨written, s, hwritten,
        ⟨hnodup, fun name hmem => ?_, hdocument, hprior, hmetadata⟩, hr⟩
      exact hknown name fun hnone => Members.get?_ofList_eq_none_iff.1 hnone hmem
    | array vs => exact .inr ⟨vs, s, hv, ⟨hshape, hdocument, hprior, hmetadata⟩, hr⟩
    | _ => exact hshape.elim

/-- **The format of revisions.** A text is accepted exactly if it stands for a value that has the
shape of a revision and parts of the right types, and what it is read as is the revision with just
these parts. -/
theorem parse_ok_iff_format (text : String) :
    ((∃ r, parse text = .ok r) ↔
      ∃ v, Value.parse text = .ok v ∧ Shaped text v ∧ WellTyped v) ∧
    ∀ r, parse text = .ok r ↔ ∃ v, Value.parse text = .ok v ∧ Shaped text v ∧ ComposedOf r v := by
  refine ⟨?_, fun r => parse_eq_ok_iff⟩
  -- for acceptance it is enough that some revision is composed of the value
  simp only [parse_eq_ok_iff, ← exists_composedOf_iff]
  constructor
  · rintro ⟨r, v, hv, hshape, hr⟩
    exact ⟨v, hv, hshape, r, hr⟩
  · rintro ⟨v, hv, hshape, r, hr⟩
    exact ⟨r, v, hv, hshape, hr⟩

end Revision

end RevisionRouting
