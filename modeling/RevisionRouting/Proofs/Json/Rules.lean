import RevisionRouting.Json.Reader.Typed
import RevisionRouting.Proofs.Json.Loops

/-!
# The rules of values

The reader of values looks at one character and goes on by kind. `Rule` says the
same as a relation, one rule a kind, and `valueWith_iff` that the reader follows
it: whatever a rule allows is read, and nothing else is. Facts about values that
have been read are then case splits on rules.

A reader of one kind of value, such as `object`, or of a kind or `null`, such as
`optional`, takes what the reader of values takes and keeps part of it. `Picks`
is this relation between two readers.
-/

namespace RevisionRouting.Json

/-- The members of a value that is an object. -/
def Value.asObject? : Value → Option Members
  | .object ms => some ms
  | _ => none

/-- The value as a boolean, if it is one. -/
def Value.asBool? : Value → Option Bool
  | .bool b => some b
  | _ => none

/-- The word that a value is, if it is an integer that is one. -/
def Value.asWord? : Value → Option UInt64
  | .number n => n.toUInt64?
  | _ => none

/-- What `pick` keeps of the items of a value that is an array, if it accepts all of them. -/
def Value.asList? {β : Type} (pick : Value → Option β) : Value → Option (List β)
  | .array vs => vs.mapM pick
  | _ => none

/-- A number that is an unsigned word is the number of that word. -/
theorem Number.toUInt64?_eq_some_iff {n : Number} {w : UInt64} :
    n.toUInt64? = some w ↔ n = .ofUInt64 w := by
  -- a float is no word, and an integer is one if it is in range
  cases n with
  | float x => simp [Number.toUInt64?, Number.ofUInt64]
  | integer i fits =>
    simp only [Number.toUInt64?, Number.ofUInt64, Number.integer.injEq]
    constructor
    · intro h
      split_ifs at h with hi
      cases h
      -- an integer that fits and is not negative is below 2 ^ 64
      rw [Nat.toUInt64, UInt64.toNat_ofNat', Nat.mod_eq_of_lt (by omega)]
      omega
    · -- the number of a word is in range
      rintro rfl
      rw [if_pos (by omega), Int.toNat_natCast, Nat.toUInt64, UInt64.ofNat_toNat]

theorem Value.asString?_eq_some_iff {v : Value} {s : String} :
    v.asString? = some s ↔ v = .string s := by
  cases v <;> simp [Value.asString?]

theorem Value.asWord?_eq_some_iff {v : Value} {w : UInt64} :
    v.asWord? = some w ↔ v = .number (.ofUInt64 w) := by
  cases v <;> simp [Value.asWord?, Number.toUInt64?_eq_some_iff]

namespace Reader

/-- How a value stands at the head of a text: the text without blanks before it, the value, and
the rest. -/
inductive Rule (purpose : Purpose) (nested : Option (Reader Value)) :
    List Char → Value → List Char → Prop
  | null {rest : List Char} : Rule purpose nested (['n', 'u', 'l', 'l'] ++ rest) .null rest
  | boolTrue {rest : List Char} :
      Rule purpose nested (['t', 'r', 'u', 'e'] ++ rest) (.bool true) rest
  | boolFalse {rest : List Char} :
      Rule purpose nested (['f', 'a', 'l', 's', 'e'] ++ rest) (.bool false) rest
  | number {c : Char} {cs rest : List Char} {n : Number} (hc : c = '-' ∨ c.isDigit)
      (h : number purpose (c :: cs) = .ok (n, rest)) :
      Rule purpose nested (c :: cs) (.number n) rest
  | string {cs rest : List Char} {s : String} (h : stringTail purpose cs = .ok (s, rest)) :
      Rule purpose nested ('"' :: cs) (.string s) rest
  | array {value : Reader Value} {cs rest : List Char} {vs : List Value}
      (hn : nested = some value) (h : items purpose value cs = .ok (vs, rest)) :
      Rule purpose nested ('[' :: cs) (.array vs) rest
  | object {value : Reader Value} {cs rest : List Char} {ms : Members}
      (hn : nested = some value) (h : objectTail purpose value cs = .ok (ms, rest)) :
      Rule purpose nested ('\x7b' :: cs) (.object ms) rest

variable {α β : Type} {purpose : Purpose} {nested : Option (Reader Value)}
  {cs rest : List Char} {v : Value}

theorem rule_of_valueWith (h : valueWith purpose nested cs = .ok (v, rest)) :
    Rule purpose nested (skipSpace cs) v rest := by
  unfold valueWith at h
  split at h
  · cases h
  · next c cs' hcs =>
    rw [hcs]
    -- the tests of the reader, in its order; each leads to the rule of its kind
    split_ifs at h with hnull htrue hfalse hnumber hstring harray hobject
    · -- a word is read to its last letter
      obtain ⟨rfl, htext⟩ := word_eq_ok h
      rw [htext]
      exact .null
    · obtain ⟨rfl, htext⟩ := word_eq_ok h
      rw [htext]
      exact .boolTrue
    · obtain ⟨rfl, htext⟩ := word_eq_ok h
      rw [htext]
      exact .boolFalse
    · -- digits and a minus begin a number, which is read from its first character on
      obtain ⟨n, hn, rfl⟩ := map_fst_eq_ok_iff.1 h
      exact .number hnumber hn
    · obtain ⟨s, hs, rfl⟩ := map_fst_eq_ok_iff.1 h
      rw [hstring]
      exact .string hs
    · -- a bracket asks for a reader of what may be nested
      cases nested with
      | none => cases h
      | some value =>
        obtain ⟨vs, hvs, rfl⟩ := map_fst_eq_ok_iff.1 h
        rw [harray]
        exact .array rfl hvs
    · cases nested with
      | none => cases h
      | some value =>
        obtain ⟨ms, hms, rfl⟩ := map_fst_eq_ok_iff.1 h
        rw [hobject]
        exact .object rfl hms

theorem valueWith_of_rule (h : Rule purpose nested (skipSpace cs) v rest) :
    valueWith purpose nested cs = .ok (v, rest) := by
  unfold valueWith
  -- the rule speaks of the text without blanks alone
  generalize skipSpace cs = text at h
  cases h with
  | null => exact word_append _ _ _
  | boolTrue => exact word_append _ _ _
  | boolFalse => exact word_append _ _ _
  | @number c cs' n rest hc h =>
    -- the first character of a number passes the three tests before its own
    have hne {d : Char} (hd : ¬ (d = '-' ∨ d.isDigit = true)) : c ≠ d :=
      fun hcd => hd (hcd ▸ hc)
    simp only [if_neg (hne (d := 'n') (by decide)), if_neg (hne (d := 't') (by decide)),
      if_neg (hne (d := 'f') (by decide)), if_pos hc, h]
    rfl
  | string h =>
    -- the other kinds are told by a first character that is spelled out in the rule
    simp only [h]
    rfl
  | array hn h =>
    subst hn
    simp only [h]
    rfl
  | object hn h =>
    subst hn
    simp only [h]
    rfl

/-- **The reader of values follows the rules.** -/
theorem valueWith_iff :
    valueWith purpose nested cs = .ok (v, rest) ↔ Rule purpose nested (skipSpace cs) v rest :=
  ⟨rule_of_valueWith, valueWith_of_rule⟩

/-- What may be nested in a value that is read with containers open at most `depth` deep. -/
def nestedValue (purpose : Purpose) : Nat → Option (Reader Value)
  | 0 => none
  | depth + 1 => some (value purpose depth)

theorem value_iff {depth : Nat} : value purpose depth cs = .ok (v, rest) ↔
    Rule purpose (nestedValue purpose depth) (skipSpace cs) v rest := by
  cases depth <;> exact valueWith_iff

/-- Blanks before a value make no difference. -/
theorem value_skipSpace (depth : Nat) :
    value purpose depth (skipSpace cs) = .ok (v, rest) ↔
      value purpose depth cs = .ok (v, rest) := by
  rw [value_iff, value_iff, skipSpace_idem]

theorem value_object_iff {depth : Nat} {ms : Members} :
    value purpose (depth + 1) cs = .ok (.object ms, rest) ↔ ∃ cs', skipSpace cs = '\x7b' :: cs' ∧
      objectTail purpose (value purpose depth) cs' = .ok (ms, rest) := by
  rw [value_iff]
  generalize skipSpace cs = text
  constructor
  · intro h
    -- no other kind of value is an object
    cases h with
    | object hn h =>
      cases hn
      exact ⟨_, rfl, h⟩
  · rintro ⟨cs', rfl, h⟩
    exact .object rfl h

theorem value_array_iff {depth : Nat} {vs : List Value} :
    value purpose (depth + 1) cs = .ok (.array vs, rest) ↔ ∃ cs', skipSpace cs = '[' :: cs' ∧
      items purpose (value purpose depth) cs' = .ok (vs, rest) := by
  rw [value_iff]
  generalize skipSpace cs = text
  constructor
  · intro h
    -- nor an array
    cases h with
    | array hn h =>
      cases hn
      exact ⟨_, rfl, h⟩
  · rintro ⟨cs', rfl, h⟩
    exact .array rfl h

/-- Only `null` is written with an `n` first. -/
theorem Rule.null_iff {c : Char} (h : Rule purpose nested (c :: cs) v rest) :
    v = .null ↔ c = 'n' := by
  cases h with
  | number hc h =>
    -- a number begins with a minus or a digit
    have hne : c ≠ 'n' := by
      rintro rfl
      exact absurd hc (by decide)
    simp [hne]
  | _ => simp

/-- A text is read if blanks are all that is left after the value. -/
theorem run_eq_ok_iff {read : Reader α} {text : String} {a : α} :
    run read text = .ok a ↔ ∃ rest, read text.toList = .ok (a, rest) ∧ skipSpace rest = [] := by
  rw [run]
  -- a fault stays one, and of a result the rest must be blank
  cases hread : read text.toList with
  | error f => simp
  | ok x =>
    obtain ⟨b, left⟩ := x
    dsimp only
    constructor
    · intro h
      split at h
      · next hleft =>
        cases h
        exact ⟨left, rfl, hleft⟩
      · cases h
    · rintro ⟨rest, h, hrest⟩
      cases h
      rw [hrest]

/-! ### Values of one kind -/

/-- The reader `read` takes those values that `value` takes and `pick` accepts, and keeps of them
what `pick` makes of them. -/
def Picks (value : Reader Value) (read : Reader β) (pick : Value → Option β) : Prop :=
  ∀ ⦃cs b rest⦄, read cs = .ok (b, rest) ↔ ∃ v, value cs = .ok (v, rest) ∧ pick v = some b

/-- A reader that picks reads the texts of the values that it picks. -/
theorem Picks.run_eq_ok_iff {read : Reader β} {pick : Value → Option β}
    (h : Picks (value .content nestingLimit) read pick) {text : String} {b : β} :
    read.run text = .ok b ↔ ∃ v, Value.parse text = .ok v ∧ pick v = some b := by
  simp only [Value.parse, Reader.run_eq_ok_iff]
  -- the value and the rest after it are the same on both sides
  constructor
  · rintro ⟨rest, hread, hrest⟩
    obtain ⟨v, hv, hpick⟩ := h.1 hread
    exact ⟨v, ⟨rest, hv, hrest⟩, hpick⟩
  · rintro ⟨v, ⟨rest, hv, hrest⟩, hpick⟩
    exact ⟨rest, h.2 ⟨v, hv, hpick⟩, hrest⟩

theorem Picks.map {value : Reader Value} {read : Reader α} {pick : Value → Option α}
    (h : Picks value read pick) (f : α → β) :
    Picks value (fun cs => (read cs).map fun r => (f r.1, r.2)) fun v => (pick v).map f := by
  intro cs b rest
  simp only [map_fst_eq_ok_iff, Option.map_eq_some_iff]
  -- reading, picking and turning over, in one order or in the other
  constructor
  · rintro ⟨a, ha, rfl⟩
    obtain ⟨v, hv, hpick⟩ := h.1 ha
    exact ⟨v, hv, a, hpick, rfl⟩
  · rintro ⟨v, hv, a, hpick, rfl⟩
    exact ⟨a, h.2 ⟨v, hv, hpick⟩, rfl⟩

theorem object_eq_ok_iff {depth : Nat} {ms : Members} :
    object depth cs = .ok (ms, rest) ↔ value .content depth cs = .ok (.object ms, rest) := by
  rw [value_iff, object]
  generalize skipSpace cs = text
  constructor
  · intro h
    -- a reader of objects looks for the bracket, and then does what the rule asks
    split at h
    · cases depth with
      | zero => cases h
      | succ depth => exact .object rfl h
    · cases h
  · intro h
    -- one rule alone begins with the bracket
    cases h with
    | object hn h =>
      cases depth with
      | zero => cases hn
      | succ depth =>
        cases hn
        exact h

/-- A reader of the values that `wrap` makes picks those values. -/
theorem picks_of_iff {value : Reader Value} {read : Reader β} {pick : Value → Option β}
    {wrap : β → Value} (hwrap : ∀ v b, pick v = some b ↔ v = wrap b)
    (h : ∀ ⦃cs b rest⦄, read cs = .ok (b, rest) ↔ value cs = .ok (wrap b, rest)) :
    Picks value read pick := by
  intro cs b rest
  simp only [h, hwrap, exists_eq_right]

theorem picks_object (depth : Nat) :
    Picks (value .content depth) (object depth) Value.asObject? :=
  picks_of_iff (fun v ms => by cases v <;> simp [Value.asObject?])
    fun _ _ _ => object_eq_ok_iff

theorem string_eq_ok_iff {depth : Nat} {expected s : String} :
    string expected cs = .ok (s, rest) ↔ value .content depth cs = .ok (.string s, rest) := by
  rw [value_iff, string]
  generalize skipSpace cs = text
  constructor
  · intro h
    -- a quote begins nothing but a string
    split at h
    · exact .string h
    · cases h
  · intro h
    cases h with
    | string h => exact h

theorem picks_string (depth : Nat) (expected : String) :
    Picks (value .content depth) (string expected) Value.asString? :=
  picks_of_iff (fun _ _ => Value.asString?_eq_some_iff) fun _ _ _ => string_eq_ok_iff

theorem boolean_eq_ok_iff {depth : Nat} {b : Bool} :
    boolean cs = .ok (b, rest) ↔ value .content depth cs = .ok (.bool b, rest) := by
  rw [value_iff, boolean]
  generalize skipSpace cs = text
  constructor
  · intro h
    -- one letter tells the two booleans apart
    split at h
    · obtain ⟨rfl, htext⟩ := word_eq_ok h
      rw [htext]
      exact .boolTrue
    · obtain ⟨rfl, htext⟩ := word_eq_ok h
      rw [htext]
      exact .boolFalse
    · cases h
  · intro h
    cases h with
    | boolTrue => exact word_append _ _ _
    | boolFalse => exact word_append _ _ _

theorem picks_boolean (depth : Nat) :
    Picks (value .content depth) boolean Value.asBool? :=
  picks_of_iff (fun v b => by cases v <;> simp [Value.asBool?])
    fun _ _ _ => boolean_eq_ok_iff

theorem word64_eq_ok_iff {depth : Nat} {w : UInt64} :
    word64 cs = .ok (w, rest) ↔
      value .content depth cs = .ok (.number (.ofUInt64 w), rest) := by
  rw [value_iff, word64]
  dsimp only
  generalize skipSpace cs = text
  constructor
  · intro h
    -- a number is read as any number, and then has to be a word
    split at h
    · next c cs' =>
      split_ifs at h with hc
      obtain ⟨⟨n, rest'⟩, hn, h⟩ := bind_eq_ok_iff.1 h
      dsimp only at h
      split at h
      · next w' hw =>
        cases h
        obtain rfl := Number.toUInt64?_eq_some_iff.1 hw
        exact .number hc hn
      · cases h
      · cases h
    · cases h
  · intro h
    -- the number of a word passes both tests
    cases h with
    | number hc hn =>
      dsimp only
      rw [if_pos hc]
      refine bind_eq_ok_iff.2 ⟨_, hn, ?_⟩
      have hw : (Number.ofUInt64 w).toUInt64? = some w := Number.toUInt64?_eq_some_iff.2 rfl
      dsimp only
      rw [hw]
      rfl

theorem picks_word64 (depth : Nat) :
    Picks (value .content depth) word64 Value.asWord? :=
  picks_of_iff (fun _ _ => Value.asWord?_eq_some_iff) fun _ _ _ => word64_eq_ok_iff

theorem Picks.advances {value : Reader Value} {read : Reader β} {pick : Value → Option β}
    (h : Picks value read pick) (hvalue : Advances value) : Advances read := by
  intro cs b rest hread
  obtain ⟨v, hv, -⟩ := h.1 hread
  exact hvalue hv

theorem mapM_cons_eq_some_iff {pick : Value → Option β} {vs : List Value} {bs : List β} :
    (v :: vs).mapM pick = some bs ↔
      ∃ b bs', pick v = some b ∧ vs.mapM pick = some bs' ∧ bs = b :: bs' := by
  simp only [List.mapM_cons, Option.bind_eq_bind, Option.bind_eq_some_iff, Option.pure_def,
    Option.some.injEq]
  constructor
  · rintro ⟨b, hb, bs', hbs, rfl⟩
    exact ⟨b, bs', hb, hbs, rfl⟩
  · rintro ⟨b, bs', hb, hbs, rfl⟩
    exact ⟨b, hb, bs', hbs, rfl⟩

/-- Items are picked out of the items that are read as values. -/
theorem Picks.itemsFrom_iff {value : Reader Value} {read : Reader β} {pick : Value → Option β}
    (h : Picks value read pick) (hvalue : Advances value) {first : Bool} {bs : List β} :
    itemsFrom .content read first cs = .ok (bs, rest) ↔
      ∃ vs, itemsFrom .content value first cs = .ok (vs, rest) ∧ vs.mapM pick = some bs := by
  -- the two loops go in step; one more item picked is one more value read
  induction bs generalizing first cs with
  | nil =>
    rw [itemsFrom_nil_iff]
    constructor
    · -- no item picked is no value read
      intro hcs
      exact ⟨[], itemsFrom_nil_iff.2 hcs, rfl⟩
    · rintro ⟨vs, hvs, hpick⟩
      cases vs with
      | nil => exact itemsFrom_nil_iff.1 hvs
      | cons v vs =>
        obtain ⟨b, bs, -, -, hnil⟩ := mapM_cons_eq_some_iff.1 hpick
        cases hnil
  | cons b bs ih =>
    rw [itemsFrom_cons_iff (h.advances hvalue)]
    constructor
    · rintro ⟨cs₁, cs₂, hnext, hb, hbs⟩
      obtain ⟨v, hv, hpick⟩ := h.1 hb
      obtain ⟨vs, hvs, hpicks⟩ := ih.1 hbs
      exact ⟨v :: vs, (itemsFrom_cons_iff hvalue).2 ⟨cs₁, cs₂, hnext, hv, hvs⟩,
        mapM_cons_eq_some_iff.2 ⟨b, bs, hpick, hpicks, rfl⟩⟩
    · -- the other way round: the first value is picked first
      rintro ⟨vs, hvs, hpicks⟩
      cases vs with
      | nil => simp at hpicks
      | cons v vs =>
        obtain ⟨cs₁, cs₂, hnext, hv, hvs⟩ := (itemsFrom_cons_iff hvalue).1 hvs
        obtain ⟨b', bs', hpick, hpicks, hcons⟩ := mapM_cons_eq_some_iff.1 hpicks
        cases hcons
        exact ⟨cs₁, cs₂, hnext, h.2 ⟨v, hv, hpick⟩, ih.2 ⟨vs, hvs, hpicks⟩⟩

/-- An array is picked item by item. -/
theorem picks_list {depth : Nat} {item : Reader β} {pick : Value → Option β}
    (h : Picks (value .content depth) item pick) :
    Picks (value .content (depth + 1)) (list item) (Value.asList? pick) := by
  intro cs bs rest
  rw [list]
  constructor
  · -- an array of picked items is an array of values
    intro hread
    split at hread
    · next cs' hcs =>
      obtain ⟨vs, hvs, hpicks⟩ := (h.itemsFrom_iff (advances_value depth)).1 hread
      exact ⟨.array vs, value_array_iff.2 ⟨cs', hcs, hvs⟩, hpicks⟩
    · cases hread
  · rintro ⟨v, hv, hpick⟩
    -- only an array can be picked
    cases v with
    | array vs =>
      obtain ⟨cs', hcs, hvs⟩ := value_array_iff.1 hv
      rw [hcs]
      exact (h.itemsFrom_iff (advances_value depth)).2 ⟨vs, hvs, hpick⟩
    | _ => cases hpick

/-- A value of which `pick` keeps something, or `null`. -/
def orNull (pick : Value → Option β) : Value → Option (Option β)
  | .null => some none
  | v => (pick v).map some

theorem orNull_of_ne_null {pick : Value → Option β} (h : v ≠ .null) :
    orNull pick v = (pick v).map some := by
  cases v with
  | null => exact absurd rfl h
  | _ => rfl

theorem picks_optional {depth : Nat} {read : Reader β} {pick : Value → Option β}
    (h : Picks (value .content depth) read pick) :
    Picks (value .content depth) (optional read) (orNull pick) := by
  intro cs b rest
  rw [optional]
  split
  · next cs' hcs =>
    -- the text begins with an `n`: nothing but `null` can be read
    constructor
    · intro hword
      obtain ⟨rfl, htext⟩ := word_eq_ok hword
      refine ⟨.null, value_iff.2 ?_, rfl⟩
      rw [hcs, htext]
      exact .null
    · rintro ⟨v, hv, hpick⟩
      have hrule := value_iff.1 hv
      rw [hcs] at hrule
      obtain rfl := hrule.null_iff.2 rfl
      cases hpick
      generalize htext : 'n' :: cs' = text at hrule
      cases hrule with
      | null => exact word_append _ _ _
  · next hcs =>
    -- the text begins with another character: `null` cannot be read, and `read` decides
    have hne {v : Value} (hv : value .content depth cs = .ok (v, rest)) : v ≠ .null := by
      rintro rfl
      have hrule := value_iff.1 hv
      generalize htext : skipSpace cs = text at hrule
      cases hrule with
      | null => exact hcs _ htext
    simp only [map_fst_eq_ok_iff]
    constructor
    · rintro ⟨b', hb, rfl⟩
      obtain ⟨v, hv, hpick⟩ := h.1 hb
      have hv := (value_skipSpace depth).1 hv
      refine ⟨v, hv, ?_⟩
      rw [orNull_of_ne_null (hne hv), hpick]
      rfl
    · rintro ⟨v, hv, hpick⟩
      rw [orNull_of_ne_null (hne hv), Option.map_eq_some_iff] at hpick
      obtain ⟨b', hpick, rfl⟩ := hpick
      exact ⟨b', h.2 ⟨v, (value_skipSpace depth).2 hv, hpick⟩, rfl⟩

end Reader

end RevisionRouting.Json
