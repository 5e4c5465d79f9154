import RevisionRouting.Session

/-!
# When a document is stale

Away from leap seconds the time between two instants is the difference of their
counts of nanoseconds (`Instant.nanosSince_of_not_isLeap`), whatever offsets they
were written with. Age and window are cut to whole milliseconds each for itself
before they are compared. Both cuts go toward zero, and the window is positive,
so the comparison has an exact meaning (`lt_tdiv_iff`): the age reaches the
millisecond after the last whole one of the window. It follows that a stale
document has outlived the window, and that a document which has outlived it by a
millisecond is stale.
-/

namespace RevisionRouting

namespace Time.Instant

/-- The nanoseconds since the beginning of 1970. -/
def nanoCount (t : Instant) : Int := t.seconds * 1000000000 + t.nanos

/-- Away from leap seconds no extra second lies between two instants. -/
theorem leapBetween_of_not_isLeap {now past : Instant} (hn : ¬ now.IsLeap) (hp : ¬ past.IsLeap) :
    leapBetween now past = 0 := by
  rw [leapBetween, if_neg fun h => hp h.2, if_neg fun h => hn h.2]

theorem nanosSince_of_not_isLeap {now past : Instant} (hn : ¬ now.IsLeap) (hp : ¬ past.IsLeap) :
    nanosSince now past = now.nanoCount - past.nanoCount := by
  rw [nanosSince, leapBetween_of_not_isLeap hn hp, nanoCount, nanoCount]
  omega

end Time.Instant

/-- A whole number below a cut quotient: the dividend reaches the next multiple. The number must
not be negative, as below zero the cut goes the other way. -/
theorem lt_tdiv_iff {w a k : Int} (hw : 0 ≤ w) (hk : 0 < k) : w < a.tdiv k ↔ (w + 1) * k ≤ a := by
  rcases Int.lt_or_le a 0 with ha | ha
  · -- below zero the cut goes up, but not beyond zero: both sides are false
    have hquot : a.tdiv k ≤ 0 := by
      rw [← Int.neg_neg a, Int.neg_tdiv]
      have := Int.tdiv_nonneg (a := -a) (b := k) (by omega) (by omega)
      omega
    have hmul : 0 ≤ (w + 1) * k := Int.mul_nonneg (by omega) (by omega)
    omega
  · -- from zero on the cut is the floor
    rw [Int.tdiv_eq_ediv_of_nonneg ha]
    exact Int.le_ediv_iff_mul_le hk

/-! ### The instant of the last change -/

/-- The field `updatedAt` of a document is a text that names the instant. -/
def Document.ChangedAt (d : Document) (u : Time.Instant) : Prop :=
  ∃ text stamp, d.get? "updatedAt" = some (.string text) ∧
    Time.Stamp.ofChars? (Text.trim text.toList) = .ok stamp ∧ stamp.instant = u

namespace Document

theorem updatedAt_eq_some_iff {d : Document} {stamp : Time.Stamp} :
    d.updatedAt = some stamp ↔ ∃ text, d.get? "updatedAt" = some (.string text) ∧
      Time.Stamp.ofChars? (Text.trim text.toList) = .ok stamp := by
  unfold updatedAt
  -- the field is missing, is a text that is parsed, or has another type
  cases d.get? "updatedAt" with
  | none => simp
  | some v =>
    cases v with
    | string text =>
      change (Time.Stamp.ofChars? (Text.trim text.toList)).toOption = some stamp ↔ _
      cases hparse : Time.Stamp.ofChars? (Text.trim text.toList) with
      | error f => simp [Except.toOption, hparse]
      | ok stamp' => simp [Except.toOption, hparse]
    | _ => simp [Json.Value.asString?]

/-- A document was changed at the instant of its stamp, and at no other. -/
theorem changedAt_iff {d : Document} {u : Time.Instant} :
    d.ChangedAt u ↔ ∃ stamp, d.updatedAt = some stamp ∧ stamp.instant = u := by
  constructor
  · rintro ⟨text, stamp, htext, hstamp, hu⟩
    exact ⟨stamp, updatedAt_eq_some_iff.2 ⟨text, htext, hstamp⟩, hu⟩
  · rintro ⟨stamp, hstamp, hu⟩
    obtain ⟨text, htext, hparse⟩ := updatedAt_eq_some_iff.1 hstamp
    exact ⟨text, stamp, htext, hparse, hu⟩

theorem ChangedAt.unique {d : Document} {u v : Time.Instant} (hu : d.ChangedAt u)
    (hv : d.ChangedAt v) : u = v := by
  obtain ⟨stamp, hstamp, rfl⟩ := changedAt_iff.1 hu
  obtain ⟨stamp', hstamp', rfl⟩ := changedAt_iff.1 hv
  rw [hstamp, Option.some.injEq] at hstamp'
  rw [hstamp']

end Document

/-! ### The decision -/

namespace Policy

variable {p : Policy} {now u : Time.Instant} {r : Revision}

theorem windowMillis_nonneg (p : Policy) : 0 ≤ p.windowMillis :=
  Int.tdiv_nonneg (Int.le_of_lt p.window_pos) (by decide)

/-- The time to live is a whole number of seconds, and none of it is lost. -/
theorem ttlSeconds_mul (p : Policy) : (p.ttlSeconds.toNat : Int) * 1000000 = p.ttl.toInt := by
  have hpos := p.ttl_pos
  have hlt := p.ttl.toInt_lt
  -- the seconds are those of the count of millions, which is positive and below 2 ^ 63
  obtain ⟨k, hk⟩ := p.ttl_whole
  have hsecs : secondsOf p.ttl = k := by
    rw [secondsOf, hk, Int.mul_tdiv_cancel_left k (by decide)]
  rw [ttlSeconds, hsecs, Nat.toUInt64_eq, UInt64.toNat_ofNat', Nat.mod_eq_of_lt (by omega)]
  omega

/-- The window counts as exceeded in a given age of a document. -/
theorem isResurrection_eq (h : r.document.ChangedAt u) :
    p.isResurrection now r =
      (r.prior.isNone && decide (p.windowMillis < now.millisSince u)) := by
  obtain ⟨stamp, hstamp, rfl⟩ := Document.changedAt_iff.1 h
  rw [isResurrection, Document.ageMillis, hstamp]
  rfl

/-- Nothing speaks for the age of a document that was changed at no known instant. -/
theorem isResurrection_of_not_changedAt (h : ∀ u, ¬ r.document.ChangedAt u) :
    p.isResurrection now r = false := by
  have hnone : r.document.updatedAt = none := by
    rw [Option.eq_none_iff_forall_ne_some]
    intro stamp hstamp
    exact h _ (Document.changedAt_iff.2 ⟨stamp, hstamp, rfl⟩)
  rw [isResurrection, Document.ageMillis, hnone]
  exact Bool.and_false _

theorem evaluate_shortCircuited : (p.evaluate now r).shortCircuited = p.isResurrection now r := by
  unfold evaluate
  cases p.isResurrection now r <;> rfl

/-- Away from leap seconds an orphan is a resurrection if its age, cut to milliseconds, exceeds
the window, cut likewise. -/
theorem isResurrection_iff (hn : ¬ now.IsLeap) (hu : ∀ u, r.document.ChangedAt u → ¬ u.IsLeap) :
    p.isResurrection now r = true ↔ r.prior = none ∧ ∃ u, r.document.ChangedAt u ∧
      p.window.toInt.tdiv 1000 < (now.nanoCount - u.nanoCount).tdiv 1000000 := by
  constructor
  · intro h
    -- a document that was changed at no known instant is never short-circuited
    by_cases hex : ∃ u, r.document.ChangedAt u
    · obtain ⟨u, hc⟩ := hex
      rw [isResurrection_eq hc, Bool.and_eq_true, Option.isNone_iff_eq_none, decide_eq_true_eq,
        Time.Instant.millisSince, Time.Instant.nanosSince_of_not_isLeap hn (hu u hc)] at h
      exact ⟨h.1, u, hc, h.2⟩
    · rw [isResurrection_of_not_changedAt fun u hc => hex ⟨u, hc⟩] at h
      exact absurd h Bool.false_ne_true
  · rintro ⟨hprior, u, hc, hlt⟩
    rw [isResurrection_eq hc, hprior, Time.Instant.millisSince,
      Time.Instant.nanosSince_of_not_isLeap hn (hu u hc)]
    exact decide_eq_true hlt

/-- **The rule of resurrection, in exact integers.** Let neither the clock nor the document's stamp
stand in a leap second. A revision is short-circuited exactly if it has no prior and its document
was changed at an instant from which more milliseconds have passed than the window has, both cut
toward zero. Then the whole window has passed, and it suffices that a millisecond more has passed.
A short-circuited revision gets the policy's channel and time to live, any other what its document
asks for. -/
theorem evaluate_shortCircuited_iff (p : Policy) (now : Time.Instant) (r : Revision)
    (hn : ¬ now.IsLeap) (hu : ∀ u, r.document.ChangedAt u → ¬ u.IsLeap) :
    ((p.evaluate now r).shortCircuited = true ↔ r.prior = none ∧
      ∃ u, r.document.ChangedAt u ∧
        p.window.toInt.tdiv 1000 < (now.nanoCount - u.nanoCount).tdiv 1000000) ∧
    (∀ u, r.document.ChangedAt u → (p.evaluate now r).shortCircuited = true →
      p.window.toInt * 1000 < now.nanoCount - u.nanoCount) ∧
    (∀ u, r.prior = none → r.document.ChangedAt u →
      p.window.toInt * 1000 + 1000000 ≤ now.nanoCount - u.nanoCount →
        (p.evaluate now r).shortCircuited = true) ∧
    ((p.evaluate now r).shortCircuited = true →
      (p.evaluate now r).channels.names = [p.channel] ∧
      (p.evaluate now r).expiry = some (.relative p.ttlSeconds) ∧
      (p.ttlSeconds.toNat : Int) * 1000000 = p.ttl.toInt) ∧
    ((p.evaluate now r).shortCircuited = false →
      p.evaluate now r = ⟨r.document.channels, r.document.expiry, false⟩) ∧
    p.isResurrection now r = (p.evaluate now r).shortCircuited ∧
    ∀ id, (p.revise now id r).1 = p.evaluate now r := by
  have hw := p.window_pos
  have hiff := isResurrection_iff (p := p) hn hu
  -- what the comparison of the two cut quotients means for the age itself
  have hlt {a : Int} : p.window.toInt.tdiv 1000 < a.tdiv 1000000 ↔
      (p.window.toInt.tdiv 1000 + 1) * 1000000 ≤ a :=
    lt_tdiv_iff p.windowMillis_nonneg (by decide)
  have hcut : p.window.toInt.tdiv 1000 = p.window.toInt / 1000 :=
    Int.tdiv_eq_ediv_of_nonneg (by omega)
  -- the flag of a decision is the outcome of the test
  rw [evaluate_shortCircuited]
  refine ⟨hiff, ?_, ?_, ?_, ?_, rfl, fun _ => rfl⟩
  · -- the cut age is a millisecond beyond the cut window at least, hence beyond the window
    intro u hc h
    obtain ⟨-, v, hv, hage⟩ := hiff.1 h
    obtain rfl := hv.unique hc
    rw [hlt, hcut] at hage
    omega
  · -- a whole millisecond beyond the window survives both cuts
    intro u hprior hc hage
    refine hiff.2 ⟨hprior, u, hc, hlt.2 ?_⟩
    rw [hcut]
    omega
  · intro h
    rw [evaluate, if_pos h]
    exact ⟨rfl, rfl, p.ttlSeconds_mul⟩
  · intro h
    rw [evaluate, h]
    rfl

/-- A document without a prior that was changed on 10 March 2024 at half past ten, written with an
offset of an hour. -/
def orphan : Revision where
  document := ⟨[("channels", .string "a"), ("updatedAt", .string " 2024-03-10T11:30:00+01:00")]⟩
  prior := none
  metadata := .empty

/-- Half past ten and noon of that day. -/
def halfPastTen : Time.Instant := ⟨1710066600, 0, by decide⟩
def noon : Time.Instant := ⟨1710072000, 0, by decide⟩

theorem orphan_changedAt : orphan.document.ChangedAt halfPastTen :=
  ⟨" 2024-03-10T11:30:00+01:00",
    ⟨⟨2024, 3, 10⟩, ⟨11, 30, 0, 0, by decide, by decide, by decide, by decide, by decide⟩, 60⟩,
    rfl, rfl, by decide⟩

/-- At noon the document has outlived a window of an hour, and goes to the cleanup channel. -/
theorem evaluate_orphan_at_noon : ¬ noon.IsLeap ∧ ¬ halfPastTen.IsLeap ∧
    (testing.evaluate noon orphan).shortCircuited = true ∧
    (testing.evaluate noon orphan).channels.names = ["soft_deleted"] := by
  have hn : ¬ noon.IsLeap := by decide
  have hu : ¬ halfPastTen.IsLeap := by decide
  obtain ⟨-, -, hsuffices, hstale, -⟩ := evaluate_shortCircuited_iff testing noon orphan hn
    fun u hc => orphan_changedAt.unique hc ▸ hu
  have hshort := hsuffices halfPastTen rfl orphan_changedAt (by decide)
  exact ⟨hn, hu, hshort, (hstale hshort).1⟩

end Policy

end RevisionRouting
