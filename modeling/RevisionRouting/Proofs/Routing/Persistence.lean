import RevisionRouting.Proofs.Routing.Staleness

/-!
# Staleness as time goes on

A document that is stale should stay stale. Its age is the difference of two counts of
nanoseconds, which grows with the clock, plus an extra second where a leap second counts. To a
clock that stands in no leap second it counts exactly if the document was changed in a leap
second at an earlier time of day (`Instant.nanosSince_of_ordinary`). The time of day starts again
at midnight. So the extra second, once counted, is given back then, and the age goes back unless a
whole second has passed meanwhile.

That is all that can go wrong (`Instant.nanosSince_le_or`): the clock has to step over midnight
in less than a second, and the leap second must not be the last second of its day, as no time of day
is later than that one. Any other leap second does go wrong, at the midnight after the next and
under a window that fits (`Policy.exists_reverting`). Hence a document is stale for good under
every policy if and only if it was not changed in such a leap second
(`Policy.shortCircuited_persists`).
-/

namespace RevisionRouting

namespace Time.Instant

/-! ### Ages as time goes on -/

/-- The last second of a day, in which leap seconds are inserted. -/
def lastSecond : Int := 86399

theorem secondOfDay_nonneg (t : Instant) : 0 ≤ t.secondOfDay := Int.emod_nonneg _ (by decide)

theorem secondOfDay_le (t : Instant) : t.secondOfDay ≤ lastSecond :=
  Int.lt_add_one_iff.1 (Int.emod_lt_of_pos _ (by decide))

/-- A leap second that has been counted before midnight no longer counts right after it. -/
structure LostAtMidnight (past now later : Instant) : Prop where
  leap : past.IsLeap
  early : past.secondOfDay < lastSecond
  /-- The clock has stood in the last second of a day. -/
  before : now.secondOfDay = lastSecond
  /-- It stands in the first second of the next. -/
  after : later.secondOfDay = 0
  close : later.nanoCount - now.nanoCount < 1000000000

/-- By an ordinary clock an age has an extra second if it began in a leap second at an earlier time
of day. -/
theorem nanosSince_of_ordinary {now : Instant} (past : Instant) (hn : ¬ now.IsLeap) :
    nanosSince now past = now.nanoCount - past.nanoCount +
      if past.secondOfDay < now.secondOfDay ∧ past.IsLeap then 1000000000 else 0 := by
  -- one extra second at most, as the clock itself stands in no leap second
  unfold nanosSince leapBetween nanoCount
  by_cases hextra : past.secondOfDay < now.secondOfDay ∧ past.IsLeap
  · rw [if_pos hextra, if_pos hextra]
    omega
  · -- only a clock in a leap second makes one count backwards
    rw [if_neg hextra, if_neg hextra, if_neg fun h => hn h.2]
    omega

/-- If the time of day falls within a second, it was midnight. -/
theorem midnight_of_lt {now later : Instant} (hn : ¬ now.IsLeap) (hl : ¬ later.IsLeap)
    (hle : now.nanoCount ≤ later.nanoCount) (hclose : later.nanoCount - now.nanoCount < 1000000000)
    (hfallen : later.secondOfDay < now.secondOfDay) :
    now.secondOfDay = lastSecond ∧ later.secondOfDay = 0 := by
  -- with the time of day fallen, the two are not the same second
  have hother : later.seconds ≠ now.seconds := by
    intro h
    rw [secondOfDay, h] at hfallen
    exact absurd hfallen (Int.lt_irrefl _)
  -- outside of leap seconds there is no way but to the next second
  have hnext : later.seconds = now.seconds + 1 := by
    unfold nanoCount at hle hclose
    unfold IsLeap at hn hl
    omega
  -- the time of day falls only where the second is the last of its day
  unfold secondOfDay lastSecond at *
  omega

/-- **An age does not go back**, but for a leap second that is lost at midnight. -/
theorem nanosSince_le_or {now later : Instant} (past : Instant) (hn : ¬ now.IsLeap)
    (hl : ¬ later.IsLeap) (hle : now.nanoCount ≤ later.nanoCount) :
    nanosSince now past ≤ nanosSince later past ∨ LostAtMidnight past now later := by
  rw [nanosSince_of_ordinary past hn, nanosSince_of_ordinary past hl]
  -- four cases, by whether the extra second counts now and whether it counts later
  by_cases hnow : past.secondOfDay < now.secondOfDay ∧ past.IsLeap
  · by_cases hlater : past.secondOfDay < later.secondOfDay ∧ past.IsLeap
    · -- the extra second counts in both ages
      left
      rw [if_pos hnow, if_pos hlater]
      omega
    · rw [if_pos hnow, if_neg hlater]
      by_cases hclose : later.nanoCount - now.nanoCount < 1000000000
      · right
        obtain ⟨hearlier, hleap⟩ := hnow
        have hfallen : later.secondOfDay < now.secondOfDay :=
          Int.lt_of_le_of_lt (Int.not_lt.1 fun h => hlater ⟨h, hleap⟩) hearlier
        obtain ⟨hbefore, hafter⟩ := midnight_of_lt hn hl hle hclose hfallen
        exact ⟨hleap, hbefore ▸ hearlier, hbefore, hafter, hclose⟩
      · -- the second that is given back has passed meanwhile
        left
        omega
  · -- nothing is given back, and the later age may have the extra second besides
    left
    rw [if_neg hnow]
    split <;> omega

theorem millisSince_le_or {now later : Instant} (past : Instant) (hn : ¬ now.IsLeap)
    (hl : ¬ later.IsLeap) (hle : now.nanoCount ≤ later.nanoCount) :
    millisSince now past ≤ millisSince later past ∨ LostAtMidnight past now later :=
  (nanosSince_le_or past hn hl hle).imp_left (Int.tdiv_le_tdiv (by decide))

/-! ### The midnight after the next -/

/-- The end of the day after that of an instant. -/
def eve (t : Instant) : Instant := ⟨(t.seconds / 86400 + 2) * 86400 - 1, 999999999, by decide⟩

/-- The beginning of the day that follows. -/
def morrow (t : Instant) : Instant := ⟨(t.seconds / 86400 + 2) * 86400, 0, zero_nanos_lt⟩

theorem not_isLeap_eve (t : Instant) : ¬ t.eve.IsLeap := by
  change ¬ 1000000000 ≤ 999999999
  decide

theorem not_isLeap_morrow (t : Instant) : ¬ t.morrow.IsLeap := by
  change ¬ 1000000000 ≤ 0
  decide

theorem secondOfDay_eve (t : Instant) : t.eve.secondOfDay = lastSecond := by
  unfold secondOfDay lastSecond eve
  dsimp only
  omega

theorem secondOfDay_morrow (t : Instant) : t.morrow.secondOfDay = 0 :=
  Int.mul_emod_left _ _

/-- They are a nanosecond apart. -/
theorem nanoCount_eve (t : Instant) : t.eve.nanoCount = t.morrow.nanoCount - 1 := by
  unfold nanoCount eve morrow
  dsimp only
  omega

/-- No leap second counts in the morning, as no time of day has passed yet. -/
theorem nanosSince_morrow (t : Instant) : t.morrow.nanosSince t = t.morrow.nanoCount - t.nanoCount := by
  -- the time of day at midnight is the least there is
  have hextra : ¬ (t.secondOfDay < t.morrow.secondOfDay ∧ t.IsLeap) := by
    rw [secondOfDay_morrow]
    exact fun h => absurd h.1 (Int.not_lt.2 t.secondOfDay_nonneg)
  rw [nanosSince_of_ordinary t t.not_isLeap_morrow, if_neg hextra, Int.add_zero]

/-- An early leap second counts in the evening, which makes that age the greater one. -/
theorem nanosSince_eve {t : Instant} (hleap : t.IsLeap) (hearly : t.secondOfDay < lastSecond) :
    t.eve.nanosSince t = t.morrow.nanosSince t + 999999999 := by
  have hextra : t.secondOfDay < t.eve.secondOfDay ∧ t.IsLeap := ⟨t.secondOfDay_eve ▸ hearly, hleap⟩
  rw [nanosSince_of_ordinary t t.not_isLeap_eve, if_pos hextra, nanosSince_morrow, nanoCount_eve]
  omega

/-- The age in the morning is between one and three days. -/
theorem nanosSince_morrow_range {t : Instant} (hearly : t.secondOfDay < lastSecond) :
    86400000000000 ≤ t.morrow.nanosSince t ∧ t.morrow.nanosSince t < 259200000000000 := by
  -- both instants are counted from the beginning of a day, two days apart
  have hnanos := t.nanos_lt
  rw [nanosSince_morrow]
  unfold secondOfDay lastSecond at hearly
  unfold nanoCount morrow
  dsimp only
  omega

end Time.Instant

namespace Policy

open Time (Instant)

/-! ### Documents that stay stale -/

/-- **A stale document stays stale**, but for a leap second that is lost at midnight. -/
theorem isResurrection_or {p : Policy} {now later : Instant} {r : Revision} (hn : ¬ now.IsLeap)
    (hl : ¬ later.IsLeap) (hle : now.nanoCount ≤ later.nanoCount)
    (h : p.isResurrection now r = true) :
    p.isResurrection later r = true ∨
      ∃ u, r.document.ChangedAt u ∧ u.LostAtMidnight now later := by
  -- the age is what decides, and a longer age is still beyond the window
  by_cases hex : ∃ u, r.document.ChangedAt u
  · obtain ⟨u, hc⟩ := hex
    rw [isResurrection_eq hc, Bool.and_eq_true, decide_eq_true_eq] at h
    rcases Instant.millisSince_le_or u hn hl hle with hage | hlost
    · left
      rw [isResurrection_eq hc, Bool.and_eq_true, decide_eq_true_eq]
      exact ⟨h.1, Int.lt_of_lt_of_le h.2 hage⟩
    · exact .inr ⟨u, hc, hlost⟩
  · -- a document that was changed at no known instant is not stale in the first place
    rw [isResurrection_of_not_changedAt fun u hc => hex ⟨u, hc⟩] at h
    exact absurd h Bool.false_ne_true

/-! ### Documents that do not -/

/-- The policy for tests with a window of the given milliseconds. -/
def ofWindowMillis (millis : Int) (hpos : 0 < millis) (hlt : millis < 1000000000000) : Policy :=
  { testing with
    window := Int64.ofInt (millis * 1000)
    window_pos := by
      rw [Int64.toInt_ofInt_of_le (by omega) (by omega)]
      omega }

theorem windowMillis_ofWindowMillis {millis : Int} (hpos : 0 < millis) (hlt : millis < 1000000000000) :
    (ofWindowMillis millis hpos hlt).windowMillis = millis := by
  have hwindow : (Int64.ofInt (millis * 1000)).toInt = millis * 1000 :=
    Int64.toInt_ofInt_of_le (by omega) (by omega)
  calc (ofWindowMillis millis hpos hlt).windowMillis
      = (millis * 1000).tdiv 1000 := congrArg (Int.tdiv · 1000) hwindow
    _ = millis := Int.mul_tdiv_cancel _ (by decide)

/-- **A document changed in an early leap second does not stay stale** under every policy: a window
as long as its age in the morning is exceeded in the evening before. -/
theorem exists_reverting {r : Revision} {u : Instant} (hprior : r.prior = none)
    (hc : r.document.ChangedAt u) (hleap : u.IsLeap)
    (hearly : u.secondOfDay < Instant.lastSecond) :
    ∃ p : Policy, p.isResurrection u.eve r = true ∧ p.isResurrection u.morrow r = false := by
  -- the window is the age in the morning in milliseconds, which fits the type
  obtain ⟨hmin, hmax⟩ := Instant.nanosSince_morrow_range hearly
  have hquot : u.morrow.millisSince u = u.morrow.nanosSince u / 1000000 :=
    Int.tdiv_eq_ediv_of_nonneg (by omega)
  have hpos : 0 < u.morrow.millisSince u := by
    rw [hquot]
    omega
  have hlt : u.morrow.millisSince u < 1000000000000 := by
    rw [hquot]
    omega
  -- in the evening before, the age is nearly a second longer, so more of its milliseconds are over
  have hlonger : u.morrow.millisSince u < u.eve.millisSince u := by
    refine (lt_tdiv_iff (Int.le_of_lt hpos) (by decide)).2 ?_
    rw [Instant.nanosSince_eve hleap hearly, hquot]
    omega
  refine ⟨ofWindowMillis _ hpos hlt, ?_, ?_⟩
  · -- without a prior only the comparison of age and window is left
    rw [isResurrection_eq hc, hprior, windowMillis_ofWindowMillis]
    exact decide_eq_true hlonger
  · rw [isResurrection_eq hc, hprior, windowMillis_ofWindowMillis]
    exact decide_eq_false (Int.lt_irrefl _)

/-! ### Which documents stay stale -/

/-- **Staleness and time.** Let two instants outside of leap seconds follow one another, and let a
document without a prior be short-circuited at the first. Then it is at the second, unless it was
changed in a leap second that is lost between them, which takes a midnight and less than a second.
So it is short-circuited for good, under every policy and from any instant on, exactly if it was
not changed in a leap second other than one in the last second of a day. -/
theorem shortCircuited_persists (d : Document) (m : Metadata) :
    (∀ (p : Policy) (now later : Instant), ¬ now.IsLeap → ¬ later.IsLeap →
      now.nanoCount ≤ later.nanoCount → (p.evaluate now ⟨d, none, m⟩).shortCircuited = true →
      (p.evaluate later ⟨d, none, m⟩).shortCircuited = true ∨
        ∃ u, d.ChangedAt u ∧ u.LostAtMidnight now later) ∧
    ((∀ (p : Policy) (now later : Instant), ¬ now.IsLeap → ¬ later.IsLeap →
      now.nanoCount ≤ later.nanoCount → (p.evaluate now ⟨d, none, m⟩).shortCircuited = true →
      (p.evaluate later ⟨d, none, m⟩).shortCircuited = true) ↔
        ∀ u, d.ChangedAt u → u.IsLeap → u.secondOfDay = Instant.lastSecond) := by
  simp only [evaluate_shortCircuited]
  have hpersists (p : Policy) (now later : Instant) (hn : ¬ now.IsLeap) (hl : ¬ later.IsLeap)
      (hle : now.nanoCount ≤ later.nanoCount)
      (h : p.isResurrection now ⟨d, none, m⟩ = true) :
      p.isResurrection later ⟨d, none, m⟩ = true ∨
        ∃ u, d.ChangedAt u ∧ u.LostAtMidnight now later :=
    isResurrection_or hn hl hle h
  refine ⟨hpersists, ?_, ?_⟩
  · intro hstays u hc hleap
    by_cases hearly : u.secondOfDay < Instant.lastSecond
    · -- the document would revert at the midnight after the next
      obtain ⟨p, hevening, hmorning⟩ := exists_reverting (r := ⟨d, none, m⟩) rfl hc hleap hearly
      have hle : u.eve.nanoCount ≤ u.morrow.nanoCount := by
        rw [u.nanoCount_eve]
        omega
      have hstill := hstays p _ _ u.not_isLeap_eve u.not_isLeap_morrow hle hevening
      rw [hmorning] at hstill
      exact absurd hstill Bool.false_ne_true
    · exact Int.le_antisymm u.secondOfDay_le (Int.not_lt.1 hearly)
  · -- no leap second is lost that is the last of its day
    intro hlast p now later hn hl hle h
    rcases hpersists p now later hn hl hle h with hstill | ⟨u, hc, hlost⟩
    · exact hstill
    · exact absurd (hlast u hc hlost.leap) (Int.ne_of_lt hlost.early)

/-- A document that was changed in a leap second at noon. -/
def leapOrphan : Revision where
  document := ⟨[("channels", .string "a"), ("updatedAt", .string "2016-12-31T11:59:60Z")]⟩
  prior := none
  metadata := .empty

/-- A window of half a second more than twelve hours. -/
def halfDayPolicy : Policy := ofWindowMillis 43200500 (by decide) (by decide)

/-- The last millisecond of that year, and the beginning of the next. -/
def yearEnd : Instant := ⟨1483228799, 999000000, by decide⟩
def yearStart : Instant := ⟨1483228800, 0, Instant.zero_nanos_lt⟩

/-- **Staleness can revert**: the document is stale at the end of the year, and no longer a
millisecond later. -/
theorem leapOrphan_reverts : ¬ yearEnd.IsLeap ∧ ¬ yearStart.IsLeap ∧
    yearEnd.nanoCount ≤ yearStart.nanoCount ∧ leapOrphan.prior = none ∧
    (halfDayPolicy.evaluate yearEnd leapOrphan).shortCircuited = true ∧
    (halfDayPolicy.evaluate yearStart leapOrphan).shortCircuited = false := by
  decide

end Policy

end RevisionRouting
