import AstroPassport.Lib.Dict
import AstroPassport.Lib.Transition
import AstroPassport.Security.Quota

set_option autoImplicit false

/-! # Concurrent requests of one credential

A request reads the clock once, waits for its authentication and only then reserves quota, so
requests may reach the quota row in another order than that of their readings. The row remembers the
latest minute granted and refuses an earlier one: the guard that makes a clock rollback fail closed
also refuses a request that was overtaken across the boundary of a minute. Here the requests, the
clock they share and the row they share are one transition system, and the refusals are
characterised exactly.

An event is a reading of the clock, which may go forward only as time does, or the reservation of a
request that has one. One reservation against a well-formed table does one of three things
(`reserveQuota_race`), and the invariant relates each row to the requests that were granted through
it, so that a refusal has a request to blame (`Explained`). `reserve_raises_iff_overtaken` is about
every interleaving, and where the requests reserve in the order of the minutes they read, none of
them raises. -/

namespace AstroPassport

/-! ## Readings -/

/-- A reading of the clock: microseconds from the epoch, in the range of an aware `datetime`. -/
structure Reading where
  us : ℤ
  ge : -62135596800000000 ≤ us
  le : us ≤ 253402300799999999

/-- The minute of a reading, as `reserve_quota` computes it. -/
def Reading.minute (t : Reading) : ℤ := truncateRat (roundRat (t.us / 1000000)) / 60

/-- No reading is out of the range of a float. -/
theorem Reading.quotaBucket_eq (t : Reading) : quotaBucket t.us = some t.minute := by
  have hle : |(t.us : ℚ) / 1000000| ≤ 2 ^ 53 := by
    have h1 : (-62135596800000000 : ℚ) ≤ t.us := by exact_mod_cast t.ge
    have h2 : (t.us : ℚ) ≤ 253402300799999999 := by exact_mod_cast t.le
    rw [abs_le]
    constructor <;> linarith
  have hsmall : |roundRat ((t.us : ℚ) / 1000000)| ≤ 2 ^ 53 := by
    have hround := roundMagnitude_mono (abs_nonneg _) hle
    have hnonneg := roundMagnitude_nonneg (abs_nonneg ((t.us : ℚ) / 1000000))
    rw [roundMagnitude_two_pow] at hround
    unfold roundRat
    split
    · rwa [abs_neg, abs_of_nonneg hnonneg]
    · rwa [abs_of_nonneg hnonneg]
  rcases Binary64.ofRat_cases ((t.us : ℚ) / 1000000) with ⟨x, hx, hval⟩ | ⟨neg, -, hbig⟩
  · rw [quotaBucket, hx, Binary64.truncate?, hval]
    rfl
  · have hpow : (2 : ℚ) ^ 53 < 2 ^ 1024 := pow_lt_pow_right₀ (by norm_num) (by norm_num)
    exact absurd (hbig.trans hsmall) (not_le.mpr hpow)

/-- A later reading is of no earlier minute. -/
theorem Reading.minute_mono {t t' : Reading} (h : t.us ≤ t'.us) : t.minute ≤ t'.minute := by
  have hq : (t.us : ℚ) / 1000000 ≤ (t'.us : ℚ) / 1000000 := by
    have : (t.us : ℚ) ≤ t'.us := by exact_mod_cast h
    linarith
  exact Int.ediv_le_ediv (by norm_num) (truncateRat_mono (roundRat_mono hq))

/-- A whole number of seconds after the epoch is read exactly. -/
theorem quotaBucket_seconds {n : ℕ} (h : n < 2 ^ 53) :
    quotaBucket (n * 1000000) = some (n / 60) := by
  have hq : ((n * 1000000 : ℤ) : ℚ) / 1000000 = (n : ℕ) := by
    push_cast
    field_simp
  obtain ⟨x, hx, hvalue⟩ := @Binary64.ofRat_intCast n (by rw [Nat.abs_cast]; exact_mod_cast h)
  rw [Int.cast_natCast] at hx
  rw [quotaBucket, hq, hx, Binary64.truncate?, hvalue, truncateRat_intCast]
  rfl

/-! ## The system -/

/-- A well-formed table: the expected version, integers in both columns, no negative count. -/
def QuotaDb.WellFormed (db : QuotaDb) : Prop :=
  db.userVersion = 1 ∧
    ∀ r ∈ db.rows, ∃ bucket used : ℤ, r.bucket = .integer bucket ∧ r.used = .integer used ∧ 0 ≤ used

/-- The clock, the requests between their reading and their reservation, the table, and the
    reservations made, each with its reading and its result. -/
structure RaceState where
  clock : Reading
  waiting : List (ℕ × Reading)
  db : QuotaDb
  log : List (Reading × Except SecurityStateError Bool)

/-- The clock advances, a request reads it, or a request that has read it reserves. -/
inductive RaceEvent where
  | tick (d : ℕ)
  | read (request : ℕ)
  | reserve (request : ℕ)

/-- One step of the requests of a credential; the database itself does not fail. -/
def raceStep (key : KeyRecord) (s : RaceState) : RaceEvent → Option RaceState
  | .tick d =>
    if h : s.clock.us + d ≤ 253402300799999999 then
      some { s with clock := ⟨s.clock.us + d, by have := s.clock.ge; omega, h⟩ }
    else none
  | .read request =>
    if (s.waiting.lookup request).isSome then none
    else some { s with waiting := (request, s.clock) :: s.waiting }
  | .reserve request =>
    (s.waiting.lookup request).map fun t =>
      let r := reserveQuota s.db none key t.us
      { s with
        waiting := s.waiting.filter fun w => w.1 ≠ request
        db := r.2
        log := s.log ++ [(t, r.1)] }

/-! ## What one reservation does -/

/-- The credential's row is of a later minute. -/
def QuotaDb.Later (db : QuotaDb) (keyId : String) (minute : ℤ) : Prop :=
  ∃ row bucket, db.row? keyId = some row ∧ row.bucket = .integer bucket ∧ minute < bucket

/-- There is room for the credential: it has a row, or the table is not full. -/
def QuotaDb.HasRoom (db : QuotaDb) (keyId : String) : Prop :=
  (db.row? keyId).isSome ∨ db.rows.length < 128

theorem QuotaDb.row?_replace (db : QuotaDb) (row : QuotaRow) :
    (db.replace row).row? row.keyId = some row := by
  have hnone : (db.rows.filter fun r => r.keyId ≠ row.keyId).find? (fun r => r.keyId = row.keyId)
      = none := by
    simp
  simp only [QuotaDb.row?, QuotaDb.replace, List.find?_append, hnone, Option.none_or]
  simp

theorem QuotaDb.WellFormed.replace {db : QuotaDb} (h : db.WellFormed) {keyId : String}
    {bucket used : ℤ} (hused : 0 ≤ used) :
    (db.replace ⟨keyId, .integer bucket, .integer used⟩).WellFormed := by
  refine ⟨h.1, fun r hr => ?_⟩
  rcases QuotaDb.mem_replace.1 hr with ⟨hr, -⟩ | rfl
  · exact h.2 r hr
  · exact ⟨bucket, used, rfl, rfl, hused⟩

/-- Where the database does not fail, the count to start from is refused only by a later row. -/
theorem usedBefore_cases {db : QuotaDb} (h : db.WellFormed) {keyId : String} (hroom : db.HasRoom keyId)
    (minute : ℤ) :
    (db.Later keyId minute ∧ usedBefore db none keyId minute = .error .unavailable) ∨
    (¬ db.Later keyId minute ∧ ∃ used, 0 ≤ used ∧ usedBefore db none keyId minute = .ok used) := by
  cases hrow : db.row? keyId with
  | none =>
      have hlen : ¬ 128 ≤ db.rows.length := by
        rcases hroom with hsome | hlt
        · rw [hrow] at hsome
          cases hsome
        · omega
      refine Or.inr ⟨?_, 0, le_rfl, ?_⟩
      · rintro ⟨row, bucket, hrow', -⟩
        rw [hrow] at hrow'
        cases hrow'
      · simp [usedBefore, hrow, reach, hlen, bind, Except.bind]
  | some row =>
      obtain ⟨bucket, used, hbucket, hused, hnonneg⟩ := h.2 row (QuotaDb.row?_eq_some hrow).1
      by_cases hlater : minute < bucket
      · refine Or.inl ⟨⟨row, bucket, hrow, hbucket, hlater⟩, ?_⟩
        simp [usedBefore, hrow, hbucket, hused, hlater]
      · refine Or.inr ⟨?_, ?_⟩
        · rintro ⟨row', bucket', hrow', hbucket', hlt⟩
          cases hrow.symm.trans hrow'
          cases hbucket.symm.trans hbucket'
          exact hlater hlt
        · have hgood : ¬ (used < 0 ∨ minute < bucket) := by omega
          by_cases heq : bucket = minute
          · exact ⟨used, hnonneg, by simp [usedBefore, hrow, hbucket, hused, heq, hnonneg]⟩
          · exact ⟨0, le_rfl, by simp [usedBefore, hrow, hbucket, hused, hgood, heq]⟩

/-- A reservation raises exactly when the row is of a later minute. Otherwise the table stays well
    formed with room for the credential, and the row is then of the minute of the reading if it was
    granted. -/
theorem reserveQuota_race {db : QuotaDb} {key : KeyRecord} (h : db.WellFormed)
    (hroom : db.HasRoom key.keyId) (t : Reading) :
    let r := reserveQuota db none key t.us
    (r.1 = .error .unavailable ↔ db.Later key.keyId t.minute) ∧
    r.2.WellFormed ∧ r.2.HasRoom key.keyId ∧
    (r.1 ≠ .ok true → r.2 = db) ∧
    (r.1 = .ok true → ∀ m, r.2.Later key.keyId m ↔ m < t.minute) := by
  intro r
  have hunchanged : r.1 ≠ .ok true → r.2 = db := fun hne => reserveQuota_unchanged hne
  -- a grant replaces the row of the key by the bucket of the request
  have hgranted : r.1 = .ok true → r.2.WellFormed ∧ r.2.HasRoom key.keyId ∧
      ∀ m, r.2.Later key.keyId m ↔ m < t.minute := by
    intro hok
    obtain ⟨bucket, used, hbucket, hused, -, hdb⟩ := reserveQuota_granted hok
    cases t.quotaBucket_eq.symm.trans hbucket
    have hnonneg : 0 ≤ used := by
      rcases usedBefore_eq_ok hused with ⟨-, -, rfl⟩ | ⟨row, p, count, -, -, -, hcount, -, rfl⟩
      · exact le_rfl
      · split <;> omega
    have hrow := QuotaDb.row?_replace db ⟨key.keyId, .integer t.minute, .integer (used + 1)⟩
    change r.2 = _ at hdb
    rw [hdb]
    refine ⟨h.replace (by omega), Or.inl (by rw [hrow]; rfl), fun m => ?_⟩
    constructor
    · rintro ⟨row, b, hrow', hb, hlt⟩
      cases hrow.symm.trans hrow'
      cases hb
      exact hlt
    · exact fun hlt => ⟨_, t.minute, hrow, rfl, hlt⟩
  -- a refusal for the limit is an answer; only a later row raises
  have hresult : r.1 = .error .unavailable ↔ db.Later key.keyId t.minute := by
    show (reserveQuota db none key t.us).1 = _ ↔ _
    have hversion : ¬ db.userVersion ≠ 1 := not_not.mpr h.1
    rcases usedBefore_cases h hroom t.minute with ⟨hlater, hused⟩ | ⟨hnot, used, -, hused⟩
    · simp only [reserveQuota, reserveTransaction, reach, t.quotaBucket_eq, orUnavailable, bind,
        Except.bind, hversion, hused, reduceCtorEq, if_false, hlater]
    · simp only [reserveQuota, reserveTransaction, reach, t.quotaBucket_eq, orUnavailable, bind,
        Except.bind, hversion, hused, reduceCtorEq, if_false, hnot, iff_false]
      by_cases hlimit : (key.perMinute : ℤ) ≤ used <;> simp [hlimit, pure, Except.pure]
  refine ⟨hresult, ?_, ?_, hunchanged, fun hok => (hgranted hok).2.2⟩
  · by_cases hok : r.1 = .ok true
    · exact (hgranted hok).1
    · rw [hunchanged hok]
      exact h
  · by_cases hok : r.1 = .ok true
    · exact (hgranted hok).2.1
    · rw [hunchanged hok]
      exact hroom

/-! ## Runs -/

/-- An entry of the log is explained by the table at the start and by the grants before it: it
    raised exactly when the row was of a later minute from the start, or was made so by a request
    that overtook it. -/
def Explained (db : QuotaDb) (keyId : String) (before : List (Reading × Except SecurityStateError Bool))
    (e : Reading × Except SecurityStateError Bool) : Prop :=
  e.2 = .error .unavailable ↔
    db.Later keyId e.1.minute ∨ ∃ o ∈ before, o.2 = .ok true ∧ e.1.minute < o.1.minute

/-- The table keeps its form, its row is as late as the start or the latest grant makes it, every
    entry so far is explained, and no reading is earlier than the start. -/
structure RaceInv (key : KeyRecord) (db : QuotaDb) (start : Reading) (s : RaceState) : Prop where
  wellFormed : s.db.WellFormed
  room : s.db.HasRoom key.keyId
  later : ∀ m, s.db.Later key.keyId m ↔
    db.Later key.keyId m ∨ ∃ o ∈ s.log, o.2 = .ok true ∧ m < o.1.minute
  explained : ∀ pre e post, s.log = pre ++ e :: post → Explained db key.keyId pre e
  clock : start.us ≤ s.clock.us
  waiting : ∀ w ∈ s.waiting, start.us ≤ w.2.us
  read : ∀ e ∈ s.log, start.us ≤ e.1.us

theorem QuotaDb.Later.of_le {db : QuotaDb} {keyId : String} {m m' : ℤ} (h : db.Later keyId m')
    (hle : m ≤ m') : db.Later keyId m := by
  obtain ⟨row, bucket, hrow, hbucket, hlt⟩ := h
  exact ⟨row, bucket, hrow, hbucket, by omega⟩

/-- A reservation extends the explanation of the log by one entry. -/
theorem RaceInv.reserve {key : KeyRecord} {db : QuotaDb} {start t : Reading} {s : RaceState}
    (h : RaceInv key db start s) (ht : start.us ≤ t.us) (waiting : List (ℕ × Reading))
    (hwaiting : ∀ w ∈ waiting, start.us ≤ w.2.us) :
    let r := reserveQuota s.db none key t.us
    RaceInv key db start ⟨s.clock, waiting, r.2, s.log ++ [(t, r.1)]⟩ := by
  intro r
  obtain ⟨hraise, hform, hroom, hsame, hgrant⟩ := reserveQuota_race h.wellFormed h.room t
  change (r.1 = _ ↔ _) at hraise
  change r.1 ≠ _ → r.2 = _ at hsame
  change r.1 = _ → _ at hgrant
  constructor
  · exact hform
  · exact hroom
  · intro m
    show r.2.Later key.keyId m ↔ _
    simp only [List.mem_append, List.mem_singleton]
    by_cases hok : r.1 = .ok true
    · rw [hgrant hok m]
      constructor
      · exact fun hlt => Or.inr ⟨(t, r.1), Or.inr rfl, hok, hlt⟩
      · -- no row was later than the minute just granted
        have hnot : ¬ s.db.Later key.keyId t.minute := fun hlater => by
          rw [hraise.mpr hlater] at hok
          cases hok
        rintro (hstart | ⟨o, ho | rfl, hgranted, hlt⟩)
        · by_contra hge
          exact hnot (((h.later m).mpr (Or.inl hstart)).of_le (not_lt.mp hge))
        · by_contra hge
          exact hnot ((h.later t.minute).mpr (Or.inr ⟨o, ho, hgranted, by omega⟩))
        · exact hlt
    · rw [hsame hok, h.later m]
      constructor
      · rintro (hstart | ⟨o, ho, hgranted, hlt⟩)
        · exact Or.inl hstart
        · exact Or.inr ⟨o, Or.inl ho, hgranted, hlt⟩
      · rintro (hstart | ⟨o, ho | rfl, hgranted, hlt⟩)
        · exact Or.inl hstart
        · exact Or.inr ⟨o, ho, hgranted, hlt⟩
        · exact absurd hgranted hok
  · refine forall_split_snoc.2 ⟨h.explained, ?_⟩
    rw [Explained, hraise, h.later]
  · exact h.clock
  · exact hwaiting
  · intro e he
    rcases List.mem_append.mp he with he | he
    · exact h.read e he
    · cases List.mem_singleton.mp he
      exact ht

theorem RaceInv.step {key : KeyRecord} {db : QuotaDb} {start : Reading} {s s' : RaceState}
    {e : RaceEvent} (h : RaceInv key db start s) (hstep : raceStep key s e = some s') :
    RaceInv key db start s' := by
  cases e with
  | tick d =>
      simp only [raceStep] at hstep
      split at hstep
      · cases hstep
        have hclock := h.clock
        exact { h with clock := by show start.us ≤ s.clock.us + d; omega }
      · cases hstep
  | read request =>
      simp only [raceStep] at hstep
      split at hstep
      · cases hstep
      · cases hstep
        exact { h with waiting := List.forall_mem_cons.mpr ⟨h.clock, h.waiting⟩ }
  | reserve request =>
      simp only [raceStep, Option.map_eq_some_iff] at hstep
      obtain ⟨t, ht, rfl⟩ := hstep
      apply h.reserve (h.waiting _ (mem_of_lookup ht))
      exact fun w hw => h.waiting w (List.mem_of_mem_filter hw)

/-- **Which reservations raise.** On a well-formed table with fewer than 128 rows, however the steps
    of the requests interleave: a reservation raises exactly when the credential's row was of a
    later minute from the start, or a request whose reading is of a later minute was granted before
    it. When the row is of no later minute than the clock at the start and the requests reserve in
    the order of the minutes they read, none raises. -/
theorem reserve_raises_iff_overtaken (key : KeyRecord) (db : QuotaDb) (start : Reading)
    (events : List RaceEvent) (s : RaceState) (hform : db.WellFormed) (hsize : db.rows.length < 128)
    (hrun : run (raceStep key) ⟨start, [], db, []⟩ events = some s) :
    (∀ pre e post, s.log = pre ++ e :: post →
      (e.2 = .error .unavailable ↔
        db.Later key.keyId e.1.minute ∨ ∃ o ∈ pre, o.2 = .ok true ∧ e.1.minute < o.1.minute)) ∧
    (¬ db.Later key.keyId start.minute →
      s.log.Pairwise (fun a b => a.1.minute ≤ b.1.minute) →
      ∀ e ∈ s.log, e.2 ≠ .error .unavailable) := by
  -- an empty log, and no request waiting
  have hinit : RaceInv key db start ⟨start, [], db, []⟩ :=
    { wellFormed := hform
      room := Or.inr hsize
      later := by simp
      explained := by simp
      clock := le_rfl
      waiting := by simp
      read := by simp }
  have h : RaceInv key db start s := run_invariant (fun _ _ _ hs hi => hi.step hs) hrun hinit
  refine ⟨h.explained, fun hstart hsorted e he hraised => ?_⟩
  obtain ⟨pre, post, hsplit⟩ := List.append_of_mem he
  rcases (h.explained pre e post hsplit).mp hraised with hlater | ⟨o, ho, -, hlt⟩
  · exact hstart (hlater.of_le (Reading.minute_mono (h.read e he)))
  · rw [hsplit, List.pairwise_append] at hsorted
    -- an overtaking request would stand before with a later minute
    have hle := hsorted.2.2 o ho e (List.mem_cons_self ..)
    omega

/-- The clock only goes forward, and still a reservation raises: request 0 reads 00:00:59, request 1
    reads 00:01:00 and is granted first. -/
theorem reserve_raises_without_rollback :
    let key : KeyRecord := ⟨"0123456789abcdef", 60, by decide, le_rfl⟩
    let start : Reading := ⟨1893456059 * 1000000, by decide, by decide⟩
    initializeQuota.WellFormed ∧ initializeQuota.rows.length < 128 ∧
    ∃ s, run (raceStep key) ⟨start, [], initializeQuota, []⟩
        [.read 0, .tick 1000000, .read 1, .reserve 1, .reserve 0] = some s ∧
      ∃ e ∈ s.log, e.2 = .error .unavailable := by
  intro key start
  have hearly : quotaBucket 1893456059000000 = some 31557600 :=
    quotaBucket_seconds (n := 1893456059) (by norm_num)
  have hlate : quotaBucket 1893456060000000 = some 31557601 :=
    quotaBucket_seconds (n := 1893456060) (by norm_num)
  refine ⟨⟨rfl, by simp [initializeQuota]⟩, by decide, ?_⟩
  simp [run, raceStep, key, start, reserveQuota, reserveTransaction, reach, orUnavailable, hearly,
    hlate, usedBefore, QuotaDb.row?, QuotaDb.replace, initializeQuota, bind, Except.bind, pure,
    Except.pure]

/-- A quarter of a second into 00:00:59 request 0 reads the clock, a second later request 1 does and
    reserves first; the credential has a row of an earlier minute and another credential one of this
    minute. Request 1 is not refused and request 0, which it overtook, is. -/
theorem reserve_raises_iff_overtaken_two :
    let key : KeyRecord := ⟨"0123456789abcdef", 60, by decide, le_rfl⟩
    let start : Reading := ⟨1893456059250000, by decide, by decide⟩
    let db : QuotaDb := ⟨1, [⟨"fedcba9876543210", .integer 31557600, .integer 3⟩,
      ⟨"0123456789abcdef", .integer 31557599, .integer 7⟩], by decide⟩
    ∃ s early late, run (raceStep key) ⟨start, [], db, []⟩
        [.read 0, .tick 1000000, .read 1, .reserve 1, .reserve 0] = some s ∧
      s.log = [late, early] ∧ late.2 ≠ .error .unavailable ∧ early.2 = .error .unavailable := by
  intro key start db
  have hearly : quotaBucket 1893456059250000 = some 31557600 :=
    quotaBucket_eq_minute (by norm_num) (by norm_num)
  have hlate : quotaBucket 1893456060250000 = some 31557601 :=
    quotaBucket_eq_minute (by norm_num) (by norm_num)
  obtain ⟨s, early, late, hrun, hlog, hearlyUs, hlateUs, hgranted⟩ : ∃ s early late,
      run (raceStep key) ⟨start, [], db, []⟩
        [.read 0, .tick 1000000, .read 1, .reserve 1, .reserve 0] = some s ∧
      s.log = [late, early] ∧ early.1.us = 1893456059250000 ∧ late.1.us = 1893456060250000 ∧
      late.2 = .ok true := by
    simp [run, raceStep, key, start, db, reserveQuota, reserveTransaction, reach, orUnavailable,
      hearly, hlate, usedBefore, QuotaDb.row?, QuotaDb.replace, bind, Except.bind, pure, Except.pure]
  have hearlyMinute : early.1.minute = 31557600 := by
    have h := early.1.quotaBucket_eq
    rw [hearlyUs, hearly] at h
    exact (Option.some.inj h).symm
  have hlateMinute : late.1.minute = 31557601 := by
    have h := late.1.quotaBucket_eq
    rw [hlateUs, hlate] at h
    exact (Option.some.inj h).symm
  have hform : db.WellFormed := ⟨rfl, by simp [db]⟩
  have hiff := (reserve_raises_iff_overtaken key db start _ s hform (by decide) hrun).1
  refine ⟨s, early, late, hrun, hlog, ?_, ?_⟩
  · rw [hgranted]
    simp
  · -- request 1 was granted before, and its minute is the later one
    refine (hiff [late] early [] hlog).mpr (Or.inr ⟨late, List.mem_singleton_self _, hgranted, ?_⟩)
    omega

end AstroPassport
