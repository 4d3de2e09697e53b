import AstroPassport.Lib.Binary64
import AstroPassport.Lib.Except
import AstroPassport.Lib.Unicode

set_option autoImplicit false

/-! # The durable quota of `app/security.py`

`reserve_quota` counts the attempts of a credential in the current UTC minute in one SQLite row per
credential, inside a `BEGIN IMMEDIATE` transaction. The row remembers one minute only, so what keeps
the count right after a change of minute or a clock that went back is the relation between the row
and the whole history of grants: `QuotaInv`. Each database statement may fail; a failure, like any
other exception, leaves the table as it was, which is SQLite's atomicity.

The invariant says of the row of a credential that its minute is the latest that was granted and its
count the number of grants in that minute. A call either grants, in this minute or a new one, or
changes nothing (`reserveQuota_granted`, `reserveQuota_unchanged`), and each case keeps the
invariant; `quota_exact` is what follows for every run. The minute is the one the code computes, by
truncation of a float number of seconds, and `quotaBucket_eq_minute` says for which readings of the
clock it is the UTC minute. -/

namespace AstroPassport

/-! ## Credentials, clock and table -/

/-- What `reserve_quota` reads of a `KeyRecord`. -/
structure KeyRecord where
  keyId : String
  perMinute : ℕ
  one_le : 1 ≤ perMinute
  le_sixty : perMinute ≤ 60

/-- `int(now.timestamp()) // 60`, of an aware `now` in microseconds from the epoch: the seconds are
    the nearest binary64 of the exact quotient. -/
def quotaBucket (now : ℤ) : Option ℤ :=
  (Binary64.ofRat (now / 1000000)).truncate?.map fun seconds => seconds / 60

/-- A microsecond count over a million is its whole seconds and a fraction below one by a
    microsecond at least. -/
theorem microseconds_div (us : ℤ) : ∃ f : ℚ, 0 ≤ f ∧ f ≤ 1 - 1 / 1000000 ∧
    (us : ℚ) / 1000000 = (us / 1000000 : ℤ) + f := by
  have hmod0 : (0 : ℚ) ≤ (us % 1000000 : ℤ) := by exact_mod_cast (by omega : 0 ≤ us % 1000000)
  have hmod : ((us % 1000000 : ℤ) : ℚ) ≤ 999999 := by
    exact_mod_cast (by omega : us % 1000000 ≤ 999999)
  have hsplit : (us : ℚ) = 1000000 * (us / 1000000 : ℤ) + (us % 1000000 : ℤ) := by
    exact_mod_cast (by omega : us = 1000000 * (us / 1000000) + us % 1000000)
  refine ⟨(us % 1000000 : ℤ) / 1000000, by positivity, by linarith, ?_⟩
  rw [hsplit]
  ring

/-- Below `2 ^ 34` seconds half a unit of the float is less than a microsecond, so the rounding does
    not reach the next full second. -/
theorem roundRat_seconds_lt {us : ℤ} (h0 : 0 ≤ us) (h : us < 2 ^ 34 * 1000000) :
    roundRat ((us : ℚ) / 1000000) < (us / 1000000 : ℤ) + 1 := by
  have hunit : unitExp ((us : ℚ) / 1000000) ≤ -19 := by
    apply unitExp_le (by norm_num)
    have hlt : (us : ℚ) < 2 ^ 34 * 1000000 := by exact_mod_cast h
    have hpow : (2 : ℚ) ^ 53 * 2 ^ (-19 : ℤ) = 2 ^ 34 := by norm_num
    rw [hpow, div_lt_iff₀ (by norm_num)]
    exact hlt
  have hhalf : (2 : ℚ) ^ unitExp ((us : ℚ) / 1000000) / 2 < 1 / 1000000 := by
    have hle : (2 : ℚ) ^ unitExp ((us : ℚ) / 1000000) ≤ 2 ^ (-19 : ℤ) :=
      zpow_le_zpow_right₀ (by norm_num) hunit
    have hvalue : (2 : ℚ) ^ (-19 : ℤ) / 2 < 1 / 1000000 := by norm_num
    linarith
  have hnonneg : 0 ≤ (us : ℚ) / 1000000 := by positivity
  have hround : roundRat ((us : ℚ) / 1000000) = roundMagnitude ((us : ℚ) / 1000000) := by
    rw [roundRat, if_neg (not_lt.mpr hnonneg), abs_of_nonneg hnonneg]
  have hnear := (abs_le.mp (abs_roundMagnitude_sub_le ((us : ℚ) / 1000000))).2
  obtain ⟨f, -, hf, hq⟩ := microseconds_div us
  rw [hround]
  linarith

/-- The full seconds are a float, so the rounding does not fall below them. -/
theorem le_roundRat_seconds {us : ℤ} (h0 : 0 ≤ us) (h : us < 2 ^ 34 * 1000000) :
    ((us / 1000000 : ℤ) : ℚ) ≤ roundRat ((us : ℚ) / 1000000) := by
  have hsmall : |us / 1000000| < 2 ^ 53 := by
    rw [abs_of_nonneg (by omega)]
    omega
  obtain ⟨f, hf, -, hq⟩ := microseconds_div us
  rw [← roundRat_intCast hsmall, hq]
  exact roundRat_mono (by linarith)

/-- From 1970 until `2 ^ 34` seconds later, in the year 2514, the bucket is the UTC minute. After
    that the rounding may carry a reading into the next minute, and a reading before 1970 is
    truncated towards the epoch, so there too it can be counted in the minute after its own. -/
theorem quotaBucket_eq_minute {us : ℤ} (h0 : 0 ≤ us) (h : us < 2 ^ 34 * 1000000) :
    quotaBucket us = some (us / 60000000) := by
  have hlower := le_roundRat_seconds h0 h
  have hupper := roundRat_seconds_lt h0 h
  have hnonneg : (0 : ℚ) ≤ roundRat ((us : ℚ) / 1000000) :=
    le_trans (by exact_mod_cast (by omega : 0 ≤ us / 1000000)) hlower
  have htruncate : truncateRat (roundRat ((us : ℚ) / 1000000)) = us / 1000000 := by
    rw [truncateRat, if_neg (not_lt.mpr hnonneg), Int.floor_eq_iff]
    exact ⟨hlower, hupper⟩
  rcases Binary64.ofRat_cases ((us : ℚ) / 1000000) with ⟨x, hx, hvalue⟩ | ⟨neg, -, hbig⟩
  · rw [quotaBucket, hx, Binary64.truncate?, hvalue, htruncate, Option.map_some,
      Int.ediv_ediv_of_nonneg (by norm_num)]
    norm_num
  · -- nothing in this range overflows
    rw [abs_of_nonneg hnonneg] at hbig
    have hpow : (2 : ℚ) ^ 35 ≤ 2 ^ 1024 := pow_le_pow_right₀ (by norm_num) (by norm_num)
    have hlt : ((us / 1000000 : ℤ) : ℚ) + 1 ≤ 2 ^ 35 := by
      exact_mod_cast (by omega : us / 1000000 + 1 ≤ 2 ^ 35)
    exact absurd (hpow.trans hbig) (not_le.mpr (hupper.trans_le hlt))

/-- A cell of the table; a column declared `INTEGER` may hold any of them. -/
inductive SqlValue where
  | null
  | integer (n : ℤ)
  | real (x : Binary64)
  | text (s : String)
  | blob (bytes : List Byte)

/-- One row of `quota (key_id TEXT PRIMARY KEY, bucket INTEGER, used INTEGER)`. -/
structure QuotaRow where
  keyId : String
  bucket : SqlValue
  used : SqlValue

/-- The quota file: `PRAGMA user_version` and the rows, their primary key unique. -/
structure QuotaDb where
  userVersion : ℤ
  rows : List QuotaRow
  unique : (rows.map QuotaRow.keyId).Nodup

/-- `initialize_quota`. -/
def initializeQuota : QuotaDb := ⟨1, [], List.nodup_nil⟩

/-- The row of a credential. -/
def QuotaDb.row? (db : QuotaDb) (keyId : String) : Option QuotaRow :=
  db.rows.find? fun r => r.keyId = keyId

/-- `INSERT OR REPLACE INTO quota VALUES (..)`. -/
def QuotaDb.replace (db : QuotaDb) (row : QuotaRow) : QuotaDb where
  userVersion := db.userVersion
  rows := db.rows.filter (fun r => r.keyId ≠ row.keyId) ++ [row]
  unique := by
    rw [List.map_append]
    refine List.Nodup.append ?_ (List.nodup_singleton _) ?_
    · exact (List.filter_sublist.map _).nodup db.unique
    · simp

/-! ## `reserve_quota` -/

/-- The one exception `reserve_quota` raises. -/
inductive SecurityStateError where
  | unavailable
  deriving DecidableEq

/-- The points at which the file system or the database may raise: no or a refused file, opening it
    and taking the lock, each statement, and the commit. -/
inductive QuotaFault where
  | file
  | begin
  | version
  | select
  | count
  | insert
  | commit
  deriving DecidableEq

/-- Raise when this is the point of failure. -/
def reach (fault : Option QuotaFault) (point : QuotaFault) : Except SecurityStateError Unit :=
  if fault = some point then .error .unavailable else .ok ()

/-- The value of a computation that may have none; none is one more thing that raises. -/
def orUnavailable {α : Type} : Option α → Except SecurityStateError α
  | some a => .ok a
  | none => .error .unavailable

/-- The count of attempts a reservation in minute `bucket` starts from. -/
def usedBefore (db : QuotaDb) (fault : Option QuotaFault) (keyId : String) (bucket : ℤ) :
    Except SecurityStateError ℤ :=
  match db.row? keyId with
  | none => do
    reach fault .count
    if 128 ≤ db.rows.length then .error .unavailable else .ok 0
  | some row =>
    match row.bucket, row.used with
    | .integer previous, .integer used =>
      if used < 0 ∨ bucket < previous then .error .unavailable
      else if previous ≠ bucket then .ok 0 else .ok used
    | _, _ => .error .unavailable

/-- The transaction: the result and the table it commits. -/
def reserveTransaction (db : QuotaDb) (fault : Option QuotaFault) (key : KeyRecord) (now : ℤ) :
    Except SecurityStateError (Bool × QuotaDb) := do
  reach fault .file
  let bucket ← orUnavailable (quotaBucket now)
  reach fault .begin
  reach fault .version
  if db.userVersion ≠ 1 then .error .unavailable
  else do
    reach fault .select
    let used ← usedBefore db fault key.keyId bucket
    if key.perMinute ≤ used then do
      reach fault .commit
      return (false, db)
    else do
      reach fault .insert
      reach fault .commit
      return (true, db.replace ⟨key.keyId, .integer bucket, .integer (used + 1)⟩)

/-- `reserve_quota`: an exception rolls the transaction back. -/
def reserveQuota (db : QuotaDb) (fault : Option QuotaFault) (key : KeyRecord) (now : ℤ) :
    Except SecurityStateError Bool × QuotaDb :=
  match reserveTransaction db fault key now with
  | .ok (granted, db') => (.ok granted, db')
  | .error e => (.error e, db)

/-! ## What one call does -/

theorem QuotaDb.row?_eq_none {db : QuotaDb} {keyId : String} :
    db.row? keyId = none ↔ ∀ r ∈ db.rows, r.keyId ≠ keyId := by
  simp [QuotaDb.row?]

theorem QuotaDb.row?_eq_some {db : QuotaDb} {keyId : String} {row : QuotaRow}
    (h : db.row? keyId = some row) : row ∈ db.rows ∧ row.keyId = keyId := by
  unfold QuotaDb.row? at h
  exact ⟨List.mem_of_find?_eq_some h, by simpa using List.find?_some h⟩

theorem QuotaDb.mem_replace {db : QuotaDb} {row r : QuotaRow} :
    r ∈ (db.replace row).rows ↔ r ∈ db.rows ∧ r.keyId ≠ row.keyId ∨ r = row := by
  simp [QuotaDb.replace]

/-- A replaced row leaves the size as it was, a new one adds itself. -/
theorem QuotaDb.length_replace (db : QuotaDb) (row : QuotaRow) :
    (db.replace row).rows.length
      = if (db.row? row.keyId).isSome then db.rows.length else db.rows.length + 1 := by
  have hsplit : ∀ rows : List QuotaRow, (rows.map QuotaRow.keyId).Nodup →
      (rows.filter fun r => r.keyId ≠ row.keyId).length + 1
        = if (rows.find? fun r => r.keyId = row.keyId).isSome then rows.length
          else rows.length + 1 := by
    intro rows
    induction rows with
    | nil => intro _; rfl
    | cons r rows ih =>
        intro hnodup
        rw [List.map_cons, List.nodup_cons] at hnodup
        by_cases hr : r.keyId = row.keyId
        · -- the row is the only one of its key, so the filter keeps the others
          have hrest : (rows.filter fun r => r.keyId ≠ row.keyId) = rows := by
            apply List.filter_eq_self.mpr
            intro r' hr'
            have hne : r'.keyId ≠ row.keyId := fun heq =>
              hnodup.1 (List.mem_map.mpr ⟨r', hr', heq.trans hr.symm⟩)
            simpa using hne
          rw [List.filter_cons_of_neg (by simpa using hr), hrest]
          simp [hr]
        · have ih' := ih hnodup.2
          simp only [List.filter_cons, List.find?_cons, hr, not_false_eq_true, decide_true,
            decide_false, if_true, List.length_cons, ne_eq] at ih' ⊢
          rw [ih']
          split <;> rfl
  have h := hsplit db.rows db.unique
  simpa [QuotaDb.replace, QuotaDb.row?] using h

theorem orUnavailable_eq_ok {α : Type} {x : Option α} {a : α} :
    orUnavailable x = .ok a ↔ x = some a := by
  cases x <;> simp [orUnavailable]

/-- The starting count: nothing for a new credential with room in the table, else from the row. -/
theorem usedBefore_eq_ok {db : QuotaDb} {fault : Option QuotaFault} {keyId : String}
    {bucket used : ℤ} (h : usedBefore db fault keyId bucket = .ok used) :
    (db.row? keyId = none ∧ db.rows.length < 128 ∧ used = 0) ∨
    ∃ row previous count, db.row? keyId = some row ∧ row.bucket = .integer previous ∧
      row.used = .integer count ∧ 0 ≤ count ∧ previous ≤ bucket ∧
      used = if previous ≠ bucket then 0 else count := by
  unfold usedBefore at h
  split at h
  -- no row of the key, so the table must have room
  · next hnone =>
      obtain ⟨_, -, h⟩ := bind_eq_ok.1 h
      split at h
      · cases h
      · next hroom =>
          cases h
          exact Or.inl ⟨hnone, not_le.mp hroom, rfl⟩
  · next row hrow =>
      split at h
      · next previous count hprevious hcount =>
          split at h
          · cases h
          · next hgood =>
              rw [not_or, not_lt, not_lt] at hgood
              refine Or.inr ⟨row, previous, count, hrow, hprevious, hcount, hgood.1, hgood.2, ?_⟩
              split at h <;> (cases h; simp_all)
      · cases h

/-- A transaction that commits has found the limit reached, or counts one more attempt in the minute
    of its reading. -/
theorem reserveTransaction_eq_ok {db db' : QuotaDb} {fault : Option QuotaFault} {key : KeyRecord}
    {now : ℤ} {granted : Bool} (h : reserveTransaction db fault key now = .ok (granted, db')) :
    ∃ bucket used, quotaBucket now = some bucket ∧
      usedBefore db fault key.keyId bucket = .ok used ∧
      (granted = false ∧ key.perMinute ≤ used ∧ db' = db ∨
        granted = true ∧ used < key.perMinute ∧
          db' = db.replace ⟨key.keyId, .integer bucket, .integer (used + 1)⟩) := by
  simp only [reserveTransaction, bind_eq_ok] at h
  obtain ⟨_, -, bucket, hbucket, _, -, _, -, h⟩ := h
  split at h
  · cases h
  · obtain ⟨_, -, used, hused, h⟩ := by simpa only [bind_eq_ok] using h
    refine ⟨bucket, used, orUnavailable_eq_ok.1 hbucket, hused, ?_⟩
    split at h
    · next hlimit =>
        obtain ⟨_, -, h⟩ := bind_eq_ok.1 h
        cases h
        exact Or.inl ⟨rfl, hlimit, rfl⟩
    · next hlimit =>
        obtain ⟨_, -, _, -, h⟩ := by simpa only [bind_eq_ok] using h
        cases h
        exact Or.inr ⟨rfl, not_le.mp hlimit, rfl⟩

/-- A granted call replaces the row of its credential. -/
theorem reserveQuota_granted {db : QuotaDb} {fault : Option QuotaFault} {key : KeyRecord} {now : ℤ}
    (h : (reserveQuota db fault key now).1 = .ok true) :
    ∃ bucket used, quotaBucket now = some bucket ∧
      usedBefore db fault key.keyId bucket = .ok used ∧ used < key.perMinute ∧
      (reserveQuota db fault key now).2
        = db.replace ⟨key.keyId, .integer bucket, .integer (used + 1)⟩ := by
  unfold reserveQuota at h ⊢
  split
  · next granted db' htx =>
      simp only [htx, Except.ok.injEq] at h
      subst h
      obtain ⟨bucket, used, hbucket, hused, ⟨h, -⟩ | ⟨-, hlimit, rfl⟩⟩ :=
        reserveTransaction_eq_ok htx
      · cases h
      · exact ⟨bucket, used, hbucket, hused, hlimit, rfl⟩
  · next htx => simp [htx] at h

/-- A call that is not granted leaves the table unchanged. -/
theorem reserveQuota_unchanged {db : QuotaDb} {fault : Option QuotaFault} {key : KeyRecord}
    {now : ℤ} (h : (reserveQuota db fault key now).1 ≠ .ok true) :
    (reserveQuota db fault key now).2 = db := by
  unfold reserveQuota at h ⊢
  split
  · next granted db' htx =>
      simp only [htx, ne_eq, Except.ok.injEq, Bool.not_eq_true] at h
      subst h
      obtain ⟨bucket, used, -, -, ⟨-, -, rfl⟩ | ⟨h, -⟩⟩ := reserveTransaction_eq_ok htx
      · rfl
      · cases h
  · rfl

/-! ## Runs of reservations -/

/-- One call of `reserve_quota`: the credential, the reading of the clock, the failure if any. -/
structure QuotaCall where
  key : KeyRecord
  now : ℤ
  fault : Option QuotaFault

/-- A call and what it returned or raised. -/
structure QuotaEntry where
  call : QuotaCall
  result : Except SecurityStateError Bool

/-- The quota file with the calls made on it so far. -/
structure QuotaState where
  db : QuotaDb
  history : List QuotaEntry

/-- One call of `reserve`, and its entry of the history. -/
def quotaStep (s : QuotaState) (c : QuotaCall) : QuotaState :=
  let r := reserveQuota s.db c.fault c.key c.now
  ⟨r.2, s.history ++ [⟨c, r.1⟩]⟩

/-- The calls in the order their transactions are serialised in, from the initialised table. -/
def quotaRun (calls : List QuotaCall) : QuotaState :=
  calls.foldl quotaStep ⟨initializeQuota, []⟩

/-- The entry is a grant to the credential in the minute. -/
def QuotaEntry.grants (keyId : String) (minute : ℤ) (e : QuotaEntry) : Bool :=
  e.call.key.keyId = keyId && quotaBucket e.call.now = some minute &&
    match e.result with
    | .ok granted => granted
    | .error _ => false

/-- The number of grants to a credential in a minute. -/
def grants (keyId : String) (minute : ℤ) (history : List QuotaEntry) : ℕ :=
  history.countP (QuotaEntry.grants keyId minute)

/-- The largest limit presented for a credential. -/
def largestLimit (keyId : String) (history : List QuotaEntry) : ℕ :=
  ((history.filter fun e => e.call.key.keyId = keyId).map fun e => e.call.key.perMinute).foldr max 0

theorem grants_append (keyId : String) (minute : ℤ) (history : List QuotaEntry) (e : QuotaEntry) :
    grants keyId minute (history ++ [e])
      = grants keyId minute history + if e.grants keyId minute then 1 else 0 := by
  simp [grants, List.countP_append, List.countP_cons]

theorem le_largestLimit_append (keyId : String) (history : List QuotaEntry) (e : QuotaEntry) :
    largestLimit keyId history ≤ largestLimit keyId (history ++ [e]) := by
  have hfold : ∀ (xs : List ℕ) (a : ℕ), xs.foldr max 0 ≤ (xs ++ [a]).foldr max 0 := by
    intro xs a
    induction xs with
    | nil => simp
    | cons x xs ih =>
        simp only [List.cons_append, List.foldr_cons]
        exact max_le_max_left x ih
  unfold largestLimit
  by_cases h : e.call.key.keyId = keyId
  · simpa [List.filter_append, h] using hfold _ _
  · simp [List.filter_append, h]

theorem perMinute_le_largestLimit (history : List QuotaEntry) (e : QuotaEntry) :
    e.call.key.perMinute ≤ largestLimit e.call.key.keyId (history ++ [e]) := by
  have hfold : ∀ (xs : List ℕ) (a : ℕ), a ≤ (xs ++ [a]).foldr max 0 := by
    intro xs a
    induction xs with
    | nil => simp
    | cons x xs ih =>
        simp only [List.cons_append, List.foldr_cons]
        exact ih.trans (le_max_right x _)
  simpa [largestLimit, List.filter_append] using hfold _ _

/-- The table against the history: every row is the latest minute its credential was granted in and
    the grants of that minute, every granted credential has a row, and no minute of a credential
    has more grants than the largest limit presented. -/
structure QuotaInv (s : QuotaState) : Prop where
  version : s.db.userVersion = 1
  row : ∀ r ∈ s.db.rows, ∃ bucket, r.bucket = .integer bucket ∧
    r.used = .integer (grants r.keyId bucket s.history) ∧
    IsGreatest {minute | 0 < grants r.keyId minute s.history} bucket
  granted : ∀ keyId minute, 0 < grants keyId minute s.history → ∃ r ∈ s.db.rows, r.keyId = keyId
  limit : ∀ keyId minute, grants keyId minute s.history ≤ largestLimit keyId s.history
  size : s.db.rows.length ≤ 128

/-- The count a grant starts from is the number of grants its minute has had. -/
theorem QuotaInv.usedBefore_eq {s : QuotaState} (h : QuotaInv s) {fault : Option QuotaFault}
    {keyId : String} {bucket used : ℤ} (hused : usedBefore s.db fault keyId bucket = .ok used) :
    used = grants keyId bucket s.history ∧
      ∀ minute, 0 < grants keyId minute s.history → minute ≤ bucket := by
  rcases usedBefore_eq_ok hused with ⟨hnone, -, rfl⟩ | ⟨row, previous, count, hrow, hp, hc, -, hle, hu⟩
  · have hzero : ∀ minute, ¬ 0 < grants keyId minute s.history := by
      intro minute hpos
      obtain ⟨r, hr, hkey⟩ := h.granted keyId minute hpos
      exact QuotaDb.row?_eq_none.1 hnone r hr hkey
    exact ⟨by have := hzero bucket; omega, fun minute hpos => absurd hpos (hzero minute)⟩
  · obtain ⟨hmem, rfl⟩ := QuotaDb.row?_eq_some hrow
    obtain ⟨b, hb, hcount, hgreatest⟩ := h.row row hmem
    cases hp.symm.trans hb
    cases hc.symm.trans hcount
    refine ⟨?_, fun minute hpos => (hgreatest.2 hpos).trans hle⟩
    by_cases heq : previous = bucket
    · simpa [heq] using hu
    · -- the minute is later than every minute granted so far
      have hnew : ¬ 0 < grants row.keyId bucket s.history := fun hpos =>
        heq (le_antisymm hle (hgreatest.2 hpos))
      rw [if_pos heq] at hu
      omega

/-- A call that was not granted adds nothing to the counts. -/
theorem grants_append_of_ne {history : List QuotaEntry} {e : QuotaEntry}
    (h : e.result ≠ .ok true) (keyId : String) (minute : ℤ) :
    grants keyId minute (history ++ [e]) = grants keyId minute history := by
  have hfalse : e.grants keyId minute = false := by
    unfold QuotaEntry.grants
    cases hr : e.result with
    | ok granted =>
        have : granted = false := by
          rw [hr] at h
          simpa using h
        simp [this]
    | error _ => simp
  simp [grants_append, hfalse]

theorem QuotaInv.step_of_ne {s : QuotaState} (h : QuotaInv s) {c : QuotaCall}
    (hne : (reserveQuota s.db c.fault c.key c.now).1 ≠ .ok true) : QuotaInv (quotaStep s c) := by
  have hdb : (quotaStep s c).db = s.db := reserveQuota_unchanged hne
  have hcount : ∀ keyId minute,
      grants keyId minute (quotaStep s c).history = grants keyId minute s.history :=
    fun keyId minute => grants_append_of_ne hne keyId minute
  constructor
  · rw [hdb]; exact h.version
  · simpa only [hdb, hcount] using h.row
  · simpa only [hdb, hcount] using h.granted
  · intro keyId minute
    rw [hcount]
    exact (h.limit keyId minute).trans (le_largestLimit_append keyId s.history _)
  · rw [hdb]; exact h.size

theorem QuotaInv.step_granted {s : QuotaState} (h : QuotaInv s) {c : QuotaCall}
    (hok : (reserveQuota s.db c.fault c.key c.now).1 = .ok true) : QuotaInv (quotaStep s c) := by
  obtain ⟨bucket, used, hbucket, hused, hlimit, hreplace⟩ := reserveQuota_granted hok
  obtain ⟨hcount, hlatest⟩ := h.usedBefore_eq hused
  have hdb : (quotaStep s c).db
      = s.db.replace ⟨c.key.keyId, .integer bucket, .integer (used + 1)⟩ := hreplace
  have hentry : ∀ keyId minute, grants keyId minute (quotaStep s c).history
      = grants keyId minute s.history
        + if c.key.keyId = keyId ∧ bucket = minute then 1 else 0 := by
    intro keyId minute
    show grants keyId minute (s.history ++ [_]) = _
    rw [grants_append]
    simp [QuotaEntry.grants, hok, hbucket]
  constructor
  · rw [hdb]; exact h.version
  · intro r hr
    rw [hdb, QuotaDb.mem_replace] at hr
    rcases hr with ⟨hr, hkey⟩ | rfl
    · -- another credential's row: none of its counts has changed
      have hsame : ∀ minute, grants r.keyId minute (quotaStep s c).history
          = grants r.keyId minute s.history := by
        intro minute
        rw [hentry, if_neg (fun heq => hkey heq.1.symm), add_zero]
      simpa only [hsame] using h.row r hr
    · refine ⟨bucket, rfl, ?_, ?_, ?_⟩
      · rw [hentry, hcount]
        simp
      · show 0 < _
        rw [hentry]
        simp
      · intro minute hpos
        rw [Set.mem_ofPred_eq, hentry] at hpos
        by_cases hmin : bucket = minute
        · exact hmin ▸ le_rfl
        · simp only [hmin, and_false, if_false, add_zero] at hpos
          exact hlatest minute hpos
  · intro keyId minute hpos
    rw [hdb]
    by_cases hkey : c.key.keyId = keyId
    · exact ⟨_, QuotaDb.mem_replace.2 (Or.inr rfl), hkey⟩
    · rw [hentry, if_neg (fun heq => hkey heq.1), add_zero] at hpos
      obtain ⟨r, hr, hr'⟩ := h.granted keyId minute hpos
      exact ⟨r, QuotaDb.mem_replace.2 (Or.inl ⟨hr, fun heq => hkey (heq.symm.trans hr')⟩), hr'⟩
  · intro keyId minute
    rw [hentry]
    have hold := (h.limit keyId minute).trans
      (le_largestLimit_append keyId s.history ⟨c, (reserveQuota s.db c.fault c.key c.now).1⟩)
    by_cases hkey : c.key.keyId = keyId ∧ bucket = minute
    · obtain ⟨rfl, rfl⟩ := hkey
      have hpresented := perMinute_le_largestLimit s.history
        ⟨c, (reserveQuota s.db c.fault c.key c.now).1⟩
      rw [if_pos ⟨rfl, rfl⟩]
      show grants _ _ _ + 1 ≤ largestLimit _ (s.history ++ [_])
      have : grants c.key.keyId bucket s.history < c.key.perMinute := by omega
      exact le_trans this hpresented
    · rw [if_neg hkey, add_zero]
      exact hold
  · rw [hdb, QuotaDb.length_replace]
    split
    · exact h.size
    · next hnew =>
        rcases usedBefore_eq_ok hused with ⟨-, hroom, -⟩ | ⟨row, -, -, hrow, -⟩
        · exact hroom
        · simp [hrow] at hnew

theorem QuotaInv.step {s : QuotaState} (h : QuotaInv s) (c : QuotaCall) :
    QuotaInv (quotaStep s c) := by
  by_cases hok : (reserveQuota s.db c.fault c.key c.now).1 = .ok true
  · exact h.step_granted hok
  · exact h.step_of_ne hok

theorem quotaInv_init : QuotaInv ⟨initializeQuota, []⟩ where
  version := rfl
  row := by simp [initializeQuota]
  granted := by simp [grants]
  limit := by simp [grants]
  size := by simp [initializeQuota]

theorem quotaInv_run (calls : List QuotaCall) : QuotaInv (quotaRun calls) :=
  List.foldlRecOn calls quotaStep quotaInv_init fun _ h c _ => h.step c

/-- The history is the calls, in order. -/
theorem quotaRun_history (calls : List QuotaCall) :
    (quotaRun calls).history.map QuotaEntry.call = calls := by
  have hfold : ∀ (calls : List QuotaCall) (s : QuotaState),
      (calls.foldl quotaStep s).history.map QuotaEntry.call
        = s.history.map QuotaEntry.call ++ calls := by
    intro calls
    induction calls with
    | nil => intro s; simp
    | cons c calls ih =>
        intro s
        rw [List.foldl_cons, ih]
        simp [quotaStep]
  simpa [quotaRun] using hfold calls ⟨initializeQuota, []⟩

/-- **Counting is exact.** After any calls from the initialised table: each row is the latest minute
    its credential was granted in and the number of grants of that minute; no minute of a credential
    has more grants than the largest limit presented; there are at most 128 rows; and a further call
    that returns `False` or raises changes nothing. The minute is the bucket of the code, which is
    the UTC minute between 1970 and 2514 (`quotaBucket_eq_minute`). -/
theorem quota_exact (calls : List QuotaCall) :
    let s := quotaRun calls
    s.history.map QuotaEntry.call = calls ∧
    (∀ r ∈ s.db.rows, ∃ bucket, r.bucket = .integer bucket ∧
      IsGreatest {minute | 0 < grants r.keyId minute s.history} bucket ∧
      r.used = .integer (grants r.keyId bucket s.history)) ∧
    (∀ keyId minute, grants keyId minute s.history ≤ largestLimit keyId s.history) ∧
    s.db.rows.length ≤ 128 ∧
    (∀ c : QuotaCall, (reserveQuota s.db c.fault c.key c.now).1 ≠ .ok true →
      (reserveQuota s.db c.fault c.key c.now).2 = s.db) := by
  intro s
  have h : QuotaInv s := quotaInv_run calls
  refine ⟨quotaRun_history calls, fun r hr => ?_, h.limit, h.size,
    fun c hne => reserveQuota_unchanged hne⟩
  obtain ⟨bucket, hbucket, hused, hgreatest⟩ := h.row r hr
  exact ⟨bucket, hbucket, hgreatest, hused⟩

end AstroPassport
