import AstroPassport.Science.Ephemeris.Process

set_option autoImplicit false

/-! # The exchange between adapter and worker

Adapter and worker are two processes with JSON texts between them: the adapter writes an instant,
the worker reads at most 257 characters of it, prints one line, and the adapter reads at most 8193
bytes of that. `attempt_isolated` says that none of this shows: whatever the native library does,
the adapter ends as a call of `run` in its own process would, and the only things left for it to
check are the revision file, two longitudes and two Julian dates.

This module has the two sides. On the worker's, what a successful `run` has found and which failures
it can report, one lemma for each function of the worker, since the native library may answer
anything (`run_eq_ok`, `known_run`). On the adapter's, the request it writes is short enough to be
read whole and is read as the instant it was written for (`readRequest_requestText`), and what the
adapter takes out of a printed reading is what was put in (`takeExtension_toPy`). -/

namespace AstroPassport

/-! ## What the process finds -/

namespace Worker

section Run

variable {σ α β : Type}

theorem native_bind_eq_ok {x : Native σ α} {f : α → Native σ β} {s : σ} {p : β × σ} :
    (x >>= f) s = .ok p ↔ ∃ a t, x s = .ok (a, t) ∧ f a t = .ok p := by
  show (x s >>= fun q => f q.1 q.2) = .ok p ↔ _
  rw [bind_eq_ok]
  exact ⟨fun ⟨(a, t), hx, hf⟩ => ⟨a, t, hx, hf⟩, fun ⟨a, t, hx, hf⟩ => ⟨(a, t), hx, hf⟩⟩

theorem native_pure_eq_ok {a : α} {s : σ} {p : α × σ} :
    (pure a : Native σ α) s = .ok p ↔ p = (a, s) := by
  show Except.ok (a, s) = .ok p ↔ _
  rw [Except.ok.injEq, eq_comm]

/-- `utc >= dt.datetime(2017, 1, 1)` asks for the year. -/
theorem frozenFrom_le_iff {utc : NaiveDateTime} :
    frozenFrom.micros ≤ utc.micros ↔ 2017 ≤ utc.date.year := by
  have hstart : frozenFrom.micros = NaiveDateTime.yearStart 2017 := by decide
  rw [hstart, NaiveDateTime.le_year_iff]

/-- The process states the limitations that the model of its result expects. -/
theorem timeScales_limitations {swe : Swe σ} {utc : NaiveDateTime} {s t : σ}
    {jd : Binary64 × Binary64} {limitations : List String}
    (h : timeScales swe utc s = .ok ((jd, limitations), t)) :
    limitations = EphemerisResult.expectedLimitations utc.date.year := by
  obtain ⟨jdClock, s₁, -, h⟩ := native_bind_eq_ok.1 h
  unfold EphemerisResult.expectedLimitations
  split at h
  · next hyear =>
      obtain ⟨d, s₂, -, h⟩ := native_bind_eq_ok.1 h
      cases native_pure_eq_ok.1 h
      rw [if_pos hyear]
  · next hyear =>
      obtain ⟨jdUt1, s₂, -, h⟩ := native_bind_eq_ok.1 h
      cases native_pure_eq_ok.1 h
      rw [if_neg hyear]
      simp only [frozenFrom_le_iff]

theorem tropical_limitations {swe : Swe σ} {directory : String} {utc : NaiveDateTime} {s t : σ}
    {positions : Finite64 × Finite64} {jd : Binary64 × Binary64} {limitations : List String}
    (h : tropical swe directory utc s = .ok ((positions, jd, limitations), t)) :
    limitations = EphemerisResult.expectedLimitations utc.date.year := by
  obtain ⟨_, _, -, h⟩ := native_bind_eq_ok.1 h
  obtain ⟨_, _, -, h⟩ := native_bind_eq_ok.1 h
  obtain ⟨_, _, -, h⟩ := native_bind_eq_ok.1 h
  obtain ⟨_, _, htimes, h⟩ := native_bind_eq_ok.1 h
  obtain ⟨_, _, -, h⟩ := native_bind_eq_ok.1 h
  obtain ⟨_, _, -, h⟩ := native_bind_eq_ok.1 h
  cases native_pure_eq_ok.1 h
  exact timeScales_limitations htimes

/-- A reading is the tropical one, and the sidereal one when that was asked for. -/
theorem run_eq_ok {r : WorkerRuntime σ} {utc : NaiveDateTime} {lahiri : Bool} {found : Reading}
    (h : run r utc lahiri = .ok found) :
    ∃ swe t, library r = .ok swe ∧
      tropical swe r.directory utc r.state =
        .ok ((found.positions, (found.jdTt, found.jdUt1), found.limitations), t) ∧
      ((lahiri = false ∧ found.sidereal = none) ∨ lahiri = true ∧ ∃ s t',
        found.sidereal = some s ∧ sidereal swe found.jdTt found.positions.2 t = .ok (s, t')) := by
  obtain ⟨swe, hswe, h⟩ := bind_eq_ok.1 h
  obtain ⟨⟨found', _⟩, hreading, h⟩ := bind_eq_ok.1 h
  cases h
  obtain ⟨⟨positions, jd, limitations⟩, t, htropical, h⟩ := native_bind_eq_ok.1 hreading
  obtain ⟨side, t', hside, h⟩ := native_bind_eq_ok.1 h
  obtain ⟨_, _, -, h⟩ := native_bind_eq_ok.1 h
  obtain ⟨_, _, -, h⟩ := native_bind_eq_ok.1 h
  obtain ⟨_, _, -, h⟩ := native_bind_eq_ok.1 h
  cases native_pure_eq_ok.1 h
  refine ⟨swe, t, hswe, htropical, ?_⟩
  rcases lahiri with _ | _
  · cases native_pure_eq_ok.1 hside
    exact .inl ⟨rfl, rfl⟩
  · obtain ⟨s, t'', hs, hside⟩ := native_bind_eq_ok.1 hside
    cases native_pure_eq_ok.1 hside
    exact .inr ⟨rfl, s, t', rfl, hs⟩

theorem run_limitations {r : WorkerRuntime σ} {utc : NaiveDateTime} {lahiri : Bool} {found : Reading}
    (h : run r utc lahiri = .ok found) :
    found.limitations = EphemerisResult.expectedLimitations utc.date.year := by
  obtain ⟨swe, t, -, htropical, -⟩ := run_eq_ok h
  exact tropical_limitations htropical

theorem run_sidereal {r : WorkerRuntime σ} {utc : NaiveDateTime} {lahiri : Bool} {found : Reading}
    (h : run r utc lahiri = .ok found) : found.sidereal.isSome = lahiri := by
  obtain ⟨swe, t, -, -, ⟨rfl, hnone⟩ | ⟨rfl, s, t', hsome, -⟩⟩ := run_eq_ok h
  · rw [hnone]
    rfl
  · rw [hsome]
    rfl

/-- What the Lahiri branch has checked of its angles. -/
structure SiderealReading.Accepted (s : SiderealReading) (tropical : Finite64) : Prop where
  requestedFlags : s.requestedFlags = 65538
  returnedFlags : s.returnedFlags = 65602
  ayanamshaFlags : s.ayanamshaFlags = 2
  moon : 0 ≤ s.moon.value ∧ s.moon.value < 360
  ayanamsha : 0 ≤ s.ayanamsha.value ∧ s.ayanamsha.value < 360
  near : LahiriResponse.consistent tropical.value s.ayanamsha.value s.moon.value = true

/-- An accepted Moon is the first of its numbers, and everything about it was looked at. -/
theorem lahiri_eq_ok {round : ℚ → ℚ} {tropical : ℚ} {native : NativeResult} {aya : NativeAyanamsha}
    {s : Sidereal} (h : lahiri round tropical native aya = .ok s) :
    (native.values.head?.join = some s.moon ∧ aya.value = some s.ayanamsha) ∧
      (s.requestedFlags = 65538 ∧ s.returnedFlags = 65602 ∧ s.ayanamshaFlags = 2) ∧
      (0 ≤ s.ayanamsha ∧ s.ayanamsha < 360) ∧ (0 ≤ s.moon ∧ s.moon < 360) ∧
      |difference round tropical s.ayanamsha s.moon| ≤ round (1 / 10 ^ 10) := by
  unfold lahiri at h
  simp only at h
  split at h
  · cases h
  · next hflags =>
      split at h
      · cases h
      · split at h
        · next moon ayanamsha hmoon haya =>
            split at h
            · cases h
            · next hrange =>
                split at h
                · cases h
                · next hfar =>
                    cases h
                    rw [not_or, not_not, not_not] at hflags hrange
                    exact ⟨⟨hmoon, haya⟩, ⟨rfl, hflags⟩, hrange.1, hrange.2, not_lt.1 hfar⟩
        · cases h

/-- The distance that the process accepts is the one that the response accepts, operation by
    operation. -/
theorem accepted_of_acceptSidereal {tropical : Finite64} {values : List Binary64} {flags : ℤ}
    {warning : String} {ayaFlags : ℤ} {ayanamsha : Binary64} {s : SiderealReading}
    (h : acceptSidereal tropical values flags warning ayaFlags ayanamsha = .ok s) :
    s.Accepted tropical := by
  unfold acceptSidereal at h
  split at h
  · next accepted moon rest aya haccepted =>
      cases h
      obtain ⟨⟨hmoon, haya⟩, ⟨hrequested, hreturned, hflags⟩, hayaRange, hmoonRange, hnear⟩ :=
        lahiri_eq_ok haccepted
      have hmoonValue : moon.value = accepted.moon := Option.some.inj hmoon
      have hayaValue : aya.value = accepted.ayanamsha := Option.some.inj haya
      rw [← hmoonValue] at hmoonRange hnear
      rw [← hayaValue] at hayaRange hnear
      exact ⟨hrequested, hreturned, hflags, hmoonRange, hayaRange, decide_eq_true hnear⟩
  · cases h
  · cases h

theorem accepted_of_sidereal {swe : Swe σ} {jdTt : Binary64} {tropical : Finite64}
    {found : SiderealReading} {s t : σ} (h : sidereal swe jdTt tropical s = .ok (found, t)) :
    found.Accepted tropical := by
  obtain ⟨_, _, -, h⟩ := native_bind_eq_ok.1 h
  obtain ⟨_, _, -, h⟩ := native_bind_eq_ok.1 h
  obtain ⟨_, _, -, h⟩ := native_bind_eq_ok.1 h
  obtain ⟨found', haccept, h⟩ := bind_eq_ok.1 h
  cases h
  exact accepted_of_acceptSidereal haccept

theorem run_accepted {r : WorkerRuntime σ} {utc : NaiveDateTime} {lahiri : Bool} {found : Reading}
    (h : run r utc lahiri = .ok found) {s : SiderealReading} (hs : found.sidereal = some s) :
    s.Accepted found.positions.2 := by
  obtain ⟨swe, t, -, -, ⟨-, hnone⟩ | ⟨-, s', t', hsome, hside⟩⟩ := run_eq_ok h
  · rw [hnone] at hs
    cases hs
  · rw [hsome] at hs
    cases hs
    exact accepted_of_sidereal hside

/-! ## What the process raises -/

/-- No exception but a `WorkerFailure` with the text of a failure, and exceptions of other kinds. -/
def Known : WorkerRaise → Prop
  | .failure text => ∃ c : EphemerisFailure, text = (StageError.ephemeris c).value
  | .other => True

theorem known_bind {x : Native σ α} {f : α → Native σ β} (hx : ∀ s, RaisesOnly Known (x s))
    (hf : ∀ a s, RaisesOnly Known (f a s)) (s : σ) : RaisesOnly Known ((x >>= f) s) :=
  RaisesOnly.bind (hx s) fun p _ => hf p.1 p.2

theorem known_pure (a : α) (s : σ) : RaisesOnly Known ((pure a : Native σ α) s) := raisesOnly_ok _

theorem known_attempt (x : Option α) : RaisesOnly Known (WorkerRaise.attempt x) := by
  rcases x with _ | a
  · exact raisesOnly_error.2 trivial
  · exact raisesOnly_ok a

theorem known_nativeCall (x : StateT σ Option α) (s : σ) : RaisesOnly Known (nativeCall x s) :=
  known_attempt _

theorem known_refuseIf {p : Prop} [Decidable p] (c : EphemerisFailure) :
    RaisesOnly Known (refuseIf p (StageError.ephemeris c).value) := by
  unfold refuseIf
  split
  · exact raisesOnly_error.2 ⟨c, rfl⟩
  · exact raisesOnly_ok ()

/-- A check of the source among calls of the library. -/
theorem known_lift {x : Except WorkerRaise α} (h : RaisesOnly Known x) (s : σ) :
    RaisesOnly Known ((liftM x : Native σ α) s) :=
  RaisesOnly.bind h fun _ _ => raisesOnly_ok _

theorem known_library (r : WorkerRuntime σ) : RaisesOnly Known (library r) := by
  refine .bind (known_refuseIf .unsupportedRuntime) fun _ _ => .bind (known_attempt _) fun _ _ =>
    .bind (known_refuseIf .unsupportedRuntime) fun _ _ => ?_
  split
  · exact raisesOnly_error.2 ⟨.unsupportedRuntime, rfl⟩
  · exact .bind (known_attempt _) fun _ _ => .bind (known_refuseIf .unsupportedRuntime) fun _ _ =>
      .bind (known_attempt _) fun _ _ => .bind (known_refuseIf .unsupportedRuntime) fun _ _ =>
      raisesOnly_ok _

theorem known_delta (swe : Swe σ) (jd : Binary64) : ∀ s, RaisesOnly Known (delta swe jd s) :=
  known_bind (known_nativeCall _) fun _ => known_bind
    (known_lift (known_refuseIf .nativeFailure)) fun _ => known_pure _

theorem known_universal (swe : Swe σ) (jdTt : Binary64) (turns : ℕ) :
    ∀ jd s, RaisesOnly Known (universal swe jdTt turns jd s) := by
  induction turns with
  | zero => exact fun jd => known_pure jd
  | succ turns ih => exact fun jd => known_bind (known_delta swe jd) fun d => ih (jdTt.sub d)

theorem known_timeScales (swe : Swe σ) (utc : NaiveDateTime) :
    ∀ s, RaisesOnly Known (timeScales swe utc s) := by
  refine known_bind (known_nativeCall _) fun jdClock => ?_
  split
  · exact known_bind (known_delta swe _) fun _ => known_pure _
  · exact known_bind (known_universal swe _ 4 _) fun _ => known_pure _

theorem known_firstOfSix (values : List Binary64) (warning : String) :
    RaisesOnly Known (firstOfSix values warning) := by
  unfold firstOfSix
  split
  · split
    · exact raisesOnly_error.2 ⟨.nativeFailure, rfl⟩
    · exact raisesOnly_ok _
  · exact raisesOnly_error.2 ⟨.nativeFailure, rfl⟩

theorem known_position (swe : Swe σ) (jdTt : Binary64) (body : Body) :
    ∀ s, RaisesOnly Known (position swe jdTt body s) :=
  known_bind (known_nativeCall _) fun _ => known_bind
    (known_lift (known_refuseIf .fallbackRejected)) fun _ => known_lift (known_firstOfSix _ _)

theorem known_sidereal (swe : Swe σ) (jdTt : Binary64) (moon : Finite64) :
    ∀ s, RaisesOnly Known (sidereal swe jdTt moon s) := by
  refine known_bind (known_nativeCall _) fun _ => known_bind (known_nativeCall _) fun _ =>
    known_bind (known_nativeCall _) fun _ => known_lift ?_
  unfold acceptSidereal
  split
  · exact raisesOnly_ok _
  · next category _ => exact raisesOnly_error.2 ⟨category, rfl⟩
  · exact raisesOnly_error.2 trivial

theorem known_siderealIf (swe : Swe σ) (jdTt : Binary64) (moon : Finite64) (lahiri : Bool) :
    ∀ s, RaisesOnly Known (siderealIf swe jdTt moon lahiri s) := by
  rcases lahiri with _ | _
  · exact known_pure none
  · exact known_bind (known_sidereal swe jdTt moon) fun _ => known_pure _

theorem known_checkFile (swe : Swe σ) (directory : String) (jdTt : Binary64) (index : ℕ)
    (name : String) : ∀ s, RaisesOnly Known (checkFile swe directory jdTt index name s) :=
  known_bind (known_nativeCall _) fun _ => known_lift (known_refuseIf .fallbackRejected)

theorem known_tropical (swe : Swe σ) (directory : String) (utc : NaiveDateTime) :
    ∀ s, RaisesOnly Known (tropical swe directory utc s) :=
  known_bind (known_nativeCall _) fun _ => known_bind (known_nativeCall _) fun _ =>
    known_bind (known_nativeCall _) fun _ => known_bind (known_timeScales swe utc) fun _ =>
    known_bind (known_position swe _ .sun) fun _ => known_bind (known_position swe _ .moon)
    fun _ => known_pure _

/-- Every failure the process reports is one its caller knows. -/
theorem known_run (r : WorkerRuntime σ) (utc : NaiveDateTime) (lahiri : Bool) :
    RaisesOnly Known (run r utc lahiri) := by
  refine .bind (known_library r) fun swe _ => .bind ?_ fun _ _ => raisesOnly_ok _
  exact known_bind (known_tropical swe r.directory utc) (fun _ =>
    known_bind (known_siderealIf swe _ _ lahiri) fun _ =>
    known_bind (known_checkFile swe _ _ 0 _) fun _ => known_bind (known_checkFile swe _ _ 1 _)
    fun _ => known_bind (known_nativeCall _) fun _ => known_pure _) r.state

end Run

end Worker

/-! ## What the adapter writes -/

/-- `{"utc": ..., **({"lahiri": True} if lahiri else {})}`. -/
def requestMembers (utc : NaiveDateTime) (lahiri : Bool) : List (List Char × PlainJson) :=
  ("utc".toList, .str (isoInstant utc)) ::
    if lahiri then [("lahiri".toList, .bool true)] else []

/-- The standard input of the worker. -/
def requestText (utc : NaiveDateTime) (lahiri : Bool) : List Char :=
  printSpaced (requestMembers utc lahiri)

/-- The worker reads no more than 257 characters. -/
theorem length_requestText_le (utc : NaiveDateTime) (lahiri : Bool) :
    (requestText utc lahiri).length ≤ 257 := by
  have hinstant := length_isoInstant_le utc
  have hquote := length_quote_le (isoInstant utc)
  have hutc : (quote "utc".toList).length = 5 := by decide
  have hlahiri : (quote "lahiri".toList).length = 8 := by decide
  rcases lahiri with _ | _
  · simp only [requestText, requestMembers, printSpaced, printSpacedMembers, PlainJson.print,
      List.length_cons, List.length_append, List.length_nil, hutc, Bool.false_eq_true, if_false]
    omega
  · simp only [requestText, requestMembers, printSpaced, printSpacedMembers, PlainJson.print,
      List.length_cons, List.length_append, List.length_nil, hutc, hlahiri, if_true]
    omega

/-- `datetime.fromisoformat` reads what `datetime.isoformat` wrote. -/
def ReadsInstants (fromIsoFormat : List CodePoint → Option PyDateTime) : Prop :=
  ∀ d, fromIsoFormat ((isoInstant d).map scalar) = some (.utc d)

/-- The worker reads the instant and the mode that the adapter wrote. -/
theorem readRequest_requestText {fromIsoFormat : List CodePoint → Option PyDateTime}
    (h : ReadsInstants fromIsoFormat) (utc : NaiveDateTime) (lahiri : Bool) :
    Worker.readRequest fromIsoFormat ((requestText utc lahiri).take 257) = .ok (utc, lahiri) := by
  have hdistinct : (PlainJson.obj (requestMembers utc lahiri)).DistinctKeys := by
    rcases lahiri with _ | _
    · exact ⟨by simp [requestMembers], trivial, trivial⟩
    · exact ⟨by simp [requestMembers], trivial, trivial, trivial⟩
  have hread : (parseDoc (requestText utc lahiri)).map pyDecode =
      some (PlainJson.obj (requestMembers utc lahiri)).toPy := by
    have hline := @parseDoc_printSpaced (requestMembers utc lahiri) [] rfl
    rw [List.append_nil] at hline
    rw [requestText, hline, Option.map_some, pyDecode_doc _ hdistinct]
  rw [List.take_of_length_le (length_requestText_le utc lahiri), Worker.readRequest, hread]
  rcases lahiri with _ | _
  · refine bind_eq_ok.2 ⟨_, rfl, ?_⟩
    refine bind_eq_ok.2 ⟨.utc utc, ?_, rfl⟩
    rw [h utc]
    rfl
  · refine bind_eq_ok.2 ⟨_, rfl, ?_⟩
    refine bind_eq_ok.2 ⟨.utc utc, ?_, rfl⟩
    rw [h utc]
    rfl

/-! ## What the adapter reads -/

namespace Worker

/-- The sidereal members as the adapter has them. -/
def SiderealReading.toPy (s : SiderealReading) : List (PyKey × PyValue) :=
  [(pyKey "moon_binary64", pyStr s.moon.hex), (pyKey "ayanamsha_binary64", pyStr s.ayanamsha.hex),
    (pyKey "requested_flags", .int s.requestedFlags),
    (pyKey "returned_flags", .int s.returnedFlags),
    (pyKey "ayanamsha_flags", .int s.ayanamshaFlags)]

namespace Reading

/-- The four tropical members as the adapter has them. -/
def tropicalToPy (r : Reading) : List (PyKey × PyValue) :=
  [(pyKey "positions", .list [pyStr r.positions.1.hex, pyStr r.positions.2.hex]),
    (pyKey "jd_tt_hex", pyStr r.jdTt.hex), (pyKey "jd_ut1_hex", pyStr r.jdUt1.hex),
    (pyKey "limitations", .list (r.limitations.map fun l => pyStr l.toList))]

/-- The extension of a reading; without a sidereal part it has no members. -/
def extension (r : Reading) : List (PyKey × PyValue) :=
  match r.sidereal with
  | some s => s.toPy
  | none => []

/-- All members as the adapter has them. -/
def toPy (r : Reading) : List (PyKey × PyValue) :=
  r.tropicalToPy ++
    match r.sidereal with
    | some s => [(pyKey "lahiri", .dict s.toPy)]
    | none => []

theorem distinctKeys_members (r : Reading) : (PlainJson.obj r.members).DistinctKeys := by
  have htexts : ∀ texts : List String, itemsDistinctKeys (texts.map textOf) := fun texts =>
    itemsDistinctKeys_iff.2 (List.forall_mem_map.mpr fun _ _ => trivial)
  rcases r with ⟨positions, jdTt, jdUt1, limitations, _ | s⟩
  · exact ⟨by simp [members], ⟨trivial, trivial, trivial⟩, trivial, trivial, htexts limitations,
      trivial⟩
  · exact ⟨by simp [members], ⟨trivial, trivial, trivial⟩, trivial, trivial, htexts limitations,
      ⟨by simp [SiderealReading.members], trivial, trivial, trivial, trivial, trivial, trivial⟩,
      trivial⟩

theorem toPy_members (r : Reading) : (PlainJson.obj r.members).toPy = .dict r.toPy := by
  have htexts : (r.limitations.map textOf).map PlainJson.toPy =
      r.limitations.map fun l => pyStr l.toList := by
    rw [List.map_map]
    rfl
  rcases hs : r.sidereal with _ | s
  · simp only [members, hs, toPy, tropicalToPy, PlainJson.toPy, membersToPy_eq_map,
      itemsToPy_eq_map, List.map_cons, List.map_nil, List.append_nil, htexts]
    rfl
  · simp only [members, hs, toPy, tropicalToPy, PlainJson.toPy, membersToPy_eq_map,
      itemsToPy_eq_map, List.map_cons, List.map_nil, List.cons_append, List.nil_append, htexts]
    rfl

/-- The adapter takes a reading for no failure. -/
theorem raiseReported_toPy (r : Reading) : raiseReported (.dict r.toPy) = .ok () := by
  have hkeys : hasKeys r.toPy ["error"] = false := by
    simp [hasKeys, toPy, tropicalToPy, pyKey]
  simp only [raiseReported, hkeys, Bool.false_eq_true, if_false]

/-- What `pop` takes is the extension, and what it leaves the tropical members. -/
theorem takeExtension_toPy (r : Reading) :
    (PyValue.dict r.toPy).takeExtension r.sidereal.isSome =
      .ok (.dict r.tropicalToPy, .dict r.extension) := by
  rcases hs : r.sidereal with _ | s
  · simp only [PyValue.takeExtension, Option.isSome_none, Bool.false_eq_true, if_false, toPy, hs,
      List.append_nil, extension]
  · have hlookup : getItem r.toPy "lahiri" = .ok (.dict s.toPy) := by
      simp only [getItem, toPy, hs, tropicalToPy]
      rfl
    have herase : Dict.erase (pyKey "lahiri") r.toPy = r.tropicalToPy := by
      simp [Dict.erase, toPy, hs, tropicalToPy, pyKey]
    simp only [PyValue.takeExtension, Option.isSome_some, if_true, PyValue.pop, hlookup, herase,
      extension, hs]
    rfl

end Reading

end Worker

end AstroPassport
