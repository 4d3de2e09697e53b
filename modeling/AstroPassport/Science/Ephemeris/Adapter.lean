import AstroPassport.Lib.Json.Python
import AstroPassport.Lib.Semaphore
import AstroPassport.Science.Pipeline

set_option autoImplicit false

/-! # The ephemeris adapter

`SwissEphemeris._calculate` of `ephemeris/adapter.py`. The worker is a separate process: a parameter
that may end in any way and print any bytes, as is `json.loads`, which makes a value of the bytes or
raises a `ValueError`. What the worker printed is a `PyValue`, read in the order of the source;
every operation on it raises what it raises in Python.

So a worker that prints nonsense is part of the model. The exceptions that the `except` clause lists
are told apart from the others (`Listed`), and for every step it is proved that it raises listed
ones only, one lemma for each operation and one rule for putting steps together; together they say
how a calculation can end (`calculate_cases`). The native slot is taken before the process is
started and returned whatever happens (`run_of_free`, `run_of_not_free`). With `lahiri` the
extension is taken out of the value before it is known to be an object, as the source does. -/

namespace AstroPassport

/-! ## Exceptions -/

/-- What the `try` block of `_calculate` raises. -/
inductive AdapterRaise where
  | ephemeris (category : EphemerisFailure)
  | timeoutExpired
  | osError
  | valueError
  | typeError
  | keyError
  | attributeError
  | escaped (e : Escape)
  deriving DecidableEq

/-- The exception of a check, as the adapter sees it. -/
def Checked.toAdapter {α : Type} : Checked α → Except AdapterRaise α
  | .ok a => .ok a
  | .valueError => .error .valueError
  | .escaped e => .error (.escaped e)

/-- The `except` clauses of `_calculate`; what they do not list leaves it. -/
def AdapterRaise.handled : AdapterRaise → PassportRaise
  | .ephemeris category => .stage (.ephemeris category)
  | .timeoutExpired => .stage (.ephemeris .timeout)
  | .osError => .stage (.ephemeris .nativeFailure)
  | .valueError => .stage (.ephemeris .invalidResult)
  | .typeError => .stage (.ephemeris .invalidResult)
  | .keyError => .stage (.ephemeris .invalidResult)
  | .escaped .overflowError => .stage (.ephemeris .invalidResult)
  | .attributeError => .attributeError
  | .escaped .invalidOperation => .escaped .invalidOperation

/-! ## What the worker printed -/

/-- How the work in the temporary directory ends: `subprocess.run` and the output file. -/
inductive WorkerRun where
  | timeoutExpired
  | osError
  | exited (returncode : ℤ) (stdout : ByteArray)

/-- `encoded`, of which one byte more than is allowed is read. -/
def WorkerRun.encoded : WorkerRun → Except AdapterRaise ByteArray
  | .timeoutExpired => .error .timeoutExpired
  | .osError => .error .osError
  | .exited returncode stdout =>
    let encoded := stdout.extract 0 8193
    if returncode ≠ 0 ∨ 8192 < encoded.size then .error (.ephemeris .nativeFailure) else .ok encoded

/-- Output within the limit is read whole. -/
theorem encoded_exited {stdout : ByteArray} (h : stdout.size ≤ 8192) :
    (WorkerRun.exited 0 stdout).encoded = .ok stdout := by
  have hextract : stdout.extract 0 8193 = stdout := by
    have := @ByteArray.extract_zero_max_size stdout 8193
    rwa [max_eq_left (h.trans (by norm_num))] at this
  have hsize : ¬ (False ∨ 8192 < stdout.size) := by
    rw [false_or, not_lt]
    exact h
  simp only [WorkerRun.encoded, hextract, ne_eq, not_true_eq_false, if_neg hsize]

/-- `set(value) == names`. -/
def hasKeys (ms : List (PyKey × PyValue)) (names : List String) : Bool :=
  (ms.all fun m => decide (m.1 ∈ names.map pyKey)) &&
    names.all fun name => (ms.lookup (pyKey name)).isSome

/-- `value[name]`. -/
def getItem (ms : List (PyKey × PyValue)) (name : String) : Except AdapterRaise PyValue :=
  match ms.lookup (pyKey name) with
  | some v => .ok v
  | none => .error .keyError

namespace PyValue

/-- The text of a string, unless it holds a surrogate. -/
def text? : PyValue → Option String
  | .str s => (scalars? s).map String.ofList
  | _ => Option.none

/-- The argument of a C function that takes a string: another type is a `TypeError`, a surrogate an
    `UnicodeEncodeError`. -/
def textArgument : PyValue → Except AdapterRaise String
  | .str s =>
    match scalars? s with
    | some text => .ok (String.ofList text)
    | Option.none => .error .valueError
  | _ => .error .typeError

/-- `tuple[Literal[...], ...]`, but for the literals. -/
def texts? : PyValue → Option (List String)
  | .list items => items.mapM text?
  | _ => Option.none

/-- `value.pop(name)`: the value that is left, and the member. -/
def pop (name : String) : PyValue → Except AdapterRaise (PyValue × PyValue)
  | .dict ms => do
    let member ← getItem ms name
    pure (.dict (Dict.erase (pyKey name) ms), member)
  | .list _ => .error .typeError
  | _ => .error .attributeError

/-- `value.pop("lahiri") if lahiri else {}`. -/
def takeExtension (lahiri : Bool) (value : PyValue) : Except AdapterRaise (PyValue × PyValue) :=
  if lahiri then value.pop "lahiri" else .ok (value, .dict [])

/-- `if not isinstance(extension, dict): raise ValueError`. -/
def requireDict : PyValue → Except AdapterRaise (List (PyKey × PyValue))
  | .dict ms => .ok ms
  | _ => .error .valueError

end PyValue

theorem texts?_list (texts : List String) :
    (PyValue.list (texts.map fun l => pyStr l.toList)).texts? = some texts := by
  induction texts with
  | nil => rfl
  | cons text texts ih =>
    simp only [PyValue.texts?, List.map_cons, List.mapM_cons] at ih ⊢
    rw [ih]
    simp [PyValue.text?, pyStr]

/-- A key as an item of its dictionary. -/
def PyKey.toValue : PyKey → PyValue
  | .none => .none
  | .bool b => .bool b
  | .int n => .int n
  | .float x => .float x
  | .str s => .str s

/-- The items that iterating a value yields. -/
def PyValue.iterate : PyValue → Except AdapterRaise (List PyValue)
  | .list items => .ok items
  | .str s => .ok (s.map fun c => .str [c])
  | .dict ms => .ok (ms.map fun m => m.1.toValue)
  | _ => .error .typeError

/-! ## Failures the worker reports -/

/-- The members of `EphemerisFailure`. -/
def EphemerisFailure.all : List EphemerisFailure :=
  [.invalidInput, .dataUnavailable, .dataIntegrity, .unsupportedRuntime, .busy, .timeout,
    .nativeFailure, .fallbackRejected, .invalidResult]

/-- `EphemerisFailure(value)`; what is no value of a member, hashable or not, is a `ValueError`. -/
def EphemerisFailure.ofValue : PyValue → Except AdapterRaise EphemerisFailure
  | .str s =>
    match all.find? fun c => decide (pyKey (StageError.ephemeris c).value = .str s) with
    | some category => .ok category
    | none => .error .valueError
  | _ => .error .valueError

/-- The failure of a value whose one key is `error`. -/
def raiseReported : PyValue → Except AdapterRaise Unit
  | .dict ms =>
    if hasKeys ms ["error"] then do
      let error ← getItem ms "error"
      let category ← EphemerisFailure.ofValue error
      .error (.ephemeris category)
    else .ok ()
  | _ => .ok ()

/-! ## The result -/

/-- One turn of the generator of `_result`. -/
def readPosition (body : Body) (raw : PyValue) : Except AdapterRaise BodyLongitude := do
  let text ← raw.textArgument
  let value ← (Binary64.fromHex text.toList).toAdapter
  let longitude ← (longitudeDecimal value).toAdapter
  let position : BodyLongitude := ⟨body, longitude, text⟩
  position.modelValidate.toAdapter
  pure position

/-- `tuple(... zip(("sun", "moon"), positions, strict=True))`: the moon is read before a third item
    is found. -/
def readPositions : List PyValue → Except AdapterRaise (BodyLongitude × BodyLongitude)
  | [] => .error .valueError
  | [raw] => do
    let _ ← readPosition .sun raw
    .error .valueError
  | raw :: raw' :: rest => do
    let sun ← readPosition .sun raw
    let moon ← readPosition .moon raw'
    if rest.isEmpty then .ok (sun, moon) else .error .valueError

/-- The constants of `identity.py` and a revision. -/
def adapterProvenance (revision : String) : EphemerisProvenance where
  binarySha256 := "2b3234b6678dfa5666c98e898c16ee7e8c6c8457100e293c24ce679cd4387764"
  bindingSourceSha256 := "690080559951f827e95d568dc6764aa8d4bfb4fa8a5435eb5abe24c1e01c166a"
  planetDataSha256 := "ca1393ceab3a44fbc895887cf789c68819ae6a1cbc9b22225872dbe4ccd99a66"
  moonDataSha256 := "1ca07bd67c24374d77226180c20a4f9996cba013697894810518e7eb582ca4f7"
  sourceRevision := revision

/-- `require_revision`, from the text of the revision file if it can be read. -/
def requireRevision (file : Option String) : Option String := do
  let text ← file
  let revision := String.ofList (pyStrip text.toList)
  if isRevision revision then some revision else none

/-- The adapter: its worker, `json.loads`, and the revision file. -/
structure SwissEphemeris where
  worker : EphemerisRequest → Bool → WorkerRun
  loads : ByteArray → Option PyValue
  revisionFile : Option String

namespace SwissEphemeris

/-- `_result`. -/
def result (s : SwissEphemeris) (request : EphemerisRequest) :
    PyValue → Except AdapterRaise EphemerisResult
  | .dict ms =>
    if hasKeys ms ["positions", "jd_tt_hex", "jd_ut1_hex", "limitations"] then do
      let positions ← getItem ms "positions"
      let items ← positions.iterate
      let positions ← readPositions items
      let jdTt ← getItem ms "jd_tt_hex"
      let jdUt1 ← getItem ms "jd_ut1_hex"
      let limitations ← getItem ms "limitations"
      let revision ← (Checked.ofOption (requireRevision s.revisionFile)).toAdapter
      let jdTtHex ← (Checked.ofOption jdTt.text?).toAdapter
      let jdUt1Hex ← (Checked.ofOption jdUt1.text?).toAdapter
      let limitations ← (Checked.ofOption limitations.texts?).toAdapter
      let result : EphemerisResult :=
        { utc := request.utc, positions, jdTtHex, jdUt1Hex, limitations
          provenance := adapterProvenance revision }
      (Checked.require result.validFields).toAdapter
      result.coherent.toAdapter
      pure result
    else .error .valueError
  | _ => .error .valueError

/-- The `try` block of `_calculate`. -/
def attempt (s : SwissEphemeris) (checked : EphemerisRequest) (lahiri : Bool) :
    Except AdapterRaise (EphemerisResult × List (PyKey × PyValue)) := do
  let encoded ← (s.worker checked lahiri).encoded
  let value ← (Checked.ofOption (s.loads encoded)).toAdapter
  raiseReported value
  let (value, extension) ← value.takeExtension lahiri
  let extension ← extension.requireDict
  let result ← s.result checked value
  pure (result, extension)

/-- `_calculate`, from the state of `_CAPACITY` to its outcome and the state it leaves. -/
def run (s : SwissEphemeris) (lahiri : Bool) (capacity : BoundedSemaphore 2)
    (request : EphemerisRequest) :
    Except PassportRaise (EphemerisResult × List (PyKey × PyValue)) × BoundedSemaphore 2 :=
  match EphemerisRequest.make request.utc with
  | .ok checked =>
    match capacity.tryAcquire with
    | none => (.error (.stage (.ephemeris .busy)), capacity)
    | some taken =>
      let outcome := (s.attempt checked lahiri).mapError AdapterRaise.handled
      match taken.release with
      | some capacity => (outcome, capacity)
      | none => (.error .valueError, taken)
  | _ => (.error (.stage (.ephemeris .invalidInput)), capacity)

/-- `calculate`. -/
def calculate (s : SwissEphemeris) (capacity : BoundedSemaphore 2) (request : EphemerisRequest) :
    Except PassportRaise EphemerisResult :=
  (s.run false capacity request).1.map Prod.fst

/-- `calculate_lahiri`. -/
def calculateLahiri (s : SwissEphemeris) (capacity : BoundedSemaphore 2)
    (request : EphemerisRequest) :
    Except PassportRaise (EphemerisResult × List (PyKey × PyValue)) :=
  (s.run true capacity request).1

end SwissEphemeris

/-! ## What the adapter raises -/

section Raises

variable {α β : Type}

/-- An `EphemerisError`, or an exception that a clause turns into one. -/
def AdapterRaise.Listed (e : AdapterRaise) : Prop :=
  ∃ category, e.handled = .stage (.ephemeris category)

theorem listed_ephemeris (category : EphemerisFailure) :
    (AdapterRaise.ephemeris category).Listed := ⟨category, rfl⟩

theorem listed_valueError : AdapterRaise.valueError.Listed := ⟨_, rfl⟩

theorem listed_typeError : AdapterRaise.typeError.Listed := ⟨_, rfl⟩

theorem listed_keyError : AdapterRaise.keyError.Listed := ⟨_, rfl⟩

@[simp]
theorem Checked.toAdapter_eq_ok {x : Checked α} {a : α} : x.toAdapter = .ok a ↔ x = .ok a := by
  cases x <;> simp [toAdapter]

theorem Checked.toAdapter_bind (x : Checked α) (f : α → Checked β) :
    (x >>= f).toAdapter = x.toAdapter >>= fun a => (f a).toAdapter := by
  cases x <;> rfl

/-- An `OverflowError` is listed, as a `ValueError` is. -/
theorem Checked.listed_toAdapter {x : Checked α} (h : ∀ e, x = .escaped e → e = .overflowError) :
    RaisesOnly AdapterRaise.Listed x.toAdapter := by
  rcases x with a | _ | e
  · exact raisesOnly_ok a
  · exact raisesOnly_error.2 listed_valueError
  · rw [h e rfl]
    exact raisesOnly_error.2 ⟨_, rfl⟩

theorem Checked.Contained.listed_toAdapter {x : Checked α} (h : x.Contained) :
    RaisesOnly AdapterRaise.Listed x.toAdapter :=
  Checked.listed_toAdapter fun e he => absurd he (h e)

theorem listed_require (p : Bool) : RaisesOnly AdapterRaise.Listed (Checked.require p).toAdapter :=
  Checked.contained_require.listed_toAdapter

theorem listed_ofOption (x : Option α) :
    RaisesOnly AdapterRaise.Listed (Checked.ofOption x).toAdapter :=
  Checked.contained_ofOption.listed_toAdapter

theorem listed_fromHex (text : List Char) :
    RaisesOnly AdapterRaise.Listed (Binary64.fromHex text).toAdapter :=
  Checked.listed_toAdapter fun _ => fromHex_eq_escaped

theorem listed_longitudeDecimal (raw : Binary64) :
    RaisesOnly AdapterRaise.Listed (longitudeDecimal raw).toAdapter :=
  (contained_longitudeDecimal raw).listed_toAdapter

theorem listed_getItem (ms : List (PyKey × PyValue)) (name : String) :
    RaisesOnly AdapterRaise.Listed (getItem ms name) := by
  unfold getItem
  split
  · exact raisesOnly_ok _
  · exact raisesOnly_error.2 listed_keyError

theorem listed_textArgument (v : PyValue) : RaisesOnly AdapterRaise.Listed v.textArgument := by
  unfold PyValue.textArgument
  split
  · split
    · exact raisesOnly_ok _
    · exact raisesOnly_error.2 listed_valueError
  · exact raisesOnly_error.2 listed_typeError

theorem listed_iterate (v : PyValue) : RaisesOnly AdapterRaise.Listed v.iterate := by
  unfold PyValue.iterate
  split
  · exact raisesOnly_ok _
  · exact raisesOnly_ok _
  · exact raisesOnly_ok _
  · exact raisesOnly_error.2 listed_typeError

theorem listed_requireDict (v : PyValue) : RaisesOnly AdapterRaise.Listed v.requireDict := by
  unfold PyValue.requireDict
  split
  · exact raisesOnly_ok _
  · exact raisesOnly_error.2 listed_valueError

theorem listed_encoded (w : WorkerRun) : RaisesOnly AdapterRaise.Listed w.encoded := by
  rcases w with _ | _ | ⟨returncode, stdout⟩
  · exact raisesOnly_error.2 ⟨_, rfl⟩
  · exact raisesOnly_error.2 ⟨_, rfl⟩
  · show RaisesOnly _ (if returncode ≠ 0 ∨ 8192 < (stdout.extract 0 8193).size then _ else _)
    split
    · exact raisesOnly_error.2 (listed_ephemeris _)
    · exact raisesOnly_ok _

/-- A reported failure is raised, and any other value of `error` is a `ValueError`. -/
theorem listed_raiseReported (v : PyValue) : RaisesOnly AdapterRaise.Listed (raiseReported v) := by
  unfold raiseReported
  split
  · split
    · refine .bind (listed_getItem _ _) fun error _ => .bind ?_ fun category _ => ?_
      · unfold EphemerisFailure.ofValue
        split
        · split
          · exact raisesOnly_ok _
          · exact raisesOnly_error.2 listed_valueError
        · exact raisesOnly_error.2 listed_valueError
      · exact raisesOnly_error.2 (listed_ephemeris category)
    · exact raisesOnly_ok _
  · exact raisesOnly_ok _

theorem listed_modelValidate (p : BodyLongitude) :
    RaisesOnly AdapterRaise.Listed p.modelValidate.toAdapter := by
  simp only [BodyLongitude.modelValidate, BodyLongitude.exactProjection, Checked.toAdapter_bind]
  exact .bind (listed_require _) fun _ _ => .bind (listed_fromHex _) fun raw _ =>
    .bind (listed_require _) fun _ _ => .bind (listed_longitudeDecimal raw) fun _ _ =>
      listed_require _

theorem listed_readPosition (body : Body) (raw : PyValue) :
    RaisesOnly AdapterRaise.Listed (readPosition body raw) :=
  .bind (listed_textArgument raw) fun _ _ => .bind (listed_fromHex _) fun value _ =>
    .bind (listed_longitudeDecimal value) fun _ _ => .bind (listed_modelValidate _) fun _ _ =>
      raisesOnly_ok _

theorem listed_readPositions (items : List PyValue) :
    RaisesOnly AdapterRaise.Listed (readPositions items) := by
  rcases items with _ | ⟨raw, _ | ⟨raw', rest⟩⟩
  · exact raisesOnly_error.2 listed_valueError
  · exact .bind (listed_readPosition .sun raw) fun _ _ => raisesOnly_error.2 listed_valueError
  · refine .bind (listed_readPosition .sun raw) fun sun _ =>
      .bind (listed_readPosition .moon raw') fun moon _ => ?_
    split
    · exact raisesOnly_ok _
    · exact raisesOnly_error.2 listed_valueError

theorem listed_julianDate (text : String) :
    RaisesOnly AdapterRaise.Listed (julianDate text).toAdapter := by
  simp only [julianDate, Checked.toAdapter_bind]
  refine .bind (listed_fromHex _) fun value _ => ?_
  split
  · exact listed_require _
  · exact raisesOnly_error.2 listed_valueError

theorem listed_coherent (r : EphemerisResult) :
    RaisesOnly AdapterRaise.Listed r.coherent.toAdapter := by
  have hrequest : RaisesOnly AdapterRaise.Listed (EphemerisRequest.make r.utc).toAdapter := by
    unfold EphemerisRequest.make
    split
    · exact raisesOnly_ok _
    · exact raisesOnly_error.2 listed_valueError
  simp only [EphemerisResult.coherent, Checked.toAdapter_bind]
  exact .bind hrequest fun _ _ => .bind (listed_require _) fun _ _ => .bind (listed_require _)
    fun _ _ => .bind (listed_julianDate _) fun _ _ => listed_julianDate _

theorem listed_result (s : SwissEphemeris) (request : EphemerisRequest) (v : PyValue) :
    RaisesOnly AdapterRaise.Listed (s.result request v) := by
  unfold SwissEphemeris.result
  split
  · split
    · exact .bind (listed_getItem _ _) fun positions _ => .bind (listed_iterate positions)
        fun items _ => .bind (listed_readPositions items) fun _ _ => .bind (listed_getItem _ _)
        fun _ _ => .bind (listed_getItem _ _) fun _ _ => .bind (listed_getItem _ _) fun _ _ =>
        .bind (listed_ofOption _) fun _ _ => .bind (listed_ofOption _) fun _ _ =>
        .bind (listed_ofOption _) fun _ _ => .bind (listed_ofOption _) fun _ _ =>
        .bind (listed_require _) fun _ _ => .bind (listed_coherent _) fun _ _ => raisesOnly_ok _
    · exact raisesOnly_error.2 listed_valueError
  · exact raisesOnly_error.2 listed_valueError

end Raises

/-! ## What the adapter returns -/

section Returns

variable {s : SwissEphemeris} {request : EphemerisRequest}

theorem readPosition_eq_ok {body : Body} {raw : PyValue} {p : BodyLongitude}
    (h : readPosition body raw = .ok p) : p.modelValidate = .ok () := by
  simp only [readPosition, bind_eq_ok, Checked.toAdapter_eq_ok, pure, Except.pure,
    Except.ok.injEq] at h
  obtain ⟨text, -, value, -, longitude, -, _, hvalid, rfl⟩ := h
  exact hvalid

theorem readPositions_eq_ok {items : List PyValue} {p : BodyLongitude × BodyLongitude}
    (h : readPositions items = .ok p) :
    p.1.modelValidate = .ok () ∧ p.2.modelValidate = .ok () := by
  rcases items with _ | ⟨raw, _ | ⟨raw', rest⟩⟩
  · cases h
  · obtain ⟨_, -, h⟩ := bind_eq_ok.1 h
    cases h
  · obtain ⟨sun, hsun, h⟩ := bind_eq_ok.1 h
    obtain ⟨moon, hmoon, h⟩ := bind_eq_ok.1 h
    split at h
    · cases h
      exact ⟨readPosition_eq_ok hsun, readPosition_eq_ok hmoon⟩
    · cases h

/-- A result has the instant of its request and passes its own validators. -/
theorem result_eq_ok {v : PyValue} {r : EphemerisResult} (h : s.result request v = .ok r) :
    r.utc = request.utc ∧ r.modelValidate = .ok r := by
  unfold SwissEphemeris.result at h
  split at h
  · split at h
    · simp only [bind_eq_ok, Checked.toAdapter_eq_ok, Checked.require_eq_ok, pure, Except.pure,
        Except.ok.injEq] at h
      obtain ⟨_, -, items, -, positions, hpositions, _, -, _, -, _, -, _, -, _, -, _, -, _, -, _,
        hfields, _, hcoherent, rfl⟩ := h
      obtain ⟨hsun, hmoon⟩ := readPositions_eq_ok hpositions
      exact ⟨rfl, Checked.bind_eq_ok.2 ⟨((), ()),
        Checked.whenever_eq_ok.2 ⟨Checked.both_eq_ok.2 ⟨hsun, hmoon⟩, hfields⟩,
        Checked.bind_eq_ok.2 ⟨(), hcoherent, rfl⟩⟩⟩
    · cases h
  · cases h

theorem attempt_eq_ok {lahiri : Bool} {r : EphemerisResult} {extension : List (PyKey × PyValue)}
    (h : s.attempt request lahiri = .ok (r, extension)) :
    r.utc = request.utc ∧ r.modelValidate = .ok r := by
  obtain ⟨_, -, h⟩ := bind_eq_ok.1 h
  obtain ⟨_, -, h⟩ := bind_eq_ok.1 h
  obtain ⟨_, -, h⟩ := bind_eq_ok.1 h
  obtain ⟨_, -, h⟩ := bind_eq_ok.1 h
  obtain ⟨_, -, h⟩ := bind_eq_ok.1 h
  obtain ⟨result, hresult, h⟩ := bind_eq_ok.1 h
  cases h
  exact result_eq_ok hresult

theorem make_eq_ok {request checked : EphemerisRequest}
    (h : EphemerisRequest.make request.utc = .ok checked) : checked = request := by
  unfold EphemerisRequest.make at h
  split at h
  · next hutc =>
      cases h
      obtain ⟨⟨naive, utcoffset, fold⟩⟩ := request
      obtain ⟨rfl, rfl, -⟩ := hutc
      rfl
  · cases h

/-- A call that finds a slot ends as its attempt does, and the slot is free again. -/
theorem run_of_free {lahiri : Bool} {capacity : BoundedSemaphore 2}
    (hmake : EphemerisRequest.make request.utc = .ok request) (hfree : capacity.value ≠ 0) :
    s.run lahiri capacity request =
      ((s.attempt request lahiri).mapError AdapterRaise.handled, capacity) := by
  rcases hacquire : capacity.tryAcquire with _ | taken
  · exact absurd (BoundedSemaphore.tryAcquire_eq_none.1 hacquire) hfree
  · simp only [SwissEphemeris.run, hmake, hacquire, BoundedSemaphore.release_of_tryAcquire hacquire]

/-- Any other call raises an `EphemerisError` without taking a slot. -/
theorem run_of_not_free {lahiri : Bool} {capacity : BoundedSemaphore 2}
    (h : ¬ (EphemerisRequest.make request.utc = .ok request ∧ capacity.value ≠ 0)) :
    ∃ category, s.run lahiri capacity request =
      (.error (.stage (.ephemeris category)), capacity) := by
  rcases hmake : EphemerisRequest.make request.utc with checked | _ | e
  · obtain rfl := make_eq_ok hmake
    have hnone : capacity.tryAcquire = none := by
      rw [BoundedSemaphore.tryAcquire_eq_none]
      by_contra hfree
      exact h ⟨hmake, hfree⟩
    exact ⟨.busy, by simp only [SwissEphemeris.run, hmake, hnone]⟩
  · exact ⟨.invalidInput, by simp only [SwissEphemeris.run, hmake]⟩
  · exact ⟨.invalidInput, by simp only [SwissEphemeris.run, hmake]⟩

theorem run_capacity (s : SwissEphemeris) (lahiri : Bool) (capacity : BoundedSemaphore 2)
    (request : EphemerisRequest) : (s.run lahiri capacity request).2 = capacity := by
  by_cases hfree : EphemerisRequest.make request.utc = .ok request ∧ capacity.value ≠ 0
  · rw [run_of_free hfree.1 hfree.2]
  · obtain ⟨category, hrun⟩ := @run_of_not_free s request lahiri capacity hfree
    rw [hrun]

/-- **Every tropical output is a result or a failure.** -/
theorem calculate_cases (s : SwissEphemeris) (capacity : BoundedSemaphore 2)
    (request : EphemerisRequest) :
    (∃ r, s.calculate capacity request = .ok r ∧ r.modelValidate = .ok r ∧ r.utc = request.utc) ∨
      ∃ category, s.calculate capacity request = .error (.stage (.ephemeris category)) := by
  by_cases hfree : EphemerisRequest.make request.utc = .ok request ∧ capacity.value ≠ 0
  · have hlisted : RaisesOnly AdapterRaise.Listed (s.attempt request false) :=
      .bind (listed_encoded _) fun _ _ => .bind (listed_ofOption _) fun value _ =>
        .bind (listed_raiseReported value) fun _ _ => .bind_of_ok (a := (value, .dict [])) rfl <|
          .bind (listed_requireDict _) fun _ _ => .bind (listed_result s request value) fun _ _ =>
            raisesOnly_ok _
    rw [SwissEphemeris.calculate, run_of_free hfree.1 hfree.2]
    rcases hlisted.cases with ⟨⟨r, extension⟩, hattempt⟩ | ⟨e, hattempt, category, hcategory⟩
    · left
      rw [hattempt]
      obtain ⟨hutc, hvalid⟩ := attempt_eq_ok hattempt
      exact ⟨r, rfl, hvalid, hutc⟩
    · right
      rw [hattempt]
      exact ⟨category, congrArg Except.error hcategory⟩
  · right
    obtain ⟨category, hrun⟩ := @run_of_not_free s request false capacity hfree
    rw [SwissEphemeris.calculate, hrun]
    exact ⟨category, rfl⟩

end Returns

end AstroPassport
