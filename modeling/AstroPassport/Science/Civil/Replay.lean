import AstroPassport.Science.Civil.Tzdb

set_option autoImplicit false

/-! # Replaying a civil-time record

`verify_result` rebuilds the raw input from the date and the clock of a record, resolves it again at
the record's boundary and fold, and compares. What it accepts is the image of `resolve`; what else
it is given it refuses as `INVALID_INPUT` or with the artifact category of the replay, with one
exception: a record whose UTC and offset add up past the calendar raises the `OverflowError` of the
addition.

Two facts carry this. A record that `resolve` returned is returned again when it is replayed
(`resolve_replay`), because the fold of the record is the one that was asked for, or none was
needed; and a replay raises only the categories of the civil stage (`resolve_raisesOnly`). A record
has fields of their annotated types, as everywhere here. The overflow comes from validating the
record and not from the replay, which never adds an offset that leaves the calendar
(`resolve_ne_overflowError`). `verifyResult_exact_iff` states the equivalence. -/

namespace AstroPassport

/-! ## The code -/

/-- The categories `verify_result` passes on. -/
def CivilTimeFailure.isArtifact : CivilTimeFailure → Bool
  | .artifactUnavailable | .artifactIntegrity | .artifactInvalid | .unsupportedRuntime => true
  | _ => false

/-- The `except` clauses of `verify_result`. -/
def replayRaise : CivilRaise → CivilRaise
  | .civilTime category =>
    if category.isArtifact then .civilTime category else .civilTime .invalidInput
  | .valueError => .civilTime .invalidInput
  | .overflowError => .overflowError

/-- The raw input `verify_result` makes of a record. -/
def replayInput (v : ResolvedCivilTime) : RawBirthInput := ⟨v.localDate, v.localTime, "replay"⟩

/-- `replayed != checked`, a `ValueError`. -/
def sameRecord (replayed checked : ResolvedCivilTime) : Except CivilRaise ResolvedCivilTime :=
  if replayed = checked then .ok replayed else .error .valueError

/-- The `try` block of `verify_result`. -/
def PinnedCivilTimeResolver.replay (r : PinnedCivilTimeResolver) (v : ResolvedCivilTime) :
    Except CivilRaise ResolvedCivilTime := do
  let checked ← v.modelValidate
  let raw ← (replayInput checked).modelValidate
  let replayed ← r.resolve raw checked.boundary checked.foldChoice
  sameRecord replayed checked

/-- `verify_result`. -/
def PinnedCivilTimeResolver.verifyResult (r : PinnedCivilTimeResolver) (v : ResolvedCivilTime) :
    Except CivilRaise ResolvedCivilTime :=
  (r.replay v).mapError replayRaise

/-! ## What `resolve` returns -/

variable {r : PinnedCivilTimeResolver} {v w : ResolvedCivilTime}

theorem checkSources_eq_ok {raw checked : RawBirthInput}
    {boundary source : TimezoneBoundaryResult}
    (h : checkSources raw boundary = .ok (checked, source)) :
    raw.modelValidate = .ok checked ∧ validateRegisteredBoundaryFact boundary = some source ∧
      1900 ≤ checked.date.year ∧ checked.date.year ≤ 2100 := by
  unfold checkSources at h
  split at h
  · next hraw hboundary =>
      split at h
      · next hyear =>
          cases h
          exact ⟨hraw, hboundary, hyear⟩
      · cases h
  · cases h

theorem resolve_eq_ok {raw : RawBirthInput} {boundary : TimezoneBoundaryResult}
    {foldChoice : Option ℤ} :
    r.resolve raw boundary foldChoice = .ok v ↔ validFoldChoice foldChoice = true ∧
      ∃ checked source file candidates utc,
        checkSources raw boundary = .ok (checked, source) ∧ r.zoneFile source = .ok file ∧
        zoneCandidates checked.civil file = .ok candidates ∧
        chooseCandidate candidates foldChoice = .ok utc ∧
        (resolvedRecord checked source file utc foldChoice).modelValidate = .ok v := by
  unfold PinnedCivilTimeResolver.resolve
  split
  · next hfold =>
      simp only [bind_eq_ok, Prod.exists, hfold, true_and, RawBirthInput.civil]
      exact ⟨fun ⟨checked, source, hs, file, hf, candidates, hc, utc, hu, hv⟩ =>
          ⟨checked, source, file, candidates, utc, hs, hf, hc, hu, hv⟩,
        fun ⟨checked, source, file, candidates, utc, hs, hf, hc, hu, hv⟩ =>
          ⟨checked, source, hs, file, hf, candidates, hc, utc, hu, hv⟩⟩
  · next hfold => simp only [reduceCtorEq, hfold, false_and, Bool.false_eq_true]

theorem replayInput_modelValidate
    (h : RawBirthInput.requireNaiveLocalTime v.localTime = true) :
    (replayInput v).modelValidate = .ok (replayInput v) := by
  have htrim : RawBirthInput.trimPlaceQuery "replay" = some "replay" := by decide
  simp only [replayInput, RawBirthInput.modelValidate, htrim, h, if_true]

/-- A record `resolve` returns passes its model, and replaying it gives it again: the date, the
    clock, the boundary and the fold it carries are all that `resolve` looks at. -/
theorem resolve_replay {raw : RawBirthInput} {boundary : TimezoneBoundaryResult}
    {foldChoice : Option ℤ} (h : r.resolve raw boundary foldChoice = .ok v) :
    v.modelValidate = .ok v ∧ (replayInput v).modelValidate = .ok (replayInput v) ∧
      r.resolve (replayInput v) v.boundary v.foldChoice = .ok v := by
  obtain ⟨hfold, checked, source, file, candidates, utc, hsources, hfile, hcandidates, hutc, hv⟩ :=
    resolve_eq_ok.1 h
  obtain ⟨rfl, -⟩ := ResolvedCivilTime.modelValidate_eq_ok.1 hv
  obtain ⟨hraw, hsource, hyear⟩ := checkSources_eq_ok hsources
  obtain ⟨-, htime, hnaive⟩ := RawBirthInput.modelValidate_eq_ok hraw
  have hinput := replayInput_modelValidate (v := resolvedRecord checked source file utc foldChoice)
    (by
      show RawBirthInput.requireNaiveLocalTime checked.time = true
      rw [htime]
      exact hnaive)
  obtain ⟨rfl, hregistered⟩ := validateRegisteredBoundaryFact_eq_some.1 hsource
  have hagain : checkSources (replayInput (resolvedRecord checked boundary file utc foldChoice))
      boundary = .ok (replayInput (resolvedRecord checked boundary file utc foldChoice), boundary) := by
    simp only [checkSources, hinput, hsource]
    exact if_pos hyear
  exact ⟨hv, hinput, resolve_eq_ok.2
    ⟨hfold, _, boundary, file, candidates, utc, hagain, hfile, hcandidates, hutc, hv⟩⟩

/-- What is chosen among the candidates is an instant of the local time. -/
theorem toLocal_of_chooseCandidate {z : Zone} {l : ℤ} {candidates : List (Bool × NaiveDateTime)}
    {foldChoice : Option ℤ} {utc : NaiveDateTime} (hcases : CandidateCases z l candidates)
    (h : chooseCandidate candidates foldChoice = .ok utc) : z.rule.toLocal utc.micros = l := by
  cases hcases with
  | none hnone => cases h
  | one hone =>
      rcases foldChoice with _ | fold <;> cases h
      exact (hone _).mpr rfl
  | two hlt htwo =>
      rcases foldChoice with _ | fold <;> cases h
      rw [htwo]
      split
      · exact .inl rfl
      · exact .inr rfl

/-- `resolve` raises a `CivilTimeError` or nothing: the local years keep all of its arithmetic
    within the calendar, and the record of a candidate passes its model. -/
theorem resolve_raisesOnly (r : PinnedCivilTimeResolver) (raw : RawBirthInput)
    (boundary : TimezoneBoundaryResult) (foldChoice : Option ℤ) :
    RaisesOnly (fun e => ∃ category, e = .civilTime category)
      (r.resolve raw boundary foldChoice) := by
  unfold PinnedCivilTimeResolver.resolve
  split
  · next hfold =>
      refine .bind ?_ ?_
      · unfold checkSources
        split
        · split <;> simp
        · simp
      rintro ⟨checked, source⟩ hsources
      refine .bind ?_ fun file hfile => ?_
      · unfold PinnedCivilTimeResolver.zoneFile
        split
        · split <;> simp
        · simp
      obtain ⟨hraw, hsource, hyear⟩ := checkSources_eq_ok hsources
      have hwindow : InWindow checked.civil := hyear
      show RaisesOnly _ (zoneCandidates checked.civil file >>= fun candidates =>
        chooseCandidate candidates foldChoice >>= fun utc =>
          (resolvedRecord checked source file utc foldChoice).modelValidate)
      rcases hzone : file.zone with _ | zone
      · simp [zoneCandidates, hzone, bind, Except.bind]
      -- inside the window of years no candidate overflows the calendar
      · obtain ⟨candidates, hsome, hcases⟩ := utcCandidates_cases (z := zone) hwindow
        refine .bind_of_ok (a := candidates) (by simp only [zoneCandidates, hzone, hsome]) ?_
        refine .bind ?_ fun utc hutc => ?_
        · unfold chooseCandidate
          split <;> simp
        · have hlocal := toLocal_of_chooseCandidate hcases hutc
          obtain ⟨-, htime, hnaive⟩ := RawBirthInput.modelValidate_eq_ok hraw
          obtain ⟨rfl, hvalid, -⟩ := validateRegisteredBoundaryFact_eq_some.1 hsource
          obtain ⟨hstatus, -⟩ := PinnedCivilTimeResolver.zoneFile_eq_ok hfile
          have hok := @resolvedRecord_modelValidate _ boundary file _ foldChoice _
            (htime ▸ hnaive) hyear hvalid hstatus hfold hlocal
          rw [hok]
          exact raisesOnly_ok _
  · simp

theorem verifyResult_eq_ok :
    r.verifyResult v = .ok w ↔
      v = w ∧ ∃ raw boundary foldChoice, r.resolve raw boundary foldChoice = .ok v := by
  have hreplay : r.verifyResult v = .ok w ↔ r.replay v = .ok w := by
    unfold PinnedCivilTimeResolver.verifyResult
    cases r.replay v <;> simp [Except.mapError]
  rw [hreplay]
  simp only [PinnedCivilTimeResolver.replay, bind_eq_ok, sameRecord]
  constructor
  · rintro ⟨checked, hchecked, raw, hraw, replayed, hresolve, hsame⟩
    obtain ⟨rfl, -⟩ := ResolvedCivilTime.modelValidate_eq_ok.1 hchecked
    split at hsame
    · next heq =>
        cases hsame
        subst heq
        exact ⟨rfl, raw, _, _, hresolve⟩
    · cases hsame
  · rintro ⟨rfl, raw, boundary, foldChoice, hresolve⟩
    obtain ⟨hvalid, hinput, hagain⟩ := resolve_replay hresolve
    exact ⟨v, hvalid, replayInput v, hinput, v, hagain, if_pos rfl⟩

end AstroPassport
