import AstroPassport.Science.Assembly
import AstroPassport.Science.Ephemeris.Adapter

set_option autoImplicit false

/-! # Replayed facts

`NatalService.verify_facts`: facts are validated, calculated again for their instant and compared.
Of two valid results the comparison sees the instant, the floats and the provenance; bodies,
decimals and limitations follow from these (`same_iff`). So facts are accepted exactly when the
service calculates them, and every failure is a `NatalError` or the one of the calculation
(`verifyFacts_exact`).

The request for the replay is made from the instant of the facts, which is a supported one once they
are valid (`EphemerisResult.make_utc`). Validation may refuse in many ways but raises none of the
exceptions the service has no answer for (`modelValidate_ne_invalidOperation`). A calculated result
is itself valid and of the instant it was asked for (`valid_of_natal`), so what the service has
returned it accepts again as long as the ephemeris answers the same. The check that no event loop is
running is left out. -/

namespace AstroPassport

/-! ## The comparison -/

/-- Equality of two `BodyLongitude`s; a `Decimal` is equal to another of the same value. -/
def BodyLongitude.same (p q : BodyLongitude) : Bool :=
  decide (p.body = q.body) && decide (p.longitude.value = q.longitude.value) &&
    decide (p.binary64Hex = q.binary64Hex)

/-- `actual == captured`, the instants of both being in UTC. -/
def EphemerisResult.same (actual captured : EphemerisResult) : Bool :=
  decide (actual.utc.naive = captured.utc.naive) &&
    actual.positions.1.same captured.positions.1 && actual.positions.2.same captured.positions.2 &&
    decide (actual.jdTtHex = captured.jdTtHex) && decide (actual.jdUt1Hex = captured.jdUt1Hex) &&
    decide (actual.limitations = captured.limitations) &&
    decide (actual.provenance = captured.provenance)

/-- `NatalService.verify_facts`; the values are those of `NatalFacts`, validated twice over. -/
def PassportScience.verifyFacts (s : PassportScience) (facts : EphemerisResult) :
    Except PassportRaise EphemerisResult :=
  match facts.modelValidate >>= EphemerisResult.modelValidate with
  | .ok captured => do
    let request ← (EphemerisRequest.make captured.utc).toPassport
    let actual ← s.natal request
    if actual.same captured then .ok actual
    else .error (.stage (.natal .replayMismatch))
  | .valueError => .error (.stage (.natal .invalidInput))
  | .escaped .overflowError => .error (.stage (.natal .invalidInput))
  | .escaped .invalidOperation => .error (.escaped .invalidOperation)

/-! ## What the comparison sees -/

section Same

variable {p q : BodyLongitude} {r v : EphemerisResult}

/-- The nine-place decimal is the one of the float. -/
theorem BodyLongitude.value_of_modelValidate (h : p.modelValidate = .ok ()) :
    ∃ raw projected, Binary64.fromHex p.binary64Hex.toList = .ok raw ∧
      longitudeDecimal raw = .ok projected ∧ projected.value = p.longitude.value := by
  simp only [BodyLongitude.modelValidate, BodyLongitude.exactProjection, Checked.bind_eq_ok,
    Checked.require_eq_ok, decide_eq_true_eq] at h
  obtain ⟨_, -, raw, hraw, _, -, projected, hprojected, hvalue⟩ := h
  exact ⟨raw, projected, hraw, hprojected, hvalue⟩

theorem BodyLongitude.same_iff (hp : p.modelValidate = .ok ()) (hq : q.modelValidate = .ok ()) :
    p.same q = true ↔ p.body = q.body ∧ p.binary64Hex = q.binary64Hex := by
  simp only [BodyLongitude.same, Bool.and_eq_true, decide_eq_true_eq]
  refine ⟨fun h => ⟨h.1.1, h.2⟩, fun h => ⟨⟨h.1, ?_⟩, h.2⟩⟩
  obtain ⟨raw, projected, hraw, hprojected, hvalue⟩ := BodyLongitude.value_of_modelValidate hp
  obtain ⟨raw', projected', hraw', hprojected', hvalue'⟩ := BodyLongitude.value_of_modelValidate hq
  rw [h.2, hraw', Checked.ok.injEq] at hraw
  subst hraw
  rw [hprojected', Checked.ok.injEq] at hprojected
  subst hprojected
  rw [← hvalue, ← hvalue']

/-- The instant of a valid result is one the ephemeris takes, as it is. -/
theorem EphemerisResult.make_utc (h : r.modelValidate = .ok r) :
    EphemerisRequest.make r.utc = .ok ⟨r.utc⟩ := by
  simp only [EphemerisResult.modelValidate, EphemerisResult.coherent, Checked.bind_eq_ok] at h
  obtain ⟨_, -, _, ⟨checked, hmake, -⟩, -⟩ := h
  have hchecked := @make_eq_ok ⟨r.utc⟩ checked hmake
  rwa [hchecked] at hmake

/-- A supported instant is in UTC. -/
theorem utc_of_make {utc : PyDateTime} (h : EphemerisRequest.make utc = .ok ⟨utc⟩) :
    utc = .utc utc.naive := by
  unfold EphemerisRequest.make at h
  split at h
  · exact congrArg EphemerisRequest.utc (Checked.ok.inj h).symm
  · cases h

/-- Two results of the same sky: one instant, one set of floats, one execution identity. -/
structure EphemerisResult.SameSky (r v : EphemerisResult) : Prop where
  utc : r.utc = v.utc
  sun : r.positions.1.binary64Hex = v.positions.1.binary64Hex
  moon : r.positions.2.binary64Hex = v.positions.2.binary64Hex
  jdTt : r.jdTtHex = v.jdTtHex
  jdUt1 : r.jdUt1Hex = v.jdUt1Hex
  provenance : r.provenance = v.provenance

theorem EphemerisResult.same_iff (hr : r.modelValidate = .ok r) (hv : v.modelValidate = .ok v) :
    r.same v = true ↔ r.SameSky v := by
  obtain ⟨-, ha⟩ := EphemerisResult.accepted hr
  obtain ⟨-, hb⟩ := EphemerisResult.accepted hv
  simp only [EphemerisResult.same, Bool.and_eq_true, decide_eq_true_eq,
    BodyLongitude.same_iff ha.sun hb.sun, BodyLongitude.same_iff ha.moon hb.moon]
  constructor
  · rintro ⟨⟨⟨⟨⟨⟨hnaive, -, hsun⟩, -, hmoon⟩, hjdTt⟩, hjdUt1⟩, -⟩, hprovenance⟩
    have hutc : r.utc = v.utc := by
      rw [utc_of_make (EphemerisResult.make_utc hr), utc_of_make (EphemerisResult.make_utc hv), hnaive]
    exact ⟨hutc, hsun, hmoon, hjdTt, hjdUt1, hprovenance⟩
  · intro h
    have hlimitations : r.limitations = v.limitations := by
      rw [ha.limitations, hb.limitations, h.utc]
    exact ⟨⟨⟨⟨⟨⟨congrArg PyDateTime.naive h.utc, ha.order.1.trans hb.order.1.symm, h.sun⟩,
      ha.order.2.trans hb.order.2.symm, h.moon⟩, h.jdTt⟩, h.jdUt1⟩, hlimitations⟩, h.provenance⟩

end Same

/-! ## What validation raises -/

section Escapes

variable {α β : Type} {e : Escape}

theorem Checked.bind_ne_escaped {x : Checked α} {f : α → Checked β} (hx : x ≠ .escaped e)
    (hf : ∀ a, f a ≠ .escaped e) : (x >>= f) ≠ .escaped e := by
  rcases x with a | _ | e'
  · exact hf a
  · exact fun h => nomatch h
  · exact fun h => hx (by cases h; rfl)

theorem Checked.both_ne_escaped {x : Checked α} {y : Checked β} (hx : x ≠ .escaped e)
    (hy : y ≠ .escaped e) : x.both y ≠ .escaped e := by
  rcases x with a | _ | e' <;> rcases y with b | _ | e'' <;> simp_all [Checked.both]

theorem Checked.whenever_ne_escaped {x : Checked α} {p : Bool} (hx : x ≠ .escaped e) :
    x.whenever p ≠ .escaped e := by
  rcases x with a | _ | e'
  · rcases p with _ | _ <;> simp [Checked.whenever]
  · simp [Checked.whenever]
  · exact hx

/-- What the adapter lists is no failure of the decimal arithmetic. -/
theorem Checked.ne_invalidOperation {x : Checked α}
    (h : RaisesOnly AdapterRaise.Listed x.toAdapter) : x ≠ .escaped .invalidOperation := by
  rintro rfl
  obtain ⟨category, hcategory⟩ := h _ rfl
  cases hcategory

theorem EphemerisResult.modelValidate_ne_invalidOperation (r : EphemerisResult) :
    r.modelValidate ≠ .escaped .invalidOperation := by
  have hsun := Checked.ne_invalidOperation (listed_modelValidate r.positions.1)
  have hmoon := Checked.ne_invalidOperation (listed_modelValidate r.positions.2)
  have hcoherent := Checked.ne_invalidOperation (listed_coherent r)
  exact Checked.bind_ne_escaped (Checked.whenever_ne_escaped (Checked.both_ne_escaped hsun hmoon))
    fun _ => Checked.bind_ne_escaped hcoherent fun _ h => nomatch h

end Escapes

/-! ## The replay -/

section Replay

variable {s : PassportScience} {facts actual : EphemerisResult} {request : EphemerisRequest}

/-- What the service calculates is valid, and of the instant of its request. -/
theorem valid_of_natal (h : s.natal request = .ok actual) :
    actual.modelValidate = .ok actual ∧ actual.utc = request.utc := by
  unfold PassportScience.natal at h
  split at h
  · next captured hmake =>
      obtain rfl := make_eq_ok hmake
      obtain ⟨astronomy, -, hfacts⟩ := bind_eq_ok.1 h
      unfold natalFacts at hfacts
      split at hfacts
      · next result hresult =>
          obtain ⟨first, hfirst, hsecond⟩ := Checked.bind_eq_ok.1 hresult
          obtain ⟨rfl, -⟩ := EphemerisResult.accepted hfirst
          obtain ⟨rfl, -⟩ := EphemerisResult.accepted hsecond
          split at hfacts
          · next hnaive =>
              cases hfacts
              refine ⟨hfirst, ?_⟩
              rw [utc_of_make (EphemerisResult.make_utc hfirst), utc_of_make hmake, hnaive]
          · cases hfacts
      · cases hfacts
      · cases hfacts
      · cases hfacts
  · cases h

/-- Valid facts are compared with what the service calculates for their instant. -/
theorem verifyFacts_of_valid (h : facts.modelValidate = .ok facts) :
    s.verifyFacts facts = s.natal ⟨facts.utc⟩ >>= fun actual =>
      if actual.same facts then .ok actual else .error (.stage (.natal .replayMismatch)) := by
  have htwice : (facts.modelValidate >>= EphemerisResult.modelValidate) = .ok facts :=
    Checked.bind_eq_ok.2 ⟨facts, h, h⟩
  unfold PassportScience.verifyFacts
  rw [htwice]
  simp only [EphemerisResult.make_utc h]
  rfl

theorem verifyFacts_of_not_valid (h : facts.modelValidate ≠ .ok facts) :
    s.verifyFacts facts = .error (.stage (.natal .invalidInput)) := by
  have hescape := facts.modelValidate_ne_invalidOperation
  unfold PassportScience.verifyFacts
  rcases hvalidate : facts.modelValidate with a | _ | e
  · obtain ⟨rfl, -⟩ := EphemerisResult.accepted hvalidate
    exact absurd hvalidate h
  · rfl
  · cases e with
    | overflowError => rfl
    | invalidOperation => exact absurd hvalidate hescape

/-- **Replay.** Facts are accepted exactly when they are valid and the service calculates the same
    sky for some request, and the answer is then what it calculates. Otherwise they are invalid, or
    the calculation for their instant fails, or it gives another sky. -/
theorem verifyFacts_exact (s : PassportScience) (facts : EphemerisResult) :
    (∀ actual, s.verifyFacts facts = .ok actual ↔ facts.modelValidate = .ok facts ∧
      actual.SameSky facts ∧ ∃ request, s.natal request = .ok actual) ∧
    ∀ e, s.verifyFacts facts = .error e ↔
      (facts.modelValidate ≠ .ok facts ∧ e = .stage (.natal .invalidInput)) ∨
      (facts.modelValidate = .ok facts ∧ s.natal ⟨facts.utc⟩ = .error e) ∨
      (facts.modelValidate = .ok facts ∧ e = .stage (.natal .replayMismatch) ∧
        ∃ actual, s.natal ⟨facts.utc⟩ = .ok actual ∧ ¬ actual.SameSky facts) := by
  by_cases hvalid : facts.modelValidate = .ok facts
  · rw [verifyFacts_of_valid hvalid]
    refine ⟨fun actual => ?_, fun e => ?_⟩
    · rw [bind_eq_ok]
      constructor
      · rintro ⟨found, hfound, h⟩
        split at h
        · next hsame =>
            cases h
            exact ⟨hvalid, (EphemerisResult.same_iff (valid_of_natal hfound).1 hvalid).1 hsame,
              _, hfound⟩
        · cases h
      · -- the request of the same sky is the request for these facts
        rintro ⟨-, hsky, ⟨utc⟩, hnatal⟩
        obtain ⟨hactual, hutc⟩ := valid_of_natal hnatal
        obtain rfl : facts.utc = utc := hsky.utc.symm.trans hutc
        exact ⟨actual, hnatal, if_pos ((EphemerisResult.same_iff hactual hvalid).2 hsky)⟩
    · rw [bind_eq_error]
      constructor
      · rintro (hfailure | ⟨found, hfound, h⟩)
        · exact .inr (.inl ⟨hvalid, hfailure⟩)
        · split at h
          · cases h
          · next hother =>
              cases h
              refine .inr (.inr ⟨hvalid, rfl, found, hfound, fun hsky => hother ?_⟩)
              exact (EphemerisResult.same_iff (valid_of_natal hfound).1 hvalid).2 hsky
      · rintro (⟨hinvalid, -⟩ | ⟨-, hfailure⟩ | ⟨-, rfl, found, hfound, hother⟩)
        · exact absurd hvalid hinvalid
        · exact .inl hfailure
        · refine .inr ⟨found, hfound, if_neg fun hsame => hother ?_⟩
          exact (EphemerisResult.same_iff (valid_of_natal hfound).1 hvalid).1 hsame
  · rw [verifyFacts_of_not_valid hvalid]
    simp only [reduceCtorEq, hvalid, false_and, or_false, Except.error.injEq, ne_eq,
      not_false_eq_true, true_and, implies_true]
    exact fun e => ⟨fun h => h.symm, fun h => h.symm⟩

end Replay

end AstroPassport
