import AstroPassport.Science.Ephemeris.Contracts

set_option autoImplicit false

/-! # Failures of the science stages

The categories of the stages' exceptions, the error codes of the service, and `ERROR_CODES`, the
table of `pipeline.py` between them.

A stage raises an exception of its own class with a category, and the table is keyed by the text of
the category, whatever the class. The categories of the four stages are enumerations with their
texts (`StageError.value`), some texts are shared between stages, and an error code has a status in
the table of the service (`scienceStatus`). That every category of every stage has a code, so that
no lookup fails, is `exists_errorCode`. -/

namespace AstroPassport

/-! ## Error codes -/

/-- `ErrorCode` of `app/contracts.py`. -/
inductive ErrorCode where
  | disabled
  | unauthorized
  | forbidden
  | invalidRequest
  | unsupportedVersion
  | tooLarge
  | unsupportedMediaType
  | rateLimited
  | busy
  | stateUnavailable
  | scienceUnavailable
  | timeout
  | internalError
  | boundaryAmbiguous
  | boundaryNoMatch
  | civilAmbiguous
  | civilNonexistent
  | artifactUnavailable
  | artifactIntegrity
  | boundaryBoundary
  | invalidFold
  | unsupportedRuntime
  | artifactInvalid
  | nativeFailure
  | fallbackRejected
  | invalidResult
  deriving DecidableEq

/-- `STATUS` of `app/science/errors.py`; a code it does not list is a `KeyError`. -/
def scienceStatus : ErrorCode → Option ℕ
  | .invalidRequest => some 422
  | .boundaryBoundary => some 422
  | .boundaryAmbiguous => some 422
  | .boundaryNoMatch => some 422
  | .civilAmbiguous => some 422
  | .civilNonexistent => some 422
  | .invalidFold => some 422
  | .artifactUnavailable => some 503
  | .artifactIntegrity => some 500
  | .artifactInvalid => some 500
  | .unsupportedRuntime => some 503
  | .nativeFailure => some 500
  | .fallbackRejected => some 500
  | .invalidResult => some 500
  | .busy => some 503
  | .timeout => some 408
  | .internalError => some 500
  | _ => none

/-! ## Categories -/

/-- `TimezoneBoundaryFailure`. -/
inductive TimezoneBoundaryFailure where
  | invalidInput
  | artifactUnavailable
  | artifactIntegrity
  | artifactInvalid
  | unsupportedRuntime
  deriving DecidableEq, Repr

/-- `EphemerisFailure`. -/
inductive EphemerisFailure where
  | invalidInput
  | dataUnavailable
  | dataIntegrity
  | unsupportedRuntime
  | busy
  | timeout
  | nativeFailure
  | fallbackRejected
  | invalidResult
  deriving DecidableEq, Repr

/-- `NatalFailure`. -/
inductive NatalFailure where
  | invalidInput
  | invalidResult
  | replayMismatch
  | asyncContext
  deriving DecidableEq, Repr

/-- The exceptions that `_calculate` turns into a `ScienceFailure`. -/
inductive StageError where
  | boundary (category : TimezoneBoundaryFailure)
  | civilTime (category : CivilTimeFailure)
  | ephemeris (category : EphemerisFailure)
  | natal (category : NatalFailure)
  deriving DecidableEq, Repr

/-- `exc.category.value`. -/
def StageError.value : StageError → String
  | .boundary .invalidInput => "invalid_input"
  | .boundary .artifactUnavailable => "artifact_unavailable"
  | .boundary .artifactIntegrity => "artifact_integrity"
  | .boundary .artifactInvalid => "artifact_invalid"
  | .boundary .unsupportedRuntime => "unsupported_runtime"
  | .civilTime .invalidInput => "invalid_input"
  | .civilTime .unresolvedZone => "unresolved_zone"
  | .civilTime .invalidFold => "invalid_fold"
  | .civilTime .ambiguousLocalTime => "ambiguous_local_time"
  | .civilTime .nonexistentLocalTime => "nonexistent_local_time"
  | .civilTime .artifactUnavailable => "artifact_unavailable"
  | .civilTime .artifactIntegrity => "artifact_integrity"
  | .civilTime .artifactInvalid => "artifact_invalid"
  | .civilTime .unsupportedRuntime => "unsupported_runtime"
  | .ephemeris .invalidInput => "invalid_input"
  | .ephemeris .dataUnavailable => "data_unavailable"
  | .ephemeris .dataIntegrity => "data_integrity"
  | .ephemeris .unsupportedRuntime => "unsupported_runtime"
  | .ephemeris .busy => "busy"
  | .ephemeris .timeout => "timeout"
  | .ephemeris .nativeFailure => "native_failure"
  | .ephemeris .fallbackRejected => "fallback_rejected"
  | .ephemeris .invalidResult => "invalid_result"
  | .natal .invalidInput => "invalid_input"
  | .natal .invalidResult => "invalid_result"
  | .natal .replayMismatch => "replay_mismatch"
  | .natal .asyncContext => "async_context"

/-- `ERROR_CODES`. -/
def errorCodes : List (String × ErrorCode) :=
  [("invalid_input", .invalidRequest), ("unresolved_zone", .invalidResult),
    ("invalid_fold", .invalidFold), ("ambiguous_local_time", .civilAmbiguous),
    ("nonexistent_local_time", .civilNonexistent), ("artifact_unavailable", .artifactUnavailable),
    ("artifact_integrity", .artifactIntegrity), ("artifact_invalid", .artifactInvalid),
    ("unsupported_runtime", .unsupportedRuntime), ("data_unavailable", .artifactUnavailable),
    ("data_integrity", .artifactIntegrity), ("busy", .busy), ("timeout", .timeout),
    ("native_failure", .nativeFailure), ("fallback_rejected", .fallbackRejected),
    ("invalid_result", .invalidResult), ("replay_mismatch", .invalidResult),
    ("async_context", .internalError)]

/-- Every category has a code, and every such code a status. -/
theorem exists_errorCode (e : StageError) :
    ∃ code, errorCodes.lookup e.value = some code ∧ (scienceStatus code).isSome = true := by
  rcases e with c | c | c | c <;> cases c <;> exact ⟨_, rfl, rfl⟩

end AstroPassport
