import AstroPassport.Lib.Semaphore
import AstroPassport.Lib.Transition

set_option autoImplicit false

/-! # The science capacity

`PassportScience._submit` takes one of two tokens, hands the work to the executor and leaves the
token to the thread that runs it; inside, `SwissEphemeris._calculate` takes one of two module-wide
native tokens for each of its calls. A state here holds both semaphores and every calculation ever
submitted, each in the phase its code is in; an event moves one calculation over one acquire,
release or scheduling point, or lets its waiter go. The main result is that the two semaphores
account for every calculation along every run, so that no admitted one is refused a native slot.

A submission that raises gives its token back at once, and a waiter that is cancelled leaves the
work running, whose thread returns the token at its end. The invariant is a pair of accounts over
one table, the native one nested in the other; each event is one of the rules of a bounded semaphore
for both. Which exceptions the work ends with does not matter, since a `finally` follows. -/

namespace AstroPassport

/-- `calculate` and `calculate_lahiri`. -/
inductive Profile where
  | tropical
  | lahiri
  deriving DecidableEq, Repr

/-- The calls of `SwissEphemeris._calculate` a calculation makes: `_calculate` asks the natal
    service once, and `_lahiri` asks the ephemeris again after its tropical part. -/
def Profile.nativeCalls : Profile → ℕ
  | .tropical => 1
  | .lahiri => 2

/-- How a piece of code ends. -/
inductive Outcome where
  | returned
  | raised
  deriving DecidableEq, Repr

/-- Where a submission has got to, and with it the work it started. -/
inductive Phase where
  /-- `ScienceFailure("busy")`: no token was free. -/
  | refused
  /-- The token is taken and `run_in_executor` has not returned. -/
  | submitting
  | queued
  /-- In `calculate()`, with this many native calls to come. -/
  | running (calls : ℕ)
  /-- In `SwissEphemeris._calculate`, between its acquire and its `finally`. -/
  | native (calls : ℕ)
  /-- `calculate()` is over and the `finally` of `work` is not. -/
  | unwinding (outcome : Outcome)
  | ended (outcome : Outcome)
  deriving DecidableEq, Repr

/-- The coroutine at `await asyncio.shield(future)`. -/
inductive Waiter where
  | waiting
  /-- Cancelled or timed out. -/
  | left
  | answered
  deriving DecidableEq, Repr

/-- A calculation: its profile, where it has got to, and who waits for it. -/
structure Calculation where
  profile : Profile
  phase : Phase
  waiter : Waiter
  deriving DecidableEq, Repr

/-- What must never happen: a native call refused for want of a token (`EphemerisFailure.BUSY`), or
    a `ValueError` from a release past the bound. -/
inductive CapacityFault where
  | nativeBusy (calculation : ℕ)
  | releasedTooOften (calculation : ℕ)
  deriving DecidableEq, Repr

/-- `PassportScience._capacity`, the adapter's `_CAPACITY`, and the calculations in the order of
    their submission. -/
structure ScienceState where
  capacity : BoundedSemaphore 2
  nativeCapacity : BoundedSemaphore 2
  calculations : List Calculation
  faults : List CapacityFault
  deriving DecidableEq, Repr

/-- A ready instance: the startup calculations are over. -/
def ScienceState.ready : ScienceState where
  capacity := .new 2
  nativeCapacity := .new 2
  calculations := []
  faults := []

/-- One move of the event loop, of a worker thread or of a waiter. The number is the calculation's
    place in the order of submission. -/
inductive CapacityEvent where
  /-- `_submit` up to its acquire. -/
  | submit (profile : Profile)
  /-- `run_in_executor` returns the future. -/
  | schedule (i : ℕ)
  /-- `run_in_executor` raises and the token goes back. -/
  | scheduleRaises (i : ℕ)
  /-- A worker thread takes the work up. -/
  | start (i : ℕ)
  | enterNative (i : ℕ)
  | leaveNative (i : ℕ) (outcome : Outcome)
  /-- `calculate()` returns, or raises outside a native call. -/
  | finish (i : ℕ) (outcome : Outcome)
  /-- The `finally` of `work`. -/
  | releaseCapacity (i : ℕ)
  /-- The waiter is cancelled or times out at its await. -/
  | leave (i : ℕ)
  /-- The waiter gets the future's result or exception. -/
  | answer (i : ℕ)
  deriving DecidableEq, Repr

namespace ScienceState

/-- The calculation at a place of the list, replaced. -/
def put (s : ScienceState) (i : ℕ) (c : Calculation) : ScienceState :=
  { s with calculations := s.calculations.set i c }

@[simp] theorem put_capacity (s : ScienceState) (i : ℕ) (c : Calculation) :
    (s.put i c).capacity = s.capacity := rfl

@[simp] theorem put_nativeCapacity (s : ScienceState) (i : ℕ) (c : Calculation) :
    (s.put i c).nativeCapacity = s.nativeCapacity := rfl

@[simp] theorem put_calculations (s : ScienceState) (i : ℕ) (c : Calculation) :
    (s.put i c).calculations = s.calculations.set i c := rfl

@[simp] theorem put_faults (s : ScienceState) (i : ℕ) (c : Calculation) :
    (s.put i c).faults = s.faults := rfl

/-- `self._capacity.release()` on behalf of a calculation, which is then over. -/
def giveBack (s : ScienceState) (i : ℕ) (c : Calculation) : ScienceState :=
  match s.capacity.release with
  | some capacity => { s.put i c with capacity }
  | none => { s.put i c with faults := s.faults ++ [.releasedTooOften i] }

/-- `if not self._capacity.acquire(blocking=False): raise ScienceFailure("busy")`. -/
def submit (s : ScienceState) (profile : Profile) : ScienceState :=
  match s.capacity.tryAcquire with
  | some capacity =>
      { s with capacity, calculations := s.calculations ++ [⟨profile, .submitting, .waiting⟩] }
  | none => { s with calculations := s.calculations ++ [⟨profile, .refused, .answered⟩] }

/-- The acquire of `SwissEphemeris._calculate`; a refused call raises through `calculate()`. -/
def enterNative (s : ScienceState) (i calls : ℕ) (c : Calculation) : ScienceState :=
  match s.nativeCapacity.tryAcquire with
  | some nativeCapacity => { s.put i { c with phase := .native calls } with nativeCapacity }
  | none =>
      { s.put i { c with phase := .unwinding .raised } with faults := s.faults ++ [.nativeBusy i] }

/-- The `finally` of `SwissEphemeris._calculate`; what it raised goes on through `calculate()`. -/
def leaveNative (s : ScienceState) (i : ℕ) (c : Calculation) : ScienceState :=
  match s.nativeCapacity.release with
  | some nativeCapacity => { s.put i c with nativeCapacity }
  | none => { s.put i c with faults := s.faults ++ [.releasedTooOften i] }

end ScienceState

/-- The phase after a native call. -/
def Phase.afterNative (calls : ℕ) : Outcome → Phase
  | .returned => .running calls
  | .raised => .unwinding .raised

open ScienceState in
/-- One event, where it applies. -/
def capacityStep (s : ScienceState) : CapacityEvent → Option ScienceState
  | .submit profile => some (s.submit profile)
  | .schedule i => do
      let c ← s.calculations[i]?
      match c.phase with
      | .submitting => some (s.put i { c with phase := .queued })
      | _ => none
  | .scheduleRaises i => do
      let c ← s.calculations[i]?
      match c.phase with
      | .submitting => some (s.giveBack i { c with phase := .ended .raised, waiter := .answered })
      | _ => none
  | .start i => do
      let c ← s.calculations[i]?
      match c.phase with
      | .queued => some (s.put i { c with phase := .running c.profile.nativeCalls })
      | _ => none
  | .enterNative i => do
      let c ← s.calculations[i]?
      match c.phase with
      | .running (calls + 1) => some (s.enterNative i calls c)
      | _ => none
  | .leaveNative i outcome => do
      let c ← s.calculations[i]?
      match c.phase with
      | .native calls => some (s.leaveNative i { c with phase := .afterNative calls outcome })
      | _ => none
  | .finish i outcome => do
      let c ← s.calculations[i]?
      match c.phase, outcome with
      -- a result needs all of the native calls, an exception may come before any of them
      | .running 0, .returned => some (s.put i { c with phase := .unwinding .returned })
      | .running _, .raised => some (s.put i { c with phase := .unwinding .raised })
      | _, _ => none
  | .releaseCapacity i => do
      let c ← s.calculations[i]?
      match c.phase with
      | .unwinding outcome => some (s.giveBack i { c with phase := .ended outcome })
      | _ => none
  | .leave i => do
      let c ← s.calculations[i]?
      match c.phase, c.waiter with
      | .submitting, _ => none
      | _, .waiting => some (s.put i { c with waiter := .left })
      | _, _ => none
  | .answer i => do
      let c ← s.calculations[i]?
      match c.phase, c.waiter with
      | .ended _, .waiting => some (s.put i { c with waiter := .answered })
      | _, _ => none

/-! ## Who holds what -/

/-- Admitted and not over: the token is taken. -/
def Phase.holdsToken : Phase → Bool
  | .refused | .ended _ => false
  | _ => true

/-- In the executor: queued, or running up to the release in `work`. -/
def Phase.queuedOrRunning : Phase → Bool
  | .refused | .submitting | .ended _ => false
  | _ => true

/-- The native slot is taken. -/
def Phase.holdsNative : Phase → Bool
  | .native _ => true
  | _ => false

theorem Phase.holdsToken_of_holdsNative {phase : Phase} (h : phase.holdsNative = true) :
    phase.holdsToken = true := by
  cases phase <;> first | rfl | cases h

theorem Phase.queuedOrRunning_eq_holdsToken {phase : Phase} (h : phase ≠ .submitting) :
    phase.queuedOrRunning = phase.holdsToken := by
  cases phase <;> first | rfl | exact absurd rfl h

@[simp]
theorem Phase.holdsToken_afterNative (calls : ℕ) (outcome : Outcome) :
    (Phase.afterNative calls outcome).holdsToken = true := by
  cases outcome <;> rfl

@[simp]
theorem Phase.holdsNative_afterNative (calls : ℕ) (outcome : Outcome) :
    (Phase.afterNative calls outcome).holdsNative = false := by
  cases outcome <;> rfl

/-- What an event can do: admit or refuse, move one calculation past no semaphore, or move it over
    one acquire or release. -/
inductive CapacityMove (s : ScienceState) : CapacityEvent → ScienceState → Prop where
  | submit (profile : Profile) : CapacityMove s (.submit profile) (s.submit profile)
  | quiet {e : CapacityEvent} {i : ℕ} {c c' : Calculation} (hc : s.calculations[i]? = some c)
      (htoken : c'.phase.holdsToken = c.phase.holdsToken)
      (hnative : c'.phase.holdsNative = c.phase.holdsNative) : CapacityMove s e (s.put i c')
  | giveBack {e : CapacityEvent} {i : ℕ} {c c' : Calculation} {outcome : Outcome}
      (hc : s.calculations[i]? = some c)
      (he : e = .scheduleRaises i ∧ c.phase = .submitting ∨
        e = .releaseCapacity i ∧ c.phase = .unwinding outcome)
      (hended : c'.phase = .ended outcome) : CapacityMove s e (s.giveBack i c')
  | enterNative {i calls : ℕ} {c : Calculation} (hc : s.calculations[i]? = some c)
      (hphase : c.phase = .running (calls + 1)) :
      CapacityMove s (.enterNative i) (s.enterNative i calls c)
  | leaveNative {i calls : ℕ} {c : Calculation} {outcome : Outcome}
      (hc : s.calculations[i]? = some c) (hphase : c.phase = .native calls) :
      CapacityMove s (.leaveNative i outcome)
        (s.leaveNative i { c with phase := .afterNative calls outcome })

theorem capacityStep_cases {s s' : ScienceState} {e : CapacityEvent}
    (h : capacityStep s e = some s') : CapacityMove s e s' := by
  cases e with
  | submit profile =>
      cases h
      exact .submit profile
  | scheduleRaises i =>
      simp only [capacityStep, Option.bind_eq_bind, Option.bind_eq_some_iff] at h
      obtain ⟨c, hc, h⟩ := h
      split at h
      · next hphase =>
          cases h
          exact .giveBack hc (.inl ⟨rfl, hphase⟩) rfl
      · cases h
  | enterNative i =>
      simp only [capacityStep, Option.bind_eq_bind, Option.bind_eq_some_iff] at h
      obtain ⟨c, hc, h⟩ := h
      split at h
      · next hphase =>
          cases h
          exact .enterNative hc hphase
      · cases h
  | leaveNative i outcome =>
      simp only [capacityStep, Option.bind_eq_bind, Option.bind_eq_some_iff] at h
      obtain ⟨c, hc, h⟩ := h
      split at h
      · next hphase =>
          cases h
          exact .leaveNative hc hphase
      · cases h
  | releaseCapacity i =>
      simp only [capacityStep, Option.bind_eq_bind, Option.bind_eq_some_iff] at h
      obtain ⟨c, hc, h⟩ := h
      split at h
      · next hphase =>
          cases h
          exact .giveBack hc (.inr ⟨rfl, hphase⟩) rfl
      · cases h
  -- the other events pass no semaphore: the new phase holds what the old one held
  | schedule i | start i | finish i outcome | leave i | answer i =>
      simp only [capacityStep, Option.bind_eq_bind, Option.bind_eq_some_iff] at h
      obtain ⟨c, hc, h⟩ := h
      split at h <;> cases h <;>
        exact .quiet hc (by simp_all [Phase.holdsToken]) (by simp_all [Phase.holdsNative])

/-! ## Both accounts, along every run -/

/-- Every token of both semaphores is free or held by one calculation, and nothing went wrong. -/
structure CapacityInv (s : ScienceState) : Prop where
  tokens : Accounts s.capacity s.calculations (·.phase.holdsToken)
  natives : Accounts s.nativeCapacity s.calculations (·.phase.holdsNative)
  faultless : s.faults = []

theorem CapacityInv.ready : CapacityInv .ready := ⟨rfl, rfl, rfl⟩

namespace CapacityInv

variable {s : ScienceState} {i : ℕ} {c c' : Calculation}

theorem submit (h : CapacityInv s) (profile : Profile) : CapacityInv (s.submit profile) := by
  rcases hacquire : s.capacity.tryAcquire with _ | capacity
  · simp only [ScienceState.submit, hacquire]
    exact ⟨h.tokens.snoc_of_not rfl, h.natives.snoc_of_not rfl, h.faultless⟩
  · simp only [ScienceState.submit, hacquire]
    exact ⟨h.tokens.snoc_of_tryAcquire rfl hacquire, h.natives.snoc_of_not rfl, h.faultless⟩

theorem put (h : CapacityInv s) (hc : s.calculations[i]? = some c)
    (htoken : c'.phase.holdsToken = c.phase.holdsToken)
    (hnative : c'.phase.holdsNative = c.phase.holdsNative) : CapacityInv (s.put i c') :=
  ⟨h.tokens.set_of_eq hc htoken, h.natives.set_of_eq hc hnative, h.faultless⟩

/-- A calculation that holds its token can give it back. -/
theorem giveBack_eq (h : CapacityInv s) (hc : s.calculations[i]? = some c)
    (hheld : c.phase.holdsToken = true) :
    ∃ capacity, s.capacity.release = some capacity ∧
      s.giveBack i c' = { s.put i c' with capacity } := by
  obtain ⟨capacity, hrelease⟩ := h.tokens.release_of_held hc hheld
  exact ⟨capacity, hrelease, by simp only [ScienceState.giveBack, hrelease]⟩

theorem giveBack (h : CapacityInv s) (hc : s.calculations[i]? = some c)
    (hheld : c.phase.holdsToken = true) (hnative : c.phase.holdsNative = false)
    {outcome : Outcome} (hended : c'.phase = .ended outcome) : CapacityInv (s.giveBack i c') := by
  obtain ⟨capacity, hrelease, heq⟩ : ∃ capacity, s.capacity.release = some capacity ∧
      s.giveBack i c' = { s.put i c' with capacity } := h.giveBack_eq hc hheld
  rw [heq]
  refine ⟨h.tokens.set_of_release hc hheld ?_ hrelease, h.natives.set_of_eq hc ?_, h.faultless⟩
  · simp [hended, Phase.holdsToken]
  · show c'.phase.holdsNative = c.phase.holdsNative
    rw [hended, hnative]
    rfl

/-- An admitted calculation finds a native slot: those inside hold a token each, and so does it. -/
theorem enterNative_eq (h : CapacityInv s) (hc : s.calculations[i]? = some c) {calls : ℕ}
    (hphase : c.phase = .running (calls + 1)) :
    ∃ nativeCapacity, s.nativeCapacity.tryAcquire = some nativeCapacity ∧
      s.enterNative i calls c =
        { s.put i { c with phase := .native calls } with nativeCapacity } := by
  obtain ⟨nativeCapacity, hacquire⟩ := h.natives.tryAcquire_of_nested h.tokens
    (fun _ => Phase.holdsToken_of_holdsNative) hc (by simp [hphase, Phase.holdsToken])
    (by simp [hphase, Phase.holdsNative])
  exact ⟨nativeCapacity, hacquire, by simp only [ScienceState.enterNative, hacquire]⟩

theorem enterNative (h : CapacityInv s) (hc : s.calculations[i]? = some c) {calls : ℕ}
    (hphase : c.phase = .running (calls + 1)) : CapacityInv (s.enterNative i calls c) := by
  obtain ⟨nativeCapacity, hacquire, heq⟩ := h.enterNative_eq hc hphase
  rw [heq]
  refine ⟨h.tokens.set_of_eq hc ?_, h.natives.set_of_tryAcquire hc ?_ rfl hacquire, h.faultless⟩
  · simp [hphase, Phase.holdsToken]
  · simp [hphase, Phase.holdsNative]

theorem leaveNative (h : CapacityInv s) (hc : s.calculations[i]? = some c) {calls : ℕ}
    (hphase : c.phase = .native calls) (outcome : Outcome) :
    CapacityInv (s.leaveNative i { c with phase := .afterNative calls outcome }) := by
  have hheld : c.phase.holdsNative = true := by rw [hphase]; rfl
  obtain ⟨nativeCapacity, hrelease⟩ := h.natives.release_of_held hc hheld
  simp only [ScienceState.leaveNative, hrelease]
  refine ⟨h.tokens.set_of_eq hc ?_, h.natives.set_of_release hc hheld ?_ hrelease, h.faultless⟩
  · show (Phase.afterNative calls outcome).holdsToken = c.phase.holdsToken
    rw [Phase.holdsToken_afterNative, hphase]
    rfl
  · simp

end CapacityInv

theorem capacityStep_inv {s s' : ScienceState} {e : CapacityEvent}
    (h : capacityStep s e = some s') (hinv : CapacityInv s) : CapacityInv s' := by
  cases capacityStep_cases h with
  | submit profile => exact hinv.submit profile
  | quiet hc htoken hnative => exact hinv.put hc htoken hnative
  | giveBack hc he hended =>
      rcases he with ⟨-, hphase⟩ | ⟨-, hphase⟩
      · exact hinv.giveBack hc (by rw [hphase]; rfl) (by rw [hphase]; rfl) hended
      · exact hinv.giveBack hc (by rw [hphase]; rfl) (by rw [hphase]; rfl) hended
  | enterNative hc hphase => exact hinv.enterNative hc hphase
  | leaveNative hc hphase => exact hinv.leaveNative hc hphase _

theorem reachable_capacityInv {s : ScienceState} (h : Reachable capacityStep .ready s) :
    CapacityInv s :=
  h.invariant .ready fun _ _ _ hstep => capacityStep_inv hstep

/-- A waiter that goes takes nothing with it. -/
theorem capacityStep_leave {s s' : ScienceState} {i : ℕ}
    (h : capacityStep s (.leave i) = some s') :
    s'.capacity = s.capacity ∧ s'.nativeCapacity = s.nativeCapacity ∧
      s'.calculations.map (·.phase) = s.calculations.map (·.phase) := by
  simp only [capacityStep, Option.bind_eq_bind, Option.bind_eq_some_iff] at h
  obtain ⟨c, hc, h⟩ := h
  split at h <;> cases h
  obtain ⟨hi, rfl⟩ := List.getElem?_eq_some_iff.mp hc
  refine ⟨rfl, rfl, ?_⟩
  show (s.calculations.set i _).map (·.phase) = _
  conv_rhs => rw [← List.set_getElem_self hi]
  rw [List.map_set, List.map_set]

/-- A token comes back only with the release of the calculation that holds it. -/
theorem capacityStep_of_lt {s s' : ScienceState} {e : CapacityEvent}
    (h : capacityStep s e = some s') (hlt : s.capacity.value < s'.capacity.value) :
    ∃ i c c' outcome, s.calculations[i]? = some c ∧
      (e = .scheduleRaises i ∧ c.phase = .submitting ∨
        e = .releaseCapacity i ∧ c.phase = .unwinding outcome) ∧
      s'.calculations = s.calculations.set i c' ∧ c'.phase = .ended outcome := by
  cases capacityStep_cases h with
  -- a submission takes a token or fails to: the value does not grow
  | submit profile =>
      exfalso
      rcases hacquire : s.capacity.tryAcquire with _ | capacity
      · simp [ScienceState.submit, hacquire] at hlt
      · simp only [ScienceState.submit, hacquire] at hlt
        have := BoundedSemaphore.value_of_tryAcquire hacquire
        omega
  | quiet hc htoken hnative => exact absurd hlt (lt_irrefl _)
  | @giveBack _ i c c' outcome hc he hended =>
      refine ⟨i, c, c', outcome, hc, he, ?_, hended⟩
      unfold ScienceState.giveBack
      split <;> rfl
  | @enterNative i calls c hc hphase =>
      have heq : (s.enterNative i calls c).capacity = s.capacity := by
        unfold ScienceState.enterNative
        split <;> rfl
      rw [heq] at hlt
      exact absurd hlt (lt_irrefl _)
  | @leaveNative i calls c outcome hc hphase =>
      have heq : (s.leaveNative i { c with phase := .afterNative calls outcome }).capacity =
          s.capacity := by
        unfold ScienceState.leaveNative
        split <;> rfl
      rw [heq] at hlt
      exact absurd hlt (lt_irrefl _)

/-- Free tokens and calculations queued or running make up 2 in every reachable state (a calculation
    counts from its acquire on; where no submission is between its acquire and the executor, all of
    them are in the executor). No semaphore is released past its bound and no native call is
    refused. A waiter that goes frees nothing, and only the end of a calculation's own work frees
    its token. -/
theorem capacity_conserved {s : ScienceState} (h : Reachable capacityStep .ready s) :
    s.capacity.value + s.calculations.countP (·.phase.holdsToken) = 2 ∧
      ((∀ c ∈ s.calculations, c.phase ≠ .submitting) →
        s.capacity.value + s.calculations.countP (·.phase.queuedOrRunning) = 2) ∧
      s.faults = [] ∧
      (∀ i c calls, s.calculations[i]? = some c → c.phase = .running (calls + 1) →
        ∃ s', capacityStep s (.enterNative i) = some s' ∧
          s'.calculations = s.calculations.set i { c with phase := .native calls }) ∧
      (∀ i s', capacityStep s (.leave i) = some s' →
        s'.capacity = s.capacity ∧ s'.nativeCapacity = s.nativeCapacity ∧
          s'.calculations.map (·.phase) = s.calculations.map (·.phase)) ∧
      ∀ e s', capacityStep s e = some s' → s.capacity.value < s'.capacity.value →
        ∃ i c c' outcome, s.calculations[i]? = some c ∧
          (e = .scheduleRaises i ∧ c.phase = .submitting ∨
            e = .releaseCapacity i ∧ c.phase = .unwinding outcome) ∧
          s'.calculations = s.calculations.set i c' ∧ c'.phase = .ended outcome := by
  have hinv := reachable_capacityInv h
  refine ⟨hinv.tokens, fun hnone => ?_, hinv.faultless, fun i c calls hc hphase => ?_,
    fun i s' hleave => capacityStep_leave hleave, fun e s' hstep hlt => capacityStep_of_lt hstep hlt⟩
  -- with no one submitting, the holders are those queued or running
  · have hcount : s.calculations.countP (·.phase.queuedOrRunning) =
        s.calculations.countP (·.phase.holdsToken) := by
      refine List.countP_congr fun c hmem => ?_
      rw [Phase.queuedOrRunning_eq_holdsToken (hnone c hmem)]
    rw [hcount]
    exact hinv.tokens
  · obtain ⟨nativeCapacity, -, heq⟩ := hinv.enterNative_eq hc hphase
    refine ⟨s.enterNative i calls c, ?_, by rw [heq]; rfl⟩
    simp only [capacityStep, Option.bind_eq_bind, hc, Option.bind_some, hphase]

/-- A Lahiri calculation between its two native calls, its waiter gone, beside a queued one: no
    token is free and the second native call is granted. -/
theorem capacity_conserved_lahiri :
    ∃ s s', run capacityStep .ready
        [.submit .lahiri, .schedule 0, .start 0, .enterNative 0, .leave 0, .submit .tropical,
          .schedule 1, .leaveNative 0 .returned] = some s ∧
      s.capacity.value = 0 ∧ capacityStep s (.enterNative 0) = some s' ∧ s.faults = [] := by
  refine ⟨_, _, rfl, rfl, rfl, ?_⟩
  exact (capacity_conserved ⟨[.submit .lahiri, .schedule 0, .start 0, .enterNative 0, .leave 0,
    .submit .tropical, .schedule 1, .leaveNative 0 .returned], rfl⟩).2.2.1

end AstroPassport
