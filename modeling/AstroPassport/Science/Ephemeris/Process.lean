import AstroPassport.Lib.Binary64Arith
import AstroPassport.Lib.IsoText
import AstroPassport.Lib.Json.Line
import AstroPassport.Science.Ephemeris.Adapter
import AstroPassport.Science.Ephemeris.Worker

set_option autoImplicit false

/-! # The worker process

`ephemeris/worker.py` whole: `_library`, `run` and `main`. The native library is a parameter with a
state of its own, which every call may change; what a call raises is no `WorkerFailure`. Standard
input and output are texts, and so is every failure the process reports.

The library is looked at before it is used, the size and the digest of its binary and its version,
and so are its two data files. Every call of it goes through `nativeCall`, which threads its state,
and whatever comes back is checked in the order of the source, its length, its flags and that its
numbers are finite. The time scales are integer arithmetic on the calendar with one table of leap
seconds, which ends in 2016. `main` reads a request, runs it, and prints either the reading or the
category of its failure on one line; the resource limits that the process sets for itself have no
counterpart. -/

namespace AstroPassport

/-- What ends `main` instead of a result: a `WorkerFailure` with its text, or another exception. -/
inductive WorkerRaise where
  | failure (text : String)
  | other
  deriving DecidableEq

/-- A computation of the process, over the state of the native library. -/
abbrev Native (σ : Type) : Type → Type := StateT σ (Except WorkerRaise)

/-- `if p: raise WorkerFailure(text)`. -/
def refuseIf (p : Prop) [Decidable p] (text : String) : Except WorkerRaise Unit :=
  if p then .error (.failure text) else .ok ()

/-- What may raise an exception of another kind. -/
def WorkerRaise.attempt {α : Type} : Option α → Except WorkerRaise α
  | some a => .ok a
  | none => .error .other

/-- A call of the native library. -/
def nativeCall {σ α : Type} (x : StateT σ Option α) : Native σ α :=
  fun state => WorkerRaise.attempt (x.run state)

/-! ## The native library -/

/-- What `get_current_file_data` returns, the path as `Path` spells it. -/
structure FileData where
  path : String
  start : Binary64
  stop : Binary64
  generation : ℤ

/-- The module `swisseph`, as `run` uses it: its constants are those of `Worker`. A call that raises
    has no result. -/
structure Swe (σ : Type) where
  version : String
  setEphePath : String → StateT σ Option Unit
  setTidAcc : StateT σ Option Unit
  setDeltaTUserdef : StateT σ Option Unit
  julday : CivilDate → ℚ → StateT σ Option Binary64
  deltatEx : Binary64 → ℕ → StateT σ Option (Binary64 × String)
  setSidMode : StateT σ Option Unit
  calcAt : Binary64 → Body → ℕ → StateT σ Option (List Binary64 × ℤ × String)
  getAyanamsaEx : Binary64 → ℕ → StateT σ Option (ℤ × Binary64)
  getCurrentFileData : ℕ → StateT σ Option FileData
  close : StateT σ Option Unit

/-- The process: its platform, the file of the extension and the module it makes, `Path.cwd()`. -/
structure WorkerRuntime (σ : Type) where
  system : String
  machine : String
  implementation : String
  version : String
  pysweph : Option String
  origin : Option String
  read : String → Option ByteArray
  sha256 : ByteArray → String
  swisseph : Option (Swe σ)
  state : σ
  directory : String

namespace Worker

/-- `BINARY_SHA256`. -/
def binarySha256 : String := "2b3234b6678dfa5666c98e898c16ee7e8c6c8457100e293c24ce679cd4387764"

/-- `BINARY_SIZE`. -/
def binarySize : ℕ := 2391504

section Run

variable {σ : Type}

/-- `_library`. -/
def library (r : WorkerRuntime σ) : Except WorkerRaise (Swe σ) := do
  refuseIf (r.system ≠ "Linux" ∨ r.machine ≠ "x86_64" ∨ r.implementation ≠ "CPython" ∨
    r.version ≠ "3.12.14") "unsupported_runtime"
  let pysweph ← WorkerRaise.attempt r.pysweph
  refuseIf (pysweph ≠ "2.10.3.6") "unsupported_runtime"
  match r.origin with
  | none => .error (.failure "unsupported_runtime")
  | some origin => do
    let file ← WorkerRaise.attempt (r.read origin)
    let binary := file.extract 0 (binarySize + 1)
    refuseIf (binary.size ≠ binarySize ∨ r.sha256 binary ≠ binarySha256) "unsupported_runtime"
    let swe ← WorkerRaise.attempt r.swisseph
    refuseIf (swe.version ≠ "2.10.03") "unsupported_runtime"
    pure swe

/-- `delta`. -/
def delta (swe : Swe σ) (jd : Binary64) : Native σ Binary64 := do
  let (value, warning) ← nativeCall (swe.deltatEx jd flgSwieph)
  refuseIf (warning ≠ "" ∨ value.isFinite = false) "native_failure"
  pure value

/-! ## Time scales -/

/-- `LEAP_DATES`. -/
def leapDates : List String :=
  ["1972-06-30", "1972-12-31", "1973-12-31", "1974-12-31", "1975-12-31", "1976-12-31", "1977-12-31",
    "1978-12-31", "1979-12-31", "1981-06-30", "1982-06-30", "1983-06-30", "1985-06-30", "1987-12-31",
    "1989-12-31", "1990-12-31", "1992-06-30", "1993-06-30", "1994-06-30", "1995-12-31", "1997-06-30",
    "1998-12-31", "2005-12-31", "2008-12-31", "2012-06-30", "2015-06-30", "2016-12-31"]

/-- `leap_count`. -/
def leapCount (date : CivilDate) : ℕ :=
  leapDates.countP fun day =>
    match dateFromIso day.toList with
    | some d => decide (d.dayNumber < date.dayNumber)
    | none => false

/-- `hour`, with the rounding of every operation. -/
def clockHour (t : ClockTime) : ℚ :=
  floatAdd (floatAdd t.hour (roundRat (t.minute / 60)))
    (roundRat (floatAdd t.second (roundRat (t.microsecond / 10 ^ 6)) / 3600))

/-- `(10 + leap_count + 32.184) / 86400`. -/
def terrestrialOffset (date : CivilDate) : Binary64 :=
  .ofRat (floatAdd (10 + leapCount date : ℕ) (roundRat (32184 / 1000)) / 86400)

/-- The loop that finds `jd_ut1`. -/
def universal (swe : Swe σ) (jdTt : Binary64) : ℕ → Binary64 → Native σ Binary64
  | 0, jdUt1 => pure jdUt1
  | turns + 1, jdUt1 => do
    let d ← delta swe jdUt1
    universal swe jdTt turns (jdTt.sub d)

theorem midnight_isSome : (ClockTime.mk? 0 0 0 0).isSome = true := by decide

/-- `dt.datetime(2017, 1, 1)`. -/
def frozenFrom : NaiveDateTime := ⟨.of 2017 1 1 (by decide), .of 0 0 0 0 midnight_isSome⟩

/-- `jd_tt`, `jd_ut1` and `limitations`. -/
def timeScales (swe : Swe σ) (utc : NaiveDateTime) :
    Native σ ((Binary64 × Binary64) × List String) := do
  let jdClock ← nativeCall (swe.julday utc.date (clockHour utc.time))
  let limitations := ["modelled-ut1-not-measured-earth-orientation"]
  if utc.date.year < 1972 then
    let d ← delta swe jdClock
    pure ((jdClock.add d, jdClock), limitations ++ ["pre1972-proleptic-utc-used-as-ut1-proxy"])
  else
    let jdTt := jdClock.add (terrestrialOffset utc.date)
    let jdUt1 ← universal swe jdTt 4 jdClock
    pure ((jdTt, jdUt1), limitations ++
      if frozenFrom.micros ≤ utc.micros then
        ["leap-table-frozen-after-2016-not-a-future-prediction"] else [])

/-! ## Positions -/

/-- `values[0]` of six finite numbers. -/
def firstOfSix (values : List Binary64) (warning : String) : Except WorkerRaise Finite64 :=
  match values with
  | .finite x :: rest =>
    if warning ≠ "" ∨ rest.length ≠ 5 ∨ rest.all Binary64.isFinite = false then
      .error (.failure "native_failure")
    else .ok x
  | _ => .error (.failure "native_failure")

/-- One turn of the loop over the Sun and the Moon. -/
def position (swe : Swe σ) (jdTt : Binary64) (body : Body) : Native σ Finite64 := do
  let (values, flags, warning) ← nativeCall (swe.calcAt jdTt body flgSwieph)
  refuseIf (flags ≠ flgSwieph) "fallback_rejected"
  firstOfSix values warning

/-- `sidereal`: the two angles and the flags. -/
structure SiderealReading where
  moon : Finite64
  ayanamsha : Finite64
  requestedFlags : ℤ
  returnedFlags : ℤ
  ayanamshaFlags : ℤ

/-- The checks of the Lahiri branch, which are those of `lahiri`; its angles are kept as floats. -/
def acceptSidereal (tropical : Finite64) (values : List Binary64) (flags : ℤ) (warning : String)
    (ayaFlags : ℤ) (ayanamsha : Binary64) : Except WorkerRaise SiderealReading :=
  match lahiri roundRat tropical.value ⟨values.map Binary64.value?, flags, warning⟩
      ⟨ayaFlags, ayanamsha.value?⟩, values, ayanamsha with
  | .ok accepted, .finite moon :: _, .finite ayanamsha =>
    .ok ⟨moon, ayanamsha, accepted.requestedFlags, accepted.returnedFlags, accepted.ayanamshaFlags⟩
  | .error category, _, _ => .error (.failure (StageError.ephemeris category).value)
  | .ok _, _, _ => .error .other

/-- The Lahiri branch. -/
def sidereal (swe : Swe σ) (jdTt : Binary64) (tropical : Finite64) : Native σ SiderealReading := do
  nativeCall swe.setSidMode
  let (values, flags, warning) ← nativeCall (swe.calcAt jdTt .moon (flgSwieph ||| flgSidereal))
  let (ayaFlags, ayanamsha) ← nativeCall (swe.getAyanamsaEx jdTt flgSwieph)
  acceptSidereal tropical values flags warning ayaFlags ayanamsha

/-- `if lahiri:`. -/
def siderealIf (swe : Swe σ) (jdTt : Binary64) (tropical : Finite64) :
    Bool → Native σ (Option SiderealReading)
  | true => do
    let found ← sidereal swe jdTt tropical
    pure (some found)
  | false => pure none

/-- The file that an index of the library must have open. -/
def checkFile (swe : Swe σ) (directory : String) (jdTt : Binary64) (index : ℕ) (name : String) :
    Native σ Unit := do
  let data ← nativeCall (swe.getCurrentFileData index)
  refuseIf (data.path ≠ directory ++ "/" ++ name ∨ data.generation ≠ 441 ∨
    ¬(data.start.lt jdTt = true ∧ jdTt.lt data.stop = true)) "fallback_rejected"

/-! ## The result -/

/-- What `run` finds: the numbers whose texts are in its result. -/
structure Reading where
  positions : Finite64 × Finite64
  jdTt : Binary64
  jdUt1 : Binary64
  limitations : List String
  sidereal : Option SiderealReading

/-- What `run` does before it looks at `lahiri`. -/
def tropical (swe : Swe σ) (directory : String) (utc : NaiveDateTime) :
    Native σ ((Finite64 × Finite64) × (Binary64 × Binary64) × List String) := do
  nativeCall (swe.setEphePath directory)
  nativeCall swe.setTidAcc
  nativeCall swe.setDeltaTUserdef
  let (jd, limitations) ← timeScales swe utc
  let sun ← position swe jd.1 .sun
  let moon ← position swe jd.1 .moon
  pure ((sun, moon), jd, limitations)

/-- What `run` does with the library. -/
def reading (swe : Swe σ) (directory : String) (utc : NaiveDateTime) (lahiri : Bool) :
    Native σ Reading := do
  let (positions, jd, limitations) ← tropical swe directory utc
  let sidereal ← siderealIf swe jd.1 positions.2 lahiri
  checkFile swe directory jd.1 0 "sepl_18.se1"
  checkFile swe directory jd.1 1 "semo_18.se1"
  nativeCall swe.close
  pure ⟨positions, jd.1, jd.2, limitations, sidereal⟩

/-- `run`. -/
def run (r : WorkerRuntime σ) (utc : NaiveDateTime) (lahiri : Bool) : Except WorkerRaise Reading := do
  let swe ← library r
  let (result, _) ← reading swe r.directory utc lahiri r.state
  pure result

end Run

/-- A text of the result. -/
def textOf (s : String) : PlainJson := .str s.toList

/-- `sidereal` as the process prints it. -/
def SiderealReading.members (s : SiderealReading) : List (List Char × PlainJson) :=
  [("moon_binary64".toList, .str s.moon.hex), ("ayanamsha_binary64".toList, .str s.ayanamsha.hex),
    ("requested_flags".toList, .int s.requestedFlags),
    ("returned_flags".toList, .int s.returnedFlags),
    ("ayanamsha_flags".toList, .int s.ayanamshaFlags)]

/-- `result`. -/
def Reading.members (r : Reading) : List (List Char × PlainJson) :=
  [("positions".toList, .arr [.str r.positions.1.hex, .str r.positions.2.hex]),
    ("jd_tt_hex".toList, .str r.jdTt.hex), ("jd_ut1_hex".toList, .str r.jdUt1.hex),
    ("limitations".toList, .arr (r.limitations.map textOf))] ++
  match r.sidereal with
  | some s => [("lahiri".toList, .obj s.members)]
  | none => []

/-! ## The process -/

/-- `"lahiri" not in raw or raw["lahiri"] is True`. -/
def trueOrAbsent : Option PyValue → Bool
  | none => true
  | some (.bool true) => true
  | _ => false

/-- What `main` makes of the text it read: the instant and whether `lahiri` is asked for. -/
def readRequest (fromIsoFormat : List CodePoint → Option PyDateTime) (text : List Char) :
    Except WorkerRaise (NaiveDateTime × Bool) := do
  let raw ← WorkerRaise.attempt ((parseDoc text).map pyDecode)
  match raw with
  | .dict ms =>
    match ms.lookup (pyKey "utc") with
    | some (.str s) =>
      let utc ← WorkerRaise.attempt (fromIsoFormat s)
      let lahiri := ms.lookup (pyKey "lahiri")
      refuseIf (utc.utcoffset ≠ some 0 ∨
        ¬(hasKeys ms ["utc"] = true ∨ hasKeys ms ["utc", "lahiri"] = true) ∨
        trueOrAbsent lahiri = false) "invalid_input"
      pure (utc.naive, lahiri.isSome)
    | _ => .error .other
  | _ => .error .other

/-- The line `main` prints. -/
def printed : Except WorkerRaise Reading → List Char
  | .ok reading => (PlainJson.obj reading.members).print
  | .error (.failure text) => printSpaced [("error".toList, textOf text)]
  | .error .other => (PlainJson.obj [("error".toList, textOf "native_failure")]).print

/-- `main`, from what `sys.stdin.read(257)` finds to what is on standard output. -/
def main {σ : Type} (r : WorkerRuntime σ) (fromIsoFormat : List CodePoint → Option PyDateTime)
    (stdin : List Char) : List Char :=
  printed (do
    let (utc, lahiri) ← readRequest fromIsoFormat (stdin.take 257)
    run r utc lahiri) ++ ['\n']

end Worker

end AstroPassport
