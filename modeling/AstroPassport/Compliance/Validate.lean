import AstroPassport.Lib.Digits
import AstroPassport.Lib.Worklist

set_option autoImplicit false

/-! # The compliance gate

`validate` of `compliance/validate.py` and `checked` of `compliance/bundle.py`. The committed
records are typed: a member every record has is a field, one that may be missing is an `Option`, and
reading a missing one is a `KeyError`. What the functions do not read is left out. SHA-256,
`urlsplit` and `json.dumps` of the source lock are parameters.

The gate is a sequence of checks that either pass or raise, written in the order of the source: the
notices, the source lock against the report, every artifact by `checked`, the seed, the packages of
the base image and their copyrights, and last the runtime closure. The closure is a worklist over
the names of `uv.lock` that starts at `astro-passport`, takes the first entry of a name, and asks
for a wheel and a source of each. It is given fuel; a name is handled once, so that one turn more
than there are names is enough, and the module on coverage proves it. -/

namespace AstroPassport

namespace Compliance

/-! ## The records -/

/-- An artifact of `source-lock.json`. -/
structure Artifact where
  name : String
  component : String
  url : String
  sha256 : String
  bytes : ℤ
  sourcePackage : Option String
  sourceVersion : Option String
  deriving DecidableEq

/-- `source-lock.json`. -/
structure SourceLock where
  schema : String
  failures : List String
  artifacts : List Artifact
  deriving DecidableEq

/-- A crate of `rust_crates`. -/
structure RustCrate where
  notices : List String
  license : String
  deriving DecidableEq

/-- An item of `debian_sources`. -/
structure DebianSource where
  package : String
  version : String
  deriving DecidableEq

/-- `correspondence.json`; of `native_lineage` the wheel digests. -/
structure Correspondence where
  sourceLockSha256 : String
  artifactCount : ℤ
  debianSources : List DebianSource
  rustCrates : List RustCrate
  swissSourceEqual : List String
  nativeLineage : List String
  deriving DecidableEq

/-- A package of `base-image.json`. -/
structure BasePackage where
  package : String
  sourcePackage : String
  sourceVersion : String
  deriving DecidableEq

/-- A copyright file of the base image under its path. -/
structure Copyright where
  path : String
  text : String
  sha256 : String
  deriving DecidableEq

/-- `base-image.json`. -/
structure BaseImage where
  image : String
  architecture : String
  packages : List BasePackage
  pythonDistributions : List (List String)
  copyrights : List Copyright
  deriving DecidableEq

/-- An artifact of `discovery-inputs.json`; some have no digest there. -/
structure SeedArtifact where
  name : String
  url : String
  sha256 : Option String
  deriving DecidableEq

/-- `discovery-inputs.json`. -/
structure DiscoveryInputs where
  baseImage : String
  artifacts : List SeedArtifact
  deriving DecidableEq

/-- A notice of `native-notices.json`. -/
structure NativeNotice where
  origins : List String
  text : String
  sha256 : String
  deriving DecidableEq

/-- An item of `dependencies`; the version is there when the lock holds several of the name. -/
structure Dependency where
  name : String
  version : Option String
  deriving DecidableEq

/-- An item of `wheels`. -/
structure LockedWheel where
  hash : Option String
  deriving DecidableEq

/-- A package entry of `uv.lock`. -/
structure Package where
  name : String
  version : Option String
  dependencies : Option (List Dependency)
  wheels : Option (List LockedWheel)
  deriving DecidableEq

/-- What `validate` reads under its root. -/
structure Records where
  lock : SourceLock
  report : Correspondence
  base : BaseImage
  seed : DiscoveryInputs
  notices : List NativeNotice
  docker : String
  packages : List Package

/-! ## The library -/

/-- What `urlsplit` returns. -/
structure UrlParts where
  scheme : String
  hostname : Option String
  username : Option String
  password : Option String
  query : String
  fragment : String

/-- What the standard library computes; `urlsplit` raises a `ValueError` with a message. -/
structure StandardLib where
  sha256Hex : String → String
  urlsplit : String → Except String UrlParts
  dumps : SourceLock → String

/-- What `validate` raises; `unfinished` is no exception, but a worklist out of fuel. -/
inductive ValidateRaise where
  | valueError (message : String)
  | keyError (key : String)
  | stopIteration
  | unfinished
  deriving DecidableEq

/-- `if p: raise ValueError(message)`. -/
def refuseIf (p : Prop) [Decidable p] (message : String) : Except ValidateRaise Unit :=
  if p then .error (.valueError message) else .ok ()

@[simp]
theorem refuseIf_eq_ok {p : Prop} [Decidable p] {message : String} {u : Unit} :
    refuseIf p message = .ok u ↔ ¬p := by
  unfold refuseIf
  split_ifs with h <;> simp [h]

/-- `record[key]` of a member that may be missing. -/
def required {α : Type} (key : String) : Option α → Except ValidateRaise α
  | some value => .ok value
  | none => .error (.keyError key)

@[simp]
theorem required_eq_ok {α : Type} {key : String} {x : Option α} {value : α} :
    required key x = .ok value ↔ x = some value := by
  cases x <;> simp [required]

/-- A text is true unless it is empty. -/
def truthy (x : Option String) : Bool := x.any fun s => s ≠ ""

/-- `MAX_BYTES`. -/
def maxBytes : ℤ := 1024 * 1024 * 1024

/-- `checked`. -/
def checked (lib : StandardLib) (entry : Artifact) : Except ValidateRaise (String × String × ℤ) := do
  refuseIf (isDigest entry.sha256 = false) "invalid content identity"
  let parsed ← (lib.urlsplit entry.url).mapError .valueError
  refuseIf (parsed.scheme ≠ "https" ∨ truthy parsed.hostname = false ∨
    truthy parsed.username = true ∨ truthy parsed.password = true)
    "source must be public credential-free HTTPS"
  refuseIf (parsed.query ≠ "" ∨ parsed.fragment ≠ "" ∨ ¬(0 < entry.bytes ∧ entry.bytes ≤ maxBytes))
    "invalid source size or URL"
  pure (entry.sha256, entry.url, entry.bytes)

/-! ## The records against each other -/

/-- The loop over `native-notices.json`. -/
def checkNotice (lib : StandardLib) (notice : NativeNotice) : Except ValidateRaise Unit :=
  refuseIf (notice.origins = [] ∨ lib.sha256Hex notice.text ≠ notice.sha256)
    "native licence notice corrupted"

/-- The loop over the artifacts of `discovery-inputs.json`. -/
def checkSeed (entries : List Artifact) (entry : SeedArtifact) : Except ValidateRaise Unit :=
  match entries.find? fun e => e.name = entry.name with
  | none => .error (.valueError "seed artifact absent")
  | some selected =>
    refuseIf (selected.url ≠ entry.url ∨ entry.sha256.any fun digest => selected.sha256 ≠ digest)
      "seed identity mismatch"

/-- `{(e["source_package"], e["source_version"]) for e in entries if "source_package" in e}`. -/
def sourcesOf (entries : List Artifact) : Except ValidateRaise (List (String × String)) :=
  (entries.filterMap fun e => e.sourcePackage.map fun package => (package, e.sourceVersion)).mapM
    fun source => do
      let version ← required "source_version" source.2
      pure (source.1, version)

/-- The loop over `copyrights` of `base-image.json`. -/
def checkCopyright (lib : StandardLib) (notice : Copyright) : Except ValidateRaise Unit :=
  refuseIf ("/usr/share/doc/".toList.isPrefixOf notice.path.toList = false ∨
    lib.sha256Hex notice.text ≠ notice.sha256) "notice content mismatch"

/-- The copyright file of a base package. -/
def copyrightPath (package : BasePackage) : String :=
  "/usr/share/doc/" ++ String.ofList (package.package.toList.takeWhile (· ≠ ':')) ++ "/copyright"

/-- Occurrences that do not overlap; `skip` characters belong to the one before. -/
def countFrom (needle : List Char) : ℕ → List Char → ℕ
  | _, [] => 0
  | skip + 1, _ :: cs => countFrom needle skip cs
  | 0, c :: cs =>
    if needle.isPrefixOf (c :: cs) then countFrom needle (needle.length - 1) cs + 1
    else countFrom needle 0 cs

/-- `text.count(needle)`. -/
def pyCount (text needle : String) : ℕ :=
  if needle = "" then text.length + 1 else countFrom needle.toList 0 text.toList

/-- The checks of `validate` before `uv.lock` is read. -/
def checkRecords (lib : StandardLib) (r : Records) : Except ValidateRaise Unit := do
  let entries := r.lock.artifacts
  refuseIf (r.notices = []) "native notices absent"
  r.notices.forM (checkNotice lib)
  refuseIf (r.lock.failures ≠ [] ∨ r.lock.schema ≠ "apt-runtime-source-lock.v1")
    "unresolved source acquisition"
  refuseIf (r.report.sourceLockSha256 ≠ lib.sha256Hex (lib.dumps r.lock))
    "correspondence report is stale"
  refuseIf (¬(entries.map Artifact.name).Nodup ∨ r.report.artifactCount ≠ entries.length)
    "source coverage mismatch"
  entries.forM fun entry => do
    let _ ← checked lib entry
    pure ()
  r.seed.artifacts.forM (checkSeed entries)
  let sources ← sourcesOf entries
  let installed := r.base.packages.map fun p => (p.sourcePackage, p.sourceVersion)
  let proved := r.report.debianSources.map fun p => (p.package, p.version)
  refuseIf (¬(sources ⊆ installed ∧ installed ⊆ sources) ∨
    ¬(proved ⊆ sources ∧ sources ⊆ proved)) "OS/source correspondence incomplete"
  refuseIf (r.base.image ≠ r.seed.baseImage ∨ r.base.architecture ≠ "amd64") "base image changed"
  refuseIf (r.base.pythonDistributions ≠ [["pip", "25.0.1"]])
    "unaccounted base Python distribution"
  r.base.copyrights.forM (checkCopyright lib)
  r.base.packages.forM fun package =>
    refuseIf (copyrightPath package ∉ r.base.copyrights.map Copyright.path)
      "missing base package notice"
  refuseIf (pyCount r.docker r.seed.baseImage ≠ 2) "Docker base identity changed"

/-! ## The runtime closure -/

/-- The dependencies of the first entry of a name. -/
def dependencyNames (packages : List Package) (name : String) :
    Except ValidateRaise (List String) :=
  match packages.find? fun p => p.name = name with
  | none => .error .stopIteration
  | some package => .ok ((package.dependencies.getD []).map Dependency.name)

/-- `{p["name"] for p in packages if p["name"] == "astro-passport"}`. -/
def runtimeRoots (packages : List Package) : List String :=
  if packages.any fun p => p.name = "astro-passport" then ["astro-passport"] else []

/-- `runtime`, after at most `fuel` turns of the loop. -/
def runtimeNames (packages : List Package) (fuel : ℕ) : Except ValidateRaise (List String) :=
  Worklist.exhaust (dependencyNames packages) .unfinished fuel
    ⟨runtimeRoots packages, runtimeRoots packages⟩

/-- `name.endswith(".whl")`. -/
def Artifact.isWheel (e : Artifact) : Bool := ".whl".toList.isSuffixOf e.name.toList

/-- `name.endswith(".tar.gz")`. -/
def Artifact.isSource (e : Artifact) : Bool := ".tar.gz".toList.isSuffixOf e.name.toList

/-- `{w["hash"] for w in package["wheels"]}`. -/
def wheelHashes (package : Package) : Except ValidateRaise (List String) := do
  let wheels ← required "wheels" package.wheels
  wheels.mapM fun w => required "hash" w.hash

/-- `f"{name}={version}"`. -/
def componentOf (name version : String) : String := name ++ "=" ++ version

/-- A wheel is one that `uv.lock` has for its package. -/
def checkWheel (package : Package) (entry : Artifact) : Except ValidateRaise Unit :=
  if entry.isWheel then do
    let hashes ← wheelHashes package
    refuseIf ("sha256:" ++ entry.sha256 ∉ hashes) "runtime wheel differs from uv lock"
  else .ok ()

/-- One turn of the loop over the package entries. -/
def checkPackage (entries : List Artifact) (runtime : List String) (package : Package) :
    Except ValidateRaise Unit :=
  if package.name ∈ runtime ∧ package.name ≠ "astro-passport" then do
    let version ← required "version" package.version
    let rows := entries.filter fun e => e.component = componentOf package.name version
    refuseIf (rows.any Artifact.isWheel = false ∨ rows.any Artifact.isSource = false)
      "runtime wheel/source missing"
    rows.forM (checkWheel package)
  else .ok ()

/-- The checks of `validate` on `uv.lock`. -/
def checkRuntime (packages : List Package) (entries : List Artifact) (fuel : ℕ) :
    Except ValidateRaise Unit := do
  let runtime ← runtimeNames packages fuel
  packages.forM (checkPackage entries runtime)

/-! ## The gate -/

/-- The checks of `validate` on the native inventory. -/
def checkNative (report : Correspondence) : Except ValidateRaise Unit := do
  report.rustCrates.forM fun crate =>
    refuseIf (crate.notices = [] ∨ crate.license = "") "missing Rust notice"
  refuseIf (report.rustCrates.length ≠ 103 ∨ report.swissSourceEqual.length ≠ 27)
    "native source inventory changed"
  report.nativeLineage.forM fun wheelSha256 =>
    refuseIf (isDigest wheelSha256 = false) "native image identity missing"

/-- `validate`, whose worklist may take `fuel` turns. -/
def validate (lib : StandardLib) (fuel : ℕ) (r : Records) : Except ValidateRaise Unit := do
  checkRecords lib r
  checkRuntime r.packages r.lock.artifacts fuel
  checkNative r.report

/-- `validate` returns. -/
def Passes (lib : StandardLib) (r : Records) : Prop := ∃ fuel, validate lib fuel r = .ok ()

end Compliance

end AstroPassport
