import AstroPassport.Compliance.Validate

set_option autoImplicit false

/-! # What the compliance gate covers

A package entry ships when it is reached from `astro-passport` through `dependencies` (`Shipped`).
The gate follows names, and of each name only the first entry (`Followed`). Where that reaches the
name of every entry that ships, the gate covers them all; where it does not, some source lock passes
that leaves an entry out.

The loop of the gate is a worklist over names. It ends, because a name is only taken while it is
unseen, and what it has seen at the end are the names of the followed entries; both come from the
general worklist. For the other direction, take records that pass: the artifacts of a component that
nobody follows can be taken out of the source lock, with what goes along with them, and the records
still pass (`Records.without`). So the condition is not only enough but exact
(`validate_covers_iff`), and a lock with two entries named `shapely` does not meet it. -/

namespace AstroPassport

namespace Compliance

/-! ## The closure, and what the loop follows -/

/-- The entries a dependency stands for: those of its name, or of the version it gives. -/
def Dependency.Selects (d : Dependency) (e : Package) : Prop :=
  e.name = d.name ∧ (d.version = none ∨ e.version = d.version)

/-- The entries reached from `astro-passport` through `dependencies`. -/
inductive Shipped (packages : List Package) : Package → Prop where
  | root {e : Package} : e ∈ packages → e.name = "astro-passport" → Shipped packages e
  | step {e f : Package} {d : Dependency} : Shipped packages e →
      d ∈ e.dependencies.getD [] → f ∈ packages → d.Selects f → Shipped packages f

/-- The names reached when each name stands for its first entry. -/
inductive Followed (packages : List Package) : String → Prop where
  | root {e : Package} : e ∈ packages → e.name = "astro-passport" →
      Followed packages "astro-passport"
  | step {name : String} {e : Package} {d : Dependency} : Followed packages name →
      (packages.find? fun p => p.name = name) = some e → d ∈ e.dependencies.getD [] →
      Followed packages d.name

/-- The first entries lead to the name of every entry that ships. -/
def FirstEntriesSuffice (packages : List Package) : Prop :=
  ∀ e, Shipped packages e → Followed packages e.name

/-- Every dependency names an entry. -/
def DependenciesListed (packages : List Package) : Prop :=
  ∀ e ∈ packages, ∀ d ∈ e.dependencies.getD [], ∃ f ∈ packages, f.name = d.name

/-- A wheel and a source archive under the entry's component, each wheel with a digest of the
    entry. -/
structure Covered (artifacts : List Artifact) (e : Package) : Prop where
  component : ∃ version, e.version = some version ∧
    (∃ row ∈ artifacts, row.component = componentOf e.name version ∧ row.isWheel = true) ∧
    (∃ row ∈ artifacts, row.component = componentOf e.name version ∧ row.isSource = true) ∧
    ∀ row ∈ artifacts, row.component = componentOf e.name version → row.isWheel = true →
      ∃ wheels, e.wheels = some wheels ∧ ∃ w ∈ wheels, w.hash = some ("sha256:" ++ row.sha256)

theorem Shipped.mem {packages : List Package} {e : Package} (h : Shipped packages e) :
    e ∈ packages := by
  cases h with
  | root hmem _ => exact hmem
  | step _ _ hmem _ => exact hmem

/-- The name of an entry has a first entry. -/
theorem exists_first {packages : List Package} {e : Package} (he : e ∈ packages) :
    ∃ e' ∈ packages, (packages.find? fun p => p.name = e.name) = some e' ∧ e'.name = e.name := by
  have hsome : (packages.find? fun p => p.name = e.name).isSome = true := by
    rw [List.find?_isSome]
    exact ⟨e, he, decide_eq_true rfl⟩
  obtain ⟨e', he'⟩ := Option.isSome_iff_exists.mp hsome
  exact ⟨e', List.mem_of_find?_eq_some he', he', by simpa using List.find?_some he'⟩

/-- A name of its own for each entry is enough. -/
theorem firstEntriesSuffice_of_nodup {packages : List Package}
    (hnodup : (packages.map Package.name).Nodup) : FirstEntriesSuffice packages := by
  intro e h
  induction h with
  | root hmem hname =>
      rw [hname]
      exact .root hmem hname
  | @step e f d hship hd _ hsel ih =>
      rw [hsel.1]
      obtain ⟨e', hmem, hfirst, hname⟩ := exists_first hship.mem
      have heq : e' = e := List.inj_on_of_nodup_map hnodup hmem hship.mem hname
      exact .step ih (heq ▸ hfirst) hd

/-! ## The loop -/

theorem dependencyNames_eq_ok {packages : List Package} {name : String} {names : List String} :
    dependencyNames packages name = .ok names ↔
      ∃ e, (packages.find? fun p => p.name = name) = some e ∧
        (e.dependencies.getD []).map Dependency.name = names := by
  unfold dependencyNames
  split
  · next hnone => simp only [hnone, reduceCtorEq, false_and, exists_false]
  · next e he => simp only [he, Except.ok.injEq, Option.some.injEq, exists_eq_left']

theorem edge_dependencyNames {packages : List Package} {a b : String} :
    Worklist.Edge (dependencyNames packages) a b ↔
      ∃ e, (packages.find? fun p => p.name = a) = some e ∧
        ∃ d ∈ e.dependencies.getD [], d.name = b := by
  constructor
  · rintro ⟨names, hnames, hb⟩
    obtain ⟨e, he, rfl⟩ := dependencyNames_eq_ok.1 hnames
    exact ⟨e, he, List.mem_map.mp hb⟩
  · rintro ⟨e, he, hd⟩
    exact ⟨_, dependencyNames_eq_ok.2 ⟨e, he, rfl⟩, List.mem_map.mpr hd⟩

theorem mem_runtimeRoots {packages : List Package} {name : String} :
    name ∈ runtimeRoots packages ↔
      name = "astro-passport" ∧ ∃ e ∈ packages, e.name = "astro-passport" := by
  unfold runtimeRoots
  split_ifs with h
  · simp only [List.any_eq_true, decide_eq_true_eq] at h
    simp [h]
  · simp only [List.any_eq_true, decide_eq_true_eq] at h
    simp [h]

/-- `runtime` is the set of the names that are followed. -/
theorem mem_runtimeNames {packages : List Package} {fuel : ℕ} {names : List String}
    (h : runtimeNames packages fuel = .ok names) {name : String} :
    name ∈ names ↔ Followed packages name := by
  rw [Worklist.exhaust_mem_iff h]
  constructor
  · rintro ⟨r, hr, hpath⟩
    obtain ⟨rfl, e, he, hname⟩ := mem_runtimeRoots.1 hr
    induction hpath with
    | refl => exact .root he hname
    | tail _ hedge ih =>
        obtain ⟨p, hp, d, hd, rfl⟩ := edge_dependencyNames.1 hedge
        exact .step ih hp hd
  · intro hfollowed
    induction hfollowed with
    | root he hname => exact ⟨_, mem_runtimeRoots.2 ⟨rfl, _, he, hname⟩, .refl⟩
    | step _ hp hd ih =>
        obtain ⟨r, hr, hpath⟩ := ih
        exact ⟨r, hr, hpath.tail (edge_dependencyNames.2 ⟨_, hp, _, hd, rfl⟩)⟩

/-- The loop ends on every list whose dependencies are listed. -/
theorem runtimeNames_total {packages : List Package} (h : DependenciesListed packages) :
    ∃ names, ∀ fuel, packages.length + 1 ≤ fuel → runtimeNames packages fuel = .ok names := by
  set U := (packages.map Package.name).toFinset with hU
  have hmem (k : String) : k ∈ U ↔ ∃ e ∈ packages, e.name = k := by simp [hU]
  -- every dependency is the name of an entry, so the worklist stays inside the lock
  have hclosed : ∀ k ∈ U, ∀ ks, dependencyNames packages k = .ok ks → ∀ x ∈ ks, x ∈ U := by
    intro k _ ks hks x hx
    obtain ⟨e, he, rfl⟩ := dependencyNames_eq_ok.1 hks
    obtain ⟨d, hd, rfl⟩ := List.mem_map.mp hx
    exact (hmem _).mpr (h e (List.mem_of_find?_eq_some he) d hd)
  have hroots : ∀ k ∈ runtimeRoots packages, k ∈ U := by
    intro k hk
    obtain ⟨rfl, hentry⟩ := mem_runtimeRoots.1 hk
    exact (hmem _).mpr hentry
  -- one turn for each entry, and one for a root
  have hbound : Worklist.outstanding U ⟨runtimeRoots packages, runtimeRoots packages⟩ ≤
      packages.length + 1 := by
    have hcard : (U \ (runtimeRoots packages).toFinset).card ≤ packages.length :=
      calc (U \ (runtimeRoots packages).toFinset).card ≤ U.card :=
            Finset.card_le_card Finset.sdiff_subset
        _ ≤ (packages.map Package.name).length := List.toFinset_card_le _
        _ = packages.length := List.length_map _
    have hlength : (runtimeRoots packages).length ≤ 1 := by
      unfold runtimeRoots
      split_ifs <;> simp
    simp only [Worklist.outstanding]
    omega
  have htotal : (∃ names, runtimeNames packages (packages.length + 1) = .ok names) ∨
      ∃ k ∈ U, ∃ e, dependencyNames packages k = .error e ∧
        runtimeNames packages (packages.length + 1) = .error e :=
    Worklist.exhaust_total hclosed hroots hbound
  rcases htotal with ⟨names, hnames⟩ | ⟨k, hk, e, herror, -⟩
  · exact ⟨names, fun fuel hle => Worklist.exhaust_of_le hnames hle⟩
  · obtain ⟨p, hp, rfl⟩ := (hmem k).mp hk
    obtain ⟨p', -, hfirst, -⟩ := exists_first hp
    rw [dependencyNames, hfirst] at herror
    cases herror

/-! ## One package entry -/

theorem wheelHashes_eq_ok {package : Package} {hashes : List String} :
    wheelHashes package = .ok hashes ↔
      ∃ wheels, package.wheels = some wheels ∧
        wheels.mapM (fun w => required "hash" w.hash) = .ok hashes := by
  unfold wheelHashes
  rw [bind_eq_ok]
  simp only [required_eq_ok]

/-- A wheel that passes has one of the digests of its entry. -/
theorem digest_of_checkWheel {package : Package} {entry : Artifact} (hwheel : entry.isWheel = true)
    (h : checkWheel package entry = .ok ()) :
    ∃ wheels, package.wheels = some wheels ∧
      ∃ w ∈ wheels, w.hash = some ("sha256:" ++ entry.sha256) := by
  rw [checkWheel, if_pos hwheel, bind_eq_ok] at h
  obtain ⟨hashes, hhashes, hmem⟩ := h
  rw [refuseIf_eq_ok, not_not] at hmem
  obtain ⟨wheels, hwheels, hmap⟩ := wheelHashes_eq_ok.1 hhashes
  obtain ⟨w, hw, hhash⟩ := exists_of_forall₂ (mapM_eq_ok.1 hmap).flip _ hmem
  exact ⟨wheels, hwheels, w, hw, required_eq_ok.1 hhash⟩

/-- An entry that passes the loop under a name the loop has reached is covered. -/
theorem covered_of_checkPackage {entries : List Artifact} {runtime : List String}
    {package : Package} (hname : package.name ∈ runtime) (hother : package.name ≠ "astro-passport")
    (h : checkPackage entries runtime package = .ok ()) : Covered entries package := by
  rw [checkPackage, if_pos ⟨hname, hother⟩, bind_eq_ok] at h
  obtain ⟨version, hversion, h⟩ := h
  obtain ⟨_, hany, hrows⟩ := bind_eq_ok.1 h
  rw [refuseIf_eq_ok, not_or, Bool.not_eq_false, Bool.not_eq_false, List.any_eq_true,
    List.any_eq_true] at hany
  simp only [List.mem_filter, decide_eq_true_eq] at hany
  rw [forM_eq_ok] at hrows
  refine ⟨version, required_eq_ok.1 hversion, ?_, ?_, ?_⟩
  · obtain ⟨row, ⟨hrow, hcomponent⟩, hwheel⟩ := hany.1
    exact ⟨row, hrow, hcomponent, hwheel⟩
  · obtain ⟨row, ⟨hrow, hcomponent⟩, hsource⟩ := hany.2
    exact ⟨row, hrow, hcomponent, hsource⟩
  · intro row hrow hcomponent hwheel
    exact digest_of_checkWheel hwheel
      (hrows row (List.mem_filter.mpr ⟨hrow, decide_eq_true hcomponent⟩))

/-! ## The gate -/

theorem validate_eq_ok {lib : StandardLib} {fuel : ℕ} {r : Records} :
    validate lib fuel r = .ok () ↔
      checkRecords lib r = .ok () ∧ checkRuntime r.packages r.lock.artifacts fuel = .ok () ∧
        checkNative r.report = .ok () := by
  rw [validate, check_bind_eq_ok, check_bind_eq_ok]

/-- What the checks before `uv.lock` establish. -/
structure RecordsAgree (lib : StandardLib) (r : Records) : Prop where
  notices : r.notices ≠ [] ∧ ∀ notice ∈ r.notices, checkNotice lib notice = .ok ()
  complete : r.lock.failures = [] ∧ r.lock.schema = "apt-runtime-source-lock.v1"
  current : r.report.sourceLockSha256 = lib.sha256Hex (lib.dumps r.lock)
  counted : (r.lock.artifacts.map Artifact.name).Nodup ∧
    r.report.artifactCount = r.lock.artifacts.length
  artifacts : ∀ entry ∈ r.lock.artifacts, ∃ x, checked lib entry = .ok x
  seed : ∀ entry ∈ r.seed.artifacts, checkSeed r.lock.artifacts entry = .ok ()
  sources : ∃ sources, sourcesOf r.lock.artifacts = .ok sources ∧
    (sources ⊆ r.base.packages.map (fun p => (p.sourcePackage, p.sourceVersion)) ∧
      r.base.packages.map (fun p => (p.sourcePackage, p.sourceVersion)) ⊆ sources) ∧
    (r.report.debianSources.map (fun p => (p.package, p.version)) ⊆ sources ∧
      sources ⊆ r.report.debianSources.map fun p => (p.package, p.version))
  image : r.base.image = r.seed.baseImage ∧ r.base.architecture = "amd64"
  distributions : r.base.pythonDistributions = [["pip", "25.0.1"]]
  copyrights : ∀ notice ∈ r.base.copyrights, checkCopyright lib notice = .ok ()
  noticed : ∀ package ∈ r.base.packages,
    copyrightPath package ∈ r.base.copyrights.map Copyright.path
  docker : pyCount r.docker r.seed.baseImage = 2

theorem checked_returns {lib : StandardLib} {entry : Artifact} :
    (checked lib entry >>= fun _ => pure ()) = .ok () ↔ ∃ x, checked lib entry = .ok x := by
  rw [bind_eq_ok]
  exact exists_congr fun x => and_iff_left rfl

theorem checkRecords_eq_ok {lib : StandardLib} {r : Records} :
    checkRecords lib r = .ok () ↔ RecordsAgree lib r := by
  simp only [checkRecords, check_bind_eq_ok, bind_eq_ok (α := List (String × String)),
    checked_returns, refuseIf_eq_ok, forM_eq_ok, not_or, not_not, ne_eq]
  constructor
  · rintro ⟨hnonempty, hnotices, hcomplete, hcurrent, hcounted, hartifacts, hseed, hsources⟩
    obtain ⟨sources, hof, hsame, himage, hdist, hcopyrights, hnoticed, hdocker⟩ := hsources
    exact ⟨⟨hnonempty, hnotices⟩, hcomplete, hcurrent, hcounted, hartifacts, hseed,
      ⟨sources, hof, hsame⟩, himage, hdist, hcopyrights, hnoticed, hdocker⟩
  · intro h
    obtain ⟨sources, hof, hsame⟩ := h.sources
    exact ⟨h.notices.1, h.notices.2, h.complete, h.current, h.counted, h.artifacts, h.seed,
      sources, hof, hsame, h.image, h.distributions, h.copyrights, h.noticed, h.docker⟩

/-- Where `validate` returns, every entry whose name is followed is covered. -/
theorem Passes.covered {lib : StandardLib} {r : Records} (h : Passes lib r) {e : Package}
    (he : e ∈ r.packages) (hother : e.name ≠ "astro-passport")
    (hfollowed : Followed r.packages e.name) : Covered r.lock.artifacts e := by
  obtain ⟨fuel, hok⟩ := h
  obtain ⟨runtime, hruntime, hloop⟩ := bind_eq_ok.1 (validate_eq_ok.1 hok).2.1
  exact covered_of_checkPackage ((mem_runtimeNames hruntime).mpr hfollowed) hother
    (forM_eq_ok.1 hloop e he)

/-! ## A source lock that leaves an entry out -/

/-- A component has one name and one version, unless a name has an equals sign. -/
theorem name_of_componentOf {name name' version version' : String} (h : '=' ∉ name.toList)
    (h' : '=' ∉ name'.toList) (heq : componentOf name version = componentOf name' version') :
    name = name' := by
  have hsplit (s version : String) (hs : '=' ∉ s.toList) :
      (componentOf s version).toList.takeWhile (· ≠ '=') = s.toList := by
    have hall : ∀ c ∈ s.toList, decide (c ≠ '=') = true := by
      intro c hc
      exact decide_eq_true fun heq => hs (heq ▸ hc)
    simp only [componentOf, String.toList_append, List.append_assoc]
    rw [List.takeWhile_append_of_pos hall]
    exact List.append_nil _
  apply String.toList_inj.mp
  rw [← hsplit name version h, heq, hsplit name' version' h']

/-- An artifact as no part of the base image. -/
def Artifact.unsourced (e : Artifact) : Artifact :=
  { e with sourcePackage := none, sourceVersion := none }

/-- The artifacts without those of a component. -/
def withoutComponent (component : String) (entries : List Artifact) : List Artifact :=
  (entries.filter fun e => e.component ≠ component).map Artifact.unsourced

/-- The records without the artifacts of a component, and with what goes along with them. -/
def Records.without (lib : StandardLib) (component : String) (r : Records) : Records :=
  let lock := { r.lock with artifacts := withoutComponent component r.lock.artifacts }
  { r with
    lock
    report := { r.report with
      sourceLockSha256 := lib.sha256Hex (lib.dumps lock)
      artifactCount := lock.artifacts.length
      debianSources := [] }
    base := { r.base with packages := [] }
    seed := { r.seed with artifacts := [] } }

theorem mem_withoutComponent {component : String} {entries : List Artifact} {row : Artifact} :
    row ∈ withoutComponent component entries ↔
      ∃ e ∈ entries, e.component ≠ component ∧ e.unsourced = row := by
  simp [withoutComponent, and_assoc]

theorem sourcesOf_withoutComponent (component : String) (entries : List Artifact) :
    sourcesOf (withoutComponent component entries) = .ok [] := by
  have hnone : (withoutComponent component entries).filterMap (fun e =>
      e.sourcePackage.map fun package => (package, e.sourceVersion)) = [] := by
    rw [List.filterMap_eq_nil_iff]
    intro row hrow
    obtain ⟨e, -, -, rfl⟩ := mem_withoutComponent.1 hrow
    rfl
  rw [sourcesOf, hnone]
  rfl

theorem RecordsAgree.without {lib : StandardLib} {r : Records} (h : RecordsAgree lib r)
    (component : String) : RecordsAgree lib (r.without lib component) where
  notices := h.notices
  complete := h.complete
  current := rfl
  counted := by
    refine ⟨?_, rfl⟩
    -- dropping a component leaves a sublist of distinct names
    have hsublist : List.Sublist
        ((withoutComponent component r.lock.artifacts).map Artifact.name)
        (r.lock.artifacts.map Artifact.name) := by
      rw [withoutComponent, List.map_map]
      exact List.filter_sublist.map Artifact.name
    exact h.counted.1.sublist hsublist
  artifacts := by
    intro row hrow
    obtain ⟨e, he, -, rfl⟩ := mem_withoutComponent.1 hrow
    exact h.artifacts e he
  seed := by
    intro entry hentry
    cases hentry
  sources := ⟨[], sourcesOf_withoutComponent component r.lock.artifacts,
    ⟨List.nil_subset _, List.nil_subset _⟩, List.nil_subset _, List.nil_subset _⟩
  image := h.image
  distributions := h.distributions
  copyrights := h.copyrights
  noticed := by
    intro package hpackage
    cases hpackage
  docker := h.docker

theorem filter_withoutComponent {component other : String} (h : other ≠ component)
    (entries : List Artifact) :
    (withoutComponent component entries).filter (fun e => e.component = other) =
      (entries.filter fun e => e.component = other).map Artifact.unsourced := by
  have hfilter : entries.filter (fun e => decide (e.component = other)) =
      (entries.filter fun e => decide (e.component ≠ component)).filter
        fun e => decide (e.component = other) := by
    rw [List.filter_filter]
    refine List.filter_congr fun e _ => ?_
    by_cases he : e.component = other
    · simp [he, h]
    · simp [he]
  rw [hfilter, withoutComponent, List.filter_map]
  rfl

/-- An entry of another component passes as before. -/
theorem checkPackage_withoutComponent {component : String} {entries : List Artifact}
    {runtime : List String} {package : Package}
    (hother : ∀ version, package.version = some version →
      componentOf package.name version ≠ component)
    (h : checkPackage entries runtime package = .ok ()) :
    checkPackage (withoutComponent component entries) runtime package = .ok () := by
  unfold checkPackage at h ⊢
  split_ifs at h ⊢ with hchecked
  · obtain ⟨version, hversion, h⟩ := bind_eq_ok.1 h
    obtain ⟨hany, hrows⟩ := check_bind_eq_ok.1 h
    rw [refuseIf_eq_ok] at hany
    refine bind_eq_ok.2 ⟨version, hversion, check_bind_eq_ok.2 ⟨?_, ?_⟩⟩
    · rw [refuseIf_eq_ok, filter_withoutComponent (hother version (required_eq_ok.1 hversion)),
        List.any_map, List.any_map]
      exact hany
    · rw [filter_withoutComponent (hother version (required_eq_ok.1 hversion)), forM_eq_ok]
      intro row hrow
      obtain ⟨e, he, rfl⟩ := List.mem_map.mp hrow
      exact forM_eq_ok.1 hrows e he
  · rfl

/-- Records that pass still do without a component that no followed entry has. -/
theorem Passes.without {lib : StandardLib} {r : Records} (h : Passes lib r) {component : String}
    (hother : ∀ p ∈ r.packages, Followed r.packages p.name → ∀ version,
      p.version = some version → componentOf p.name version ≠ component) :
    Passes lib (r.without lib component) := by
  obtain ⟨fuel, hok⟩ := h
  obtain ⟨hrecords, hruntime, hnative⟩ := validate_eq_ok.1 hok
  obtain ⟨runtime, hnames, hloop⟩ := bind_eq_ok.1 hruntime
  refine ⟨fuel, validate_eq_ok.2 ⟨?_, bind_eq_ok.2 ⟨runtime, hnames, ?_⟩, hnative⟩⟩
  · exact checkRecords_eq_ok.2 ((checkRecords_eq_ok.1 hrecords).without component)
  · refine forM_eq_ok.2 fun p hp => ?_
    by_cases hname : p.name ∈ runtime
    · exact checkPackage_withoutComponent (hother p hp ((mem_runtimeNames hnames).mp hname))
        (forM_eq_ok.1 hloop p hp)
    · rw [checkPackage, if_neg fun hc => hname hc.1]

/-- Every entry that ships is covered. -/
def CoversClosure (r : Records) : Prop :=
  ∀ e, Shipped r.packages e → e.name ≠ "astro-passport" → Covered r.lock.artifacts e

/-- Where an entry ships under a name that is not followed, a source lock passes without it. -/
theorem exists_passes_not_covered {lib : StandardLib} {r : Records} (h : Passes lib r)
    (hnames : ∀ p ∈ r.packages, '=' ∉ p.name.toList) {e : Package} (he : Shipped r.packages e)
    (hnot : ¬ Followed r.packages e.name) :
    ∃ r', Passes lib r' ∧ r'.packages = r.packages ∧ ¬ CoversClosure r' := by
  have hastro : e.name ≠ "astro-passport" := by
    intro heq
    exact hnot (heq ▸ Followed.root he.mem heq)
  cases hversion : e.version with
  | none =>
      refine ⟨r, h, rfl, fun hcovers => ?_⟩
      obtain ⟨version, hsome, -⟩ := (hcovers e he hastro).component
      rw [hversion] at hsome
      cases hsome
  | some version =>
      refine ⟨r.without lib (componentOf e.name version), h.without ?_, rfl, fun hcovers => ?_⟩
      · intro p hp hfollowed version' _ heq
        have hname := name_of_componentOf (hnames p hp) (hnames e he.mem) heq
        exact hnot (hname ▸ hfollowed)
      · obtain ⟨version', hsome, ⟨row, hrow, hcomponent, -⟩, -⟩ := (hcovers e he hastro).component
        rw [hversion, Option.some.injEq] at hsome
        obtain ⟨kept, -, hkept, rfl⟩ := mem_withoutComponent.1 hrow
        exact hkept (hsome ▸ hcomponent)

/-- The loop ends, and where the gate returns it covers the closure if the first entries lead to
    every name; otherwise some source lock passes for the same packages that leaves an entry out. -/
theorem validate_covers_iff {lib : StandardLib} {r : Records} (h : Passes lib r) :
    (∀ packages, DependenciesListed packages →
      ∃ names, ∀ fuel, packages.length + 1 ≤ fuel → runtimeNames packages fuel = .ok names) ∧
    (FirstEntriesSuffice r.packages → CoversClosure r) ∧
    ((∀ p ∈ r.packages, '=' ∉ p.name.toList) →
      ((∀ r', Passes lib r' → r'.packages = r.packages → CoversClosure r') ↔
        FirstEntriesSuffice r.packages)) := by
  have hsufficient (r' : Records) (h' : Passes lib r') (hfirst : FirstEntriesSuffice r'.packages) :
      CoversClosure r' := fun e he hother => h'.covered he.mem hother (hfirst e he)
  refine ⟨fun packages hlisted => runtimeNames_total hlisted, hsufficient r h, fun hnames => ?_⟩
  constructor
  · intro hall e he
    by_contra hnot
    obtain ⟨r', h', hpackages, hmissed⟩ := exists_passes_not_covered h hnames he hnot
    exact hmissed (hall r' h' hpackages)
  · intro hfirst r' h' hpackages
    exact hsufficient r' h' (hpackages ▸ hfirst)

/-! ## A lock with two entries of one name -/

/-- A wheel and a source archive of a release of `shapely`. -/
def shapelyArtifacts (version wheel source : String) : List Artifact :=
  let row (name sha256 : String) : Artifact :=
    { name, sha256, component := "shapely=" ++ version, bytes := 1
      url := "https://files.pythonhosted.org/" ++ name
      sourcePackage := none, sourceVersion := none }
  [row ("shapely-" ++ version ++ "-py3-none-any.whl") wheel,
    row ("shapely-" ++ version ++ ".tar.gz") source]

/-- `numpy` is a dependency of the second entry of `shapely` only, and no artifact is of it. -/
def splitPackages : List Package :=
  [⟨"astro-passport", some "0.1.0",
      some [⟨"shapely", some "2.0.7"⟩, ⟨"shapely", some "2.1.0"⟩], none⟩,
    ⟨"numpy", some "2.3.0", none, some []⟩,
    ⟨"shapely", some "2.0.7", none,
      some [⟨some "sha256:aaaaaaaaaaaaaaaaaaaaaaaaaaaaaaaaaaaaaaaaaaaaaaaaaaaaaaaaaaaaaaaa"⟩]⟩,
    ⟨"shapely", some "2.1.0", some [⟨"numpy", none⟩],
      some [⟨some "sha256:cccccccccccccccccccccccccccccccccccccccccccccccccccccccccccccccc"⟩]⟩]

/-- Records that pass `validate` although two entries of the lock have the name `shapely`, and only
    the one that is not followed needs `numpy`. -/
def splitRecords : Records where
  lock :=
    { schema := "apt-runtime-source-lock.v1"
      failures := []
      artifacts :=
        shapelyArtifacts "2.0.7"
          "aaaaaaaaaaaaaaaaaaaaaaaaaaaaaaaaaaaaaaaaaaaaaaaaaaaaaaaaaaaaaaaa"
          "bbbbbbbbbbbbbbbbbbbbbbbbbbbbbbbbbbbbbbbbbbbbbbbbbbbbbbbbbbbbbbbb" ++
        shapelyArtifacts "2.1.0"
          "cccccccccccccccccccccccccccccccccccccccccccccccccccccccccccccccc"
          "dddddddddddddddddddddddddddddddddddddddddddddddddddddddddddddddd" }
  report :=
    { sourceLockSha256 := "228ab1ff0cfdab9fff12641c137f3807e92d59e53b69f0064e6f4662176a5da9"
      artifactCount := 4
      debianSources := []
      rustCrates := List.replicate 103 ⟨["MIT notice"], "MIT"⟩
      swissSourceEqual := List.replicate 27 "sweph.c"
      nativeLineage := [] }
  base :=
    { image := "python:3.12"
      architecture := "amd64"
      packages := []
      pythonDistributions := [["pip", "25.0.1"]]
      copyrights := [] }
  seed := { baseImage := "python:3.12", artifacts := [] }
  notices := [⟨["origin"], "notice",
    "9368a7d21e018f64ae3327d2f25cd4d7693b2d85328e4bb680bcfcbd4c26b90e"⟩]
  docker := "FROM python:3.12 AS build\nFROM python:3.12\n"
  packages := splitPackages

/-- The library on the texts of `splitRecords`. -/
def splitLib : StandardLib where
  sha256Hex text :=
    if text = "notice" then "9368a7d21e018f64ae3327d2f25cd4d7693b2d85328e4bb680bcfcbd4c26b90e"
    else "228ab1ff0cfdab9fff12641c137f3807e92d59e53b69f0064e6f4662176a5da9"
  urlsplit _ := .ok ⟨"https", some "files.pythonhosted.org", none, none, "", ""⟩
  dumps _ :=
    "\x7b\"artifacts\":[\x7b\"bytes\":1,\"component\":\"shapely=2.0.7\"," ++
    "\"name\":\"shapely-2.0.7-py3-none-any.whl\"," ++
    "\"sha256\":\"aaaaaaaaaaaaaaaaaaaaaaaaaaaaaaaaaaaaaaaaaaaaaaaaaaaaaaaaaaaaaaaa\"," ++
    "\"url\":\"https://files.pythonhosted.org/shapely-2.0.7-py3-none-any.whl\"\x7d," ++
    "\x7b\"bytes\":1,\"component\":\"shapely=2.0.7\",\"name\":\"shapely-2.0.7.tar.gz\"," ++
    "\"sha256\":\"bbbbbbbbbbbbbbbbbbbbbbbbbbbbbbbbbbbbbbbbbbbbbbbbbbbbbbbbbbbbbbbb\"," ++
    "\"url\":\"https://files.pythonhosted.org/shapely-2.0.7.tar.gz\"\x7d,\x7b\"bytes\":1," ++
    "\"component\":\"shapely=2.1.0\",\"name\":\"shapely-2.1.0-py3-none-any.whl\"," ++
    "\"sha256\":\"cccccccccccccccccccccccccccccccccccccccccccccccccccccccccccccccc\"," ++
    "\"url\":\"https://files.pythonhosted.org/shapely-2.1.0-py3-none-any.whl\"\x7d," ++
    "\x7b\"bytes\":1,\"component\":\"shapely=2.1.0\",\"name\":\"shapely-2.1.0.tar.gz\"," ++
    "\"sha256\":\"dddddddddddddddddddddddddddddddddddddddddddddddddddddddddddddddd\"," ++
    "\"url\":\"https://files.pythonhosted.org/shapely-2.1.0.tar.gz\"\x7d]," ++
    "\"failures\":[],\"schema\":\"apt-runtime-source-lock.v1\"\x7d"

theorem splitRecords_pass : Passes splitLib splitRecords := ⟨4, by decide⟩

theorem shipped_numpy : Shipped splitPackages ⟨"numpy", some "2.3.0", none, some []⟩ := by
  have hroot : Shipped splitPackages ⟨"astro-passport", some "0.1.0",
      some [⟨"shapely", some "2.0.7"⟩, ⟨"shapely", some "2.1.0"⟩], none⟩ :=
    .root (List.mem_cons_self ..) rfl
  have hshapely : Shipped splitPackages ⟨"shapely", some "2.1.0", some [⟨"numpy", none⟩],
      some [⟨some "sha256:cccccccccccccccccccccccccccccccccccccccccccccccccccccccccccccccc"⟩]⟩ :=
    .step hroot (d := ⟨"shapely", some "2.1.0"⟩) (by decide) (by decide) ⟨rfl, .inr rfl⟩
  exact .step hshapely (d := ⟨"numpy", none⟩) (by decide) (by decide) ⟨rfl, .inl rfl⟩

/-- The gate returns, and no artifact is of `numpy`, which ships. -/
theorem validate_misses_numpy :
    Passes splitLib splitRecords ∧
      ∃ e, Shipped splitRecords.packages e ∧ e.name ≠ "astro-passport" ∧
        ¬ Covered splitRecords.lock.artifacts e := by
  refine ⟨splitRecords_pass, _, shipped_numpy, by decide, fun hcovered => ?_⟩
  obtain ⟨version, hversion, hwheel, -⟩ := hcovered.component
  cases hversion
  revert hwheel
  decide

theorem validate_covers_iff_split :
    Passes splitLib splitRecords ∧
      ((∀ r', Passes splitLib r' → r'.packages = splitRecords.packages → CoversClosure r') ↔
        FirstEntriesSuffice splitRecords.packages) :=
  ⟨splitRecords_pass, (validate_covers_iff splitRecords_pass).2.2 (by decide)⟩

end Compliance

end AstroPassport
