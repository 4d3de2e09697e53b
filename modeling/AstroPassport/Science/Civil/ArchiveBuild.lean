import AstroPassport.Lib.Json.Dumps
import AstroPassport.Science.Civil.Archive

set_option autoImplicit false

/-! # Building the archive of zone rules

`build` of `scripts/build_tzdb_artifact.py`: the members of the two source archives are put into one
directory, the zone compiler is run there, and the zones it wrote are packed with a manifest. The
TAR and ZIP containers and the compiler are parameters. Two results: what the loop over the source
members accepts, and as what (`extract_eq_ok`), and that `_load_zones` reads back exactly the
compiled zones (`loadZones_build`).

The loop refuses names that leave the directory, links, devices and names it has already, so what is
extracted are files and directories below it, each name once; failures of the operating system while
writing them are left out. Building and loading meet in the manifest, which is written by
`json.dumps` with sorted keys and read by `json.loads`, and in the container, of which it is assumed
that it reads back the entries it was given (`ReadsBack`). A tree with one small file for each zone
is built and loaded to show that the assumptions can be met. -/

namespace AstroPassport

/-! ## The source members -/

/-- A member of a source archive: `content` is what `extractfile` and `read(size + 1)` give. -/
structure TarMember where
  name : List Char
  isFile : Bool
  size : ℕ
  content : Option (List Byte)

/-- What `build` raises: a `ValueError` with its text, or what comes out of the tools it runs. -/
inductive BuildRaise where
  | valueError (text : String)
  | tool
  deriving DecidableEq

/-- The working directory, and the sizes added up. -/
structure WorkDir where
  files : List (List Char × List Byte)
  total : ℕ

/-- `[A-Za-z0-9_.-]+`, but for `.` and `..`. -/
def isMemberName (name : List Char) : Bool :=
  !name.isEmpty && (name.all fun c => ('A' ≤ c && c ≤ 'Z') || ('a' ≤ c && c ≤ 'z') ||
    ('0' ≤ c && c ≤ '9') || c == '_' || c == '.' || c == '-') &&
    !(name == ['.']) && !(name == ['.', '.'])

/-- One turn of the loop over the members of a source archive. -/
def extractMember (w : WorkDir) (m : TarMember) : Except BuildRaise WorkDir :=
  if m.isFile = false ∨ isMemberName m.name = false ∨ 1048576 < m.size then
    .error (.valueError "source member")
  else if 16777216 < w.total + m.size then .error (.valueError "source size")
  else
    match m.content with
    | none => .error (.valueError "source member")
    | some value =>
      if value.length ≠ m.size then .error (.valueError "source size")
      else
        match w.files.lookup m.name with
        | some old =>
          if old ≠ value then .error (.valueError "conflicting source members")
          else .ok ⟨w.files, w.total + m.size⟩
        | none => .ok ⟨w.files ++ [(m.name, value)], w.total + m.size⟩

/-- A member that may be written: a file with a plain name, as long as it says. -/
structure TarMember.Plain (m : TarMember) (value : List Byte) : Prop where
  isFile : m.isFile = true
  name : isMemberName m.name = true
  size : m.size ≤ 1048576
  content : m.content = some value
  length : value.length = m.size

/-- The file a member stands for. -/
def TarMember.file (m : TarMember) : List Char × List Byte := (m.name, m.content.getD [])

theorem TarMember.Plain.file {m : TarMember} {value : List Byte} (h : m.Plain value) :
    m.file = (m.name, value) := by
  rw [TarMember.file, h.content]
  rfl

theorem extractMember_eq_ok {w w' : WorkDir} {m : TarMember} :
    extractMember w m = .ok w' ↔ (∃ value, m.Plain value) ∧ w.total + m.size ≤ 16777216 ∧
      (∀ old, w.files.lookup m.name = some old → old = m.file.2) ∧
      w' = ⟨Dict.set m.file.1 m.file.2 w.files, w.total + m.size⟩ := by
  unfold extractMember
  split
  · next hbad =>
      simp only [reduceCtorEq, false_iff]
      rintro ⟨⟨value, hplain⟩, -⟩
      rw [hplain.isFile, hplain.name] at hbad
      have := hplain.size
      simp only [Bool.true_eq_false, false_or] at hbad
      omega
  next hgood =>
  simp only [not_or, not_lt, Bool.not_eq_false] at hgood
  split
  · next htotal =>
      simp only [reduceCtorEq, false_iff]
      rintro ⟨-, hle, -⟩
      omega
  next htotal =>
  split
  · next hnone =>
      simp only [reduceCtorEq, false_iff]
      rintro ⟨⟨value, hplain⟩, -⟩
      rw [hplain.content] at hnone
      cases hnone
  next value hvalue =>
  split
  · next hlength =>
      simp only [reduceCtorEq, false_iff]
      rintro ⟨⟨value', hplain⟩, -⟩
      rw [hplain.content, Option.some.injEq] at hvalue
      subst hvalue
      exact hlength hplain.length
  next hlength =>
  have hplain : m.Plain value :=
    ⟨hgood.1, hgood.2.1, hgood.2.2, hvalue, by rwa [ne_eq, not_not] at hlength⟩
  have hfile := hplain.file
  split
  · next old hold =>
      -- a second member of the name changes nothing when its content is the same
      have hset : old = value → Dict.set m.name value w.files = w.files := by
        rintro rfl
        exact Dict.set_of_lookup hold
      simp only [hfile, hold, Option.some.injEq, forall_eq']
      split
      · next hne =>
          simp only [reduceCtorEq, false_iff]
          rintro ⟨-, -, heq, -⟩
          exact hne heq
      · next heq =>
          rw [ne_eq, not_not] at heq
          rw [hset heq, Except.ok.injEq]
          exact ⟨fun h => ⟨⟨value, hplain⟩, by omega, heq, h.symm⟩, fun h => h.2.2.2.symm⟩
  · next hnone =>
      have hfresh : m.name ∉ w.files.map Prod.fst := by
        intro hmem
        obtain ⟨f, hf, hkey⟩ := List.mem_map.1 hmem
        rw [List.lookup_eq_none_iff] at hnone
        exact absurd hkey.symm (by simpa using hnone f hf)
      simp only [hfile, hnone, reduceCtorEq, false_implies, implies_true, true_and]
      rw [Dict.set_of_notMem hfresh, Except.ok.injEq]
      exact ⟨fun h => ⟨⟨value, hplain⟩, by omega, h.symm⟩, fun h => h.2.2.symm⟩

/-- Members of one name agree, and agree with what is there. -/
def MembersAgree (files : List (List Char × List Byte)) (members : List TarMember) : Prop :=
  ∀ m ∈ members, (∀ old, files.lookup m.name = some old → old = m.file.2) ∧
    ∀ m' ∈ members, m.name = m'.name → m.file.2 = m'.file.2

theorem membersAgree_cons {files : List (List Char × List Byte)} {m : TarMember} {ms : List TarMember} :
    MembersAgree files (m :: ms) ↔ (∀ old, files.lookup m.name = some old → old = m.file.2) ∧
      MembersAgree (Dict.set m.file.1 m.file.2 files) ms := by
  have hset : ∀ name, (Dict.set m.file.1 m.file.2 files).lookup name =
      if name = m.name then some m.file.2 else files.lookup name :=
    fun name => Dict.lookup_set _ _ _ _
  constructor
  · intro h
    refine ⟨(h m (List.mem_cons_self ..)).1, fun m' hm' => ⟨fun old hold => ?_, ?_⟩⟩
    · rw [hset] at hold
      split at hold
      · next hname =>
          cases hold
          exact (h m (List.mem_cons_self ..)).2 m' (List.mem_cons_of_mem _ hm') hname.symm
      · exact (h m' (List.mem_cons_of_mem _ hm')).1 old hold
    · exact fun m'' hm'' => (h m' (List.mem_cons_of_mem _ hm')).2 m'' (List.mem_cons_of_mem _ hm'')
  · rintro ⟨hhead, htail⟩
    -- a later member of the same name agrees with this one through the directory
    have hsame : ∀ m' ∈ ms, m'.name = m.name → m.file.2 = m'.file.2 := by
      intro m' hm' hname
      refine (htail m' hm').1 _ ?_
      rw [hset, if_pos hname]
    have hold : ∀ m' ∈ ms, ∀ old, files.lookup m'.name = some old → old = m'.file.2 := by
      intro m' hm' old hlookup
      by_cases hname : m'.name = m.name
      · rw [← hsame m' hm' hname]
        rw [hname] at hlookup
        exact hhead old hlookup
      · refine (htail m' hm').1 old ?_
        rw [hset, if_neg hname]
        exact hlookup
    intro m' hm'
    rcases List.mem_cons.1 hm' with rfl | hmem
    · refine ⟨hhead, fun m'' hm'' hname => ?_⟩
      rcases List.mem_cons.1 hm'' with rfl | hmem
      · rfl
      · exact hsame m'' hmem hname.symm
    · refine ⟨hold m' hmem, fun m'' hm'' hname => ?_⟩
      rcases List.mem_cons.1 hm'' with rfl | hmem'
      · exact (hsame m' hmem hname).symm
      · exact (htail m' hmem).2 m'' hmem' hname

/-- The loop from any directory whose sizes are within the limit. -/
theorem foldlM_extractMember {members : List TarMember} {w w' : WorkDir}
    (hw : w.total ≤ 16777216) :
    members.foldlM extractMember w = .ok w' ↔ (∀ m ∈ members, ∃ value, m.Plain value) ∧
      w.total + (members.map TarMember.size).sum ≤ 16777216 ∧ MembersAgree w.files members ∧
      w' = ⟨(members.map TarMember.file).foldl (fun d f => Dict.set f.1 f.2 d) w.files,
        w.total + (members.map TarMember.size).sum⟩ := by
  induction members generalizing w with
  | nil =>
      simp only [List.foldlM_nil, pure, Except.pure, Except.ok.injEq, List.map_nil, List.foldl_nil,
        List.sum_nil, Nat.add_zero, MembersAgree, List.not_mem_nil, false_implies, implies_true, true_and]
      exact ⟨fun h => ⟨hw, h.symm⟩, fun h => h.2.symm⟩
  | cons m ms ih =>
      simp only [List.foldlM_cons, bind_eq_ok, extractMember_eq_ok, membersAgree_cons, List.forall_mem_cons,
        List.map_cons, List.foldl_cons, List.sum_cons]
      constructor
      · -- the directory after the head is within the limit again, as the induction asks
        rintro ⟨w₁, ⟨hplain, htotal, hhead, rfl⟩, hrest⟩
        obtain ⟨hplains, hsum, htail, rfl⟩ := (ih htotal).1 hrest
        refine ⟨⟨hplain, hplains⟩, by simp only at hsum; omega, ⟨hhead, htail⟩, ?_⟩
        simp only [WorkDir.mk.injEq, true_and]
        omega
      · rintro ⟨⟨hplain, hplains⟩, hsum, ⟨hhead, htail⟩, rfl⟩
        have htotal : w.total + m.size ≤ 16777216 := by omega
        refine ⟨_, ⟨hplain, htotal, hhead, rfl⟩, (ih htotal).2 ⟨hplains, ?_, htail, ?_⟩⟩
        · simp only
          omega
        · simp only [WorkDir.mk.injEq, true_and]
          omega

/-- `build`'s loop over the members of both archives: every member is a plain file of a plain name,
    their sizes are within the limit, and members of one name have one content. What is written is
    these files under these names, and nothing beside the directory. What the operating system may
    refuse on the way, a name too long for it or a time stamp that `os.utime` cannot set, is left
    out. -/
theorem extract_eq_ok {members : List TarMember} {w : WorkDir} :
    members.foldlM extractMember ⟨[], 0⟩ = .ok w ↔ (∀ m ∈ members, ∃ value, m.Plain value) ∧
      (members.map TarMember.size).sum ≤ 16777216 ∧
      (∀ m ∈ members, ∀ m' ∈ members, m.name = m'.name → m.content = m'.content) ∧
      w = ⟨Dict.ofMembers (members.map TarMember.file), (members.map TarMember.size).sum⟩ := by
  rw [foldlM_extractMember (by decide)]
  simp only [Nat.zero_add, MembersAgree, List.lookup_nil, reduceCtorEq, false_implies, implies_true,
    true_and]
  refine and_congr_right fun hplain => and_congr_right fun _ => and_congr_left fun _ => ?_
  refine forall₂_congr fun m hm => forall₂_congr fun m' hm' => imp_congr_right fun _ => ?_
  obtain ⟨value, h⟩ := hplain m hm
  obtain ⟨value', h'⟩ := hplain m' hm'
  rw [h.file, h'.file, h.content, h'.content, Option.some.injEq]

/-! ## Packing -/

/-- What the compiler leaves under a path. -/
inductive CompiledEntry where
  | symlink
  | directory
  | file (content : List Byte)

/-- The compiled zones by their paths, in the order of `sorted(rglob("*"))`. -/
structure CompiledTree where
  entries : List (List Char × CompiledEntry)
  nodup : (entries.map Prod.fst).Nodup

/-- The tools `build` runs: `tarfile` on a source archive, `make` with the version its `zic` prints,
    that `zic`, and `zipfile` with the entries in order; `keepsName` are the names that `ZipInfo`
    leaves as they are. -/
structure BuildTools where
  openTar : List Byte → Option (List TarMember)
  make : List (List Char × List Byte) → Option (List Char)
  zic : List (List Char × List Byte) → Option CompiledTree
  writeZip : List (List Char × List Byte) → Option (List Byte)
  keepsName : List Char → Bool

/-- A tool that gave nothing raised. -/
def orTool {α : Type} : Option α → Except BuildRaise α
  | some a => .ok a
  | none => .error .tool

/-- `SOURCES`. -/
def archiveSources : List (String × String) :=
  [("tzcode2026c.tar.gz", tzcodeSha256), ("tzdata2026c.tar.gz", tzdataSha256)]

section Build

variable (lib : ArchiveLib) (tools : BuildTools)

/-- One turn of the loop over `SOURCES`. -/
def addSource (read : String → Option (List Byte)) (w : WorkDir) (source : String × String) :
    Except BuildRaise WorkDir := do
  let content ← orTool (read source.1)
  let raw := content.take (2097152 + 1)
  if lib.sha256 raw ≠ source.2 then .error (.valueError "source integrity")
  else do
    let members ← orTool (tools.openTar raw)
    members.foldlM extractMember w

/-- The loop over the compiled paths. -/
def compiledZones : List (List Char × CompiledEntry) →
    Except BuildRaise (List (List Char × List Byte))
  | [] => .ok []
  | (_, .symlink) :: _ => .error (.valueError "compiled symlink")
  | (_, .directory) :: rest => compiledZones rest
  | (name, .file value) :: rest =>
    if isTzif value = false ∨ 65536 < value.length then .error (.valueError "compiled zone")
    else (compiledZones rest).map ((name, value) :: ·)

/-- A string of the manifest. -/
def manifestText (s : String) : PlainJson := .str s.toList

/-- `manifest`, in the order it is written in. -/
def archiveManifest (version : List Char) (zones : List (List Char × List Byte)) :
    List (List Char × PlainJson) :=
  [("schema_version".toList, manifestText "tzdb-artifact.v1"),
    ("iana_version".toList, manifestText "2026c"),
    ("build_policy".toList, manifestText buildPolicy),
    ("zic_version".toList, .str version),
    ("sources".toList, .obj (archiveSources.map fun s => (s.1.toList, manifestText s.2))),
    ("zones".toList, .obj (zones.map fun z => (z.1, manifestText (lib.sha256 z.2))))]

/-- `entries`, sorted. -/
def archiveEntries (version : List Char) (zones : List (List Char × List Byte)) :
    List (List Char × List Byte) :=
  sortByKey (List.map scalar)
    (("manifest.json".toList, ascii (String.ofList
      ((PlainJson.obj (archiveManifest lib version zones)).sortKeys.dumps .ascii))) ::
      zones.map fun z => ("zoneinfo/".toList ++ z.1, z.2))

/-- `build`: the archive and its digest. -/
def build (outputExists : Bool) (read : String → Option (List Byte)) :
    Except BuildRaise (List Byte × String) :=
  if outputExists then .error (.valueError "output already exists")
  else do
    let work ← archiveSources.foldlM (addSource lib tools read) ⟨[], 0⟩
    let stdout ← orTool (tools.make work.files)
    let version := pyStrip stdout
    if version ≠ "zic (tzcode) 2026c".toList then .error (.valueError "compiler identity")
    else do
      let tree ← orTool (tools.zic work.files)
      let zones ← compiledZones tree.entries
      if zones.length ≠ 598 ∨ 8388608 < (zones.map fun z => z.2.length).sum then
        .error (.valueError "compiled scope")
      else do
        let archive ← orTool (tools.writeZip (archiveEntries lib version zones))
        pure (archive, lib.sha256 archive)

theorem orTool_eq_ok {α : Type} {x : Option α} {a : α} : orTool x = .ok a ↔ x = some a := by
  rcases x with _ | b <;> simp [orTool]

variable {lib tools} {outputExists : Bool} {read : String → Option (List Byte)}
  {archive : List Byte} {digest : String}

/-- The stages a successful build goes through. -/
theorem build_eq_ok : build lib tools outputExists read = .ok (archive, digest) ↔
    outputExists = false ∧ ∃ work stdout tree zones,
      archiveSources.foldlM (addSource lib tools read) ⟨[], 0⟩ = .ok work ∧
      tools.make work.files = some stdout ∧ pyStrip stdout = "zic (tzcode) 2026c".toList ∧
      tools.zic work.files = some tree ∧ compiledZones tree.entries = .ok zones ∧
      (zones.length = 598 ∧ (zones.map fun z => z.2.length).sum ≤ 8388608) ∧
      tools.writeZip (archiveEntries lib (pyStrip stdout) zones) = some archive ∧
      digest = lib.sha256 archive := by
  constructor
  · intro h
    unfold build at h
    split at h
    · cases h
    next hfresh =>
    obtain ⟨work, hwork, h⟩ := bind_eq_ok.1 h
    obtain ⟨stdout, hmake, h⟩ := bind_eq_ok.1 h
    simp only at h
    split at h
    · cases h
    next hversion =>
    obtain ⟨tree, htree, h⟩ := bind_eq_ok.1 h
    obtain ⟨zones, hzones, h⟩ := bind_eq_ok.1 h
    split at h
    · cases h
    next hscope =>
    obtain ⟨packed, hpack, h⟩ := bind_eq_ok.1 h
    cases h
    rw [ne_eq, not_not] at hversion
    -- the checks that did not raise, turned to what they say of the run
    simp only [not_or, ne_eq, not_not, not_lt] at hscope
    exact ⟨Bool.not_eq_true _ ▸ hfresh, work, stdout, tree, zones, hwork, orTool_eq_ok.1 hmake,
      hversion, orTool_eq_ok.1 htree, hzones, hscope, orTool_eq_ok.1 hpack, rfl⟩
  · rintro ⟨rfl, work, stdout, tree, zones, hwork, hmake, hversion, htree, hzones, ⟨hcount, hsize⟩,
      hpack, rfl⟩
    have hscope : ¬(zones.length ≠ 598 ∨ 8388608 < (zones.map fun z => z.2.length).sum) := by
      omega
    unfold build
    rw [if_neg Bool.false_ne_true]
    refine bind_eq_ok.2 ⟨work, hwork, bind_eq_ok.2 ⟨stdout, orTool_eq_ok.2 hmake, ?_⟩⟩
    simp only
    rw [if_neg (not_not.2 hversion)]
    refine bind_eq_ok.2 ⟨tree, orTool_eq_ok.2 htree, bind_eq_ok.2 ⟨zones, hzones, ?_⟩⟩
    rw [if_neg hscope]
    exact bind_eq_ok.2 ⟨archive, orTool_eq_ok.2 hpack, rfl⟩

end Build

/-! ## The manifest is read back -/

/-- The file at a compiled path, if it is one. -/
def compiledFile? (e : List Char × CompiledEntry) : Option (List Char × List Byte) :=
  match e.2 with
  | .file content => some (e.1, content)
  | _ => none

/-- The files of a compiled tree. -/
def CompiledTree.files (tree : CompiledTree) : List (List Char × List Byte) :=
  tree.entries.filterMap compiledFile?

theorem mem_files {tree : CompiledTree} {z : List Char × List Byte} :
    z ∈ tree.files ↔ (z.1, CompiledEntry.file z.2) ∈ tree.entries := by
  rw [CompiledTree.files, List.mem_filterMap]
  constructor
  · rintro ⟨⟨name, entry⟩, he, h⟩
    rcases entry with _ | _ | content <;> simp only [compiledFile?, reduceCtorEq] at h
    cases h
    exact he
  · exact fun h => ⟨_, h, rfl⟩

theorem nodup_files (tree : CompiledTree) : (tree.files.map Prod.fst).Nodup := by
  have hsublist : ∀ entries : List (List Char × CompiledEntry),
      ((entries.filterMap compiledFile?).map Prod.fst).Sublist (entries.map Prod.fst) := by
    intro entries
    induction entries with
    | nil => exact .slnil
    | cons e es ih =>
        obtain ⟨name, entry⟩ := e
        rcases entry with _ | _ | content
        · exact .cons _ ih
        · exact .cons _ ih
        · exact .cons_cons _ ih
  exact tree.nodup.sublist (hsublist tree.entries)

/-- What the loop over the compiled paths gives: the files, each of them a TZif file. -/
theorem compiledZones_eq_ok {entries : List (List Char × CompiledEntry)}
    {zones : List (List Char × List Byte)} (h : compiledZones entries = .ok zones) :
    zones = entries.filterMap compiledFile? ∧ ∀ z ∈ zones, isTzif z.2 = true := by
  induction entries generalizing zones with
  | nil =>
      cases h
      exact ⟨rfl, fun _ hz => absurd hz List.not_mem_nil⟩
  | cons e es ih =>
      obtain ⟨name, entry⟩ := e
      rcases entry with _ | _ | content
      · cases h
      · exact ih h
      · rw [compiledZones] at h
        split at h
        · cases h
        · next hgood =>
            obtain ⟨rest, hrest, rfl⟩ := map_eq_ok.1 h
            obtain ⟨hfiles, htzif⟩ := ih hrest
            simp only [not_or, Bool.not_eq_false] at hgood
            refine ⟨?_, List.forall_mem_cons.2 ⟨hgood.1, htzif⟩⟩
            rw [hfiles]
            rfl

theorem subscript_sortKeys {ms : List (List Char × PlainJson)} {name : String} {v : PlainJson}
    (hnodup : (ms.map Prod.fst).Nodup) (h : (name.toList, v) ∈ ms) :
    subscript (PlainJson.obj ms).sortKeys.toPy name = .ok v.sortKeys.toPy :=
  subscript_eq_ok.2 ⟨_, by rw [PlainJson.sortKeys, PlainJson.toPy], lookup_sortKeys hnodup h⟩

theorem text?_manifestText (s : String) : (manifestText s).sortKeys.toPy.text? = some s :=
  text?_eq_some.2 (by rw [manifestText, sortKeys_str, PlainJson.toPy]; rfl)

/-- The zones `_load_zones` gives for a packed tree: in the order of their names. -/
def loadedZones (zones : List (List Char × List Byte)) : List (List CodePoint × List Byte) :=
  (sortByKey (List.map scalar) zones).map fun z => (z.1.map scalar, z.2)

section Manifest

variable (lib : ArchiveLib) {zones : List (List Char × List Byte)}

theorem nodup_archiveManifest (version : List Char) :
    ((archiveManifest lib version zones).map Prod.fst).Nodup := by
  have hnames : (archiveManifest lib version zones).map Prod.fst =
      ["schema_version".toList, "iana_version".toList, "build_policy".toList, "zic_version".toList,
        "sources".toList, "zones".toList] := rfl
  rw [hnames]
  decide

theorem nodup_archiveSources :
    ((archiveSources.map fun s => (s.1.toList, manifestText s.2)).map Prod.fst).Nodup := by
  decide

theorem distinctKeys_archiveManifest (version : List Char) (h : (zones.map Prod.fst).Nodup) :
    (PlainJson.obj (archiveManifest lib version zones)).DistinctKeys := by
  have htexts : ∀ ms : List (List Char × String),
      membersDistinctKeys (ms.map fun m => (m.1, manifestText m.2)) := by
    intro ms
    rw [membersDistinctKeys_iff]
    intro m hm
    obtain ⟨_, -, rfl⟩ := List.mem_map.1 hm
    trivial
  rw [PlainJson.DistinctKeys, membersDistinctKeys_iff]
  refine ⟨nodup_archiveManifest lib version, ?_⟩
  simp only [archiveManifest, List.forall_mem_cons, List.not_mem_nil, false_implies, implies_true,
    and_true]
  refine ⟨trivial, trivial, trivial, trivial, ?_, ?_⟩
  · rw [PlainJson.DistinctKeys]
    exact ⟨nodup_archiveSources, htexts (archiveSources.map fun s => (s.1.toList, s.2))⟩
  · rw [PlainJson.DistinctKeys]
    refine ⟨?_, ?_⟩
    · rw [List.map_map]
      exact h
    · have := htexts (zones.map fun z => (z.1, lib.sha256 z.2))
      rwa [List.map_map] at this

theorem isSources_archiveSources : isSources (PlainJson.obj (archiveSources.map fun s =>
    (s.1.toList, manifestText s.2))).sortKeys.toPy = true := by
  have hlookup : ∀ s ∈ archiveSources, (membersToPy (sortByKey (List.map scalar) (sortMembers
      (archiveSources.map fun s => (s.1.toList, manifestText s.2))))).lookup (pyKey s.1) =
      some (manifestText s.2).sortKeys.toPy := fun s hs =>
    lookup_sortKeys nodup_archiveSources (List.mem_map.2 ⟨s, hs, rfl⟩)
  have hcode := hlookup ("tzcode2026c.tar.gz", tzcodeSha256) (by simp [archiveSources])
  have hdata := hlookup ("tzdata2026c.tar.gz", tzdataSha256) (by simp [archiveSources])
  have hlength : (membersToPy (sortByKey (List.map scalar) (sortMembers
      (archiveSources.map fun s => (s.1.toList, manifestText s.2))))).length = 2 := by
    rw [membersToPy_eq_map, List.length_map, (sortByKey_perm _ _).length_eq, sortMembers_eq_map,
      List.length_map, List.length_map]
    rfl
  rw [PlainJson.sortKeys, PlainJson.toPy]
  simp only [isSources, hlength, hcode, hdata, Option.bind_some, text?_manifestText, decide_true,
    Bool.and_self]

/-- The digests, in the order of the names. -/
theorem toPy_zones (zones : List (List Char × List Byte)) :
    (PlainJson.obj (zones.map fun z => (z.1, manifestText (lib.sha256 z.2)))).sortKeys.toPy =
      .dict (((loadedZones zones).map fun z => (z.1, pyStr (lib.sha256 z.2).toList)).map
        fun m => (PyKey.str m.1, m.2)) := by
  have hsorted : sortMembers (zones.map fun z => (z.1, manifestText (lib.sha256 z.2))) =
      zones.map (Prod.map id fun value => manifestText (lib.sha256 value)) := by
    rw [sortMembers_eq_map, List.map_map]
    refine List.map_congr_left fun z _ => ?_
    simp only [Function.comp_apply, manifestText, Prod.map, sortKeys_str]
  have hcommutes := @map_sortByKey _ _ _ _ _ _ _ _ (List.map scalar) (List.map scalar) id
    (fun _ _ => Iff.rfl) (fun value => manifestText (lib.sha256 value)) zones
  rw [PlainJson.sortKeys, PlainJson.toPy, hsorted, ← hcommutes, membersToPy_eq_map, loadedZones]
  simp only [List.map_map]
  rfl

/-- The manifest of a build declares its zones. -/
theorem declares_archiveManifest {version : List Char} (hversion : version = "zic (tzcode) 2026c".toList)
    (hcount : zones.length = 598) :
    Declares (PlainJson.obj (archiveManifest lib version zones)).sortKeys.toPy
      ((loadedZones zones).map fun z => (z.1, pyStr (lib.sha256 z.2).toList)) := by
  have hfield : ∀ {name : String} {v : PlainJson},
      (name.toList, v) ∈ archiveManifest lib version zones →
      subscript (PlainJson.obj (archiveManifest lib version zones)).sortKeys.toPy name =
        .ok v.sortKeys.toPy := fun h => subscript_sortKeys (nodup_archiveManifest lib version) h
  have hcompiler : ("zic_version".toList, manifestText "zic (tzcode) 2026c") ∈
      archiveManifest lib version zones := by
    rw [hversion]
    simp [archiveManifest, manifestText]
  refine ⟨⟨_, hfield (by simp [archiveManifest]), text?_manifestText _⟩,
    ⟨_, hfield (by simp [archiveManifest]), text?_manifestText _⟩,
    ⟨_, hfield (by simp [archiveManifest]), text?_manifestText _⟩,
    ⟨_, hfield hcompiler, text?_manifestText _⟩,
    ⟨_, hfield (by simp [archiveManifest]), isSources_archiveSources⟩, ?_, ?_⟩
  · have hzones : ("zones".toList, PlainJson.obj (zones.map fun z =>
        (z.1, manifestText (lib.sha256 z.2)))) ∈ archiveManifest lib version zones := by
      simp [archiveManifest]
    exact (hfield hzones).trans (congrArg Except.ok (toPy_zones lib zones))
  · rw [List.length_map, loadedZones, List.length_map, (sortByKey_perm _ _).length_eq, hcount]

end Manifest

/-! ## The archive is loaded -/

/-- `zipfile` reads the entries it wrote under names it keeps, and the name of a file, which has no
    zero byte, is one of these. -/
structure ReadsBack (lib : ArchiveLib) (tools : BuildTools) : Prop where
  manifest : tools.keepsName "manifest.json".toList = true
  zones : ∀ files tree, tools.zic files = some tree → ∀ e ∈ tree.entries,
    tools.keepsName ("zoneinfo/".toList ++ e.1) = true
  reads : ∀ entries archive, (entries.map Prod.fst).Nodup →
    (∀ e ∈ entries, tools.keepsName e.1 = true) → tools.writeZip entries = some archive →
    ∃ reader, lib.openZip archive = .ok reader ∧
      reader.namelist = entries.map (fun e => e.1.map scalar) ∧
      ∀ e ∈ entries, reader.read (e.1.map scalar) = .ok e.2

section Loading

variable {lib : ArchiveLib} {tools : BuildTools} {version : List Char} {archive : List Byte}
  {zones : List (List Char × List Byte)}

theorem archiveEntries_perm : (archiveEntries lib version zones).Perm
    (("manifest.json".toList, ascii (String.ofList
      ((PlainJson.obj (archiveManifest lib version zones)).sortKeys.dumps .ascii))) ::
      zones.map fun z => ("zoneinfo/".toList ++ z.1, z.2)) := sortByKey_perm _ _

theorem loadedZones_perm :
    (loadedZones zones).Perm (zones.map fun z => (z.1.map scalar, z.2)) :=
  (sortByKey_perm _ zones).map _

theorem map_scalar_zoneMember (name : List Char) :
    ("zoneinfo/".toList ++ name).map scalar = zoneMember (name.map scalar) := List.map_append

theorem nodup_loadedZones (h : (zones.map Prod.fst).Nodup) :
    ((loadedZones zones).map Prod.fst).Nodup := by
  have hscalar := h.map map_scalar_injective
  rw [List.map_map] at hscalar
  rw [(loadedZones_perm.map _).nodup_iff, List.map_map]
  exact hscalar

theorem mem_map_loadedZones (name : List Char) :
    name.map scalar ∈ (loadedZones zones).map Prod.fst ↔ name ∈ zones.map Prod.fst := by
  rw [(loadedZones_perm.map _).mem_iff, List.map_map]
  constructor
  · intro h
    obtain ⟨z, hz, hname⟩ := List.mem_map.1 h
    exact List.mem_map.2 ⟨z, hz, map_scalar_injective hname⟩
  · intro h
    obtain ⟨z, hz, rfl⟩ := List.mem_map.1 h
    exact List.mem_map.2 ⟨z, hz, rfl⟩

/-- The reader of a packed archive. -/
structure Packed (lib : ArchiveLib) (version : List Char) (zones : List (List Char × List Byte))
    (archive : List Byte) (reader : ZipReader) : Prop where
  opened : lib.openZip archive = .ok reader
  namelist : reader.namelist.Perm (manifestMember :: (loadedZones zones).map fun z => zoneMember z.1)
  manifest : ∃ text doc, reader.read manifestMember = .ok text ∧ jsonDocument text = some doc ∧
    Declares (pyDecode doc) ((loadedZones zones).map fun z => (z.1, pyStr (lib.sha256 z.2).toList))
  content : ∀ z ∈ loadedZones zones, reader.read (zoneMember z.1) = .ok z.2

theorem packed_of_writeZip (hzip : ReadsBack lib tools) (hnodup : (zones.map Prod.fst).Nodup)
    (hkeeps : ∀ z ∈ zones, tools.keepsName ("zoneinfo/".toList ++ z.1) = true)
    (hversion : version = "zic (tzcode) 2026c".toList) (hcount : zones.length = 598)
    (h : tools.writeZip (archiveEntries lib version zones) = some archive) :
    ∃ reader, Packed lib version zones archive reader := by
  have hperm := @archiveEntries_perm lib version zones
  have hnames : ((archiveEntries lib version zones).map Prod.fst).Nodup := by
    rw [(hperm.map _).nodup_iff, List.map_cons, List.map_map, List.nodup_cons]
    refine ⟨?_, ?_⟩
    · -- the manifest is outside the directory of the zones
      intro hmem
      obtain ⟨z, -, hz⟩ := List.mem_map.1 hmem
      exact absurd (congrArg List.head? hz) (by simp)
    · have := hnodup.map (List.append_right_injective "zoneinfo/".toList)
      rwa [List.map_map] at this
  have hentries : ∀ e ∈ archiveEntries lib version zones, tools.keepsName e.1 = true := by
    intro e he
    rcases List.mem_cons.1 (hperm.mem_iff.1 he) with rfl | hmem
    · exact hzip.manifest
    · obtain ⟨z, hz, rfl⟩ := List.mem_map.1 hmem
      exact hkeeps z hz
  -- distinct names, each of them kept: what was written comes back
  obtain ⟨reader, hreader, hnamelist, hread⟩ := hzip.reads _ _ hnames hentries h
  refine ⟨reader, hreader, ?_, ?_, ?_⟩
  · rw [hnamelist]
    refine (hperm.map _).trans ?_
    have hloaded := (@loadedZones_perm zones).map fun z => zoneMember z.1
    rw [List.map_map] at hloaded
    rw [List.map_cons, List.map_map]
    refine List.Perm.cons _ ((List.Perm.of_eq ?_).trans hloaded.symm)
    exact List.map_congr_left fun z _ => map_scalar_zoneMember z.1
  · refine ⟨_, _, hread _ (hperm.mem_iff.2 (List.mem_cons_self ..)), jsonDocument_dumps _, ?_⟩
    rw [pyDecode_docIn _ _ (distinctKeys_sortKeys _ (distinctKeys_archiveManifest lib version hnodup))]
    exact declares_archiveManifest lib hversion hcount
  · intro z hz
    obtain ⟨z', hz', rfl⟩ := List.mem_map.1 (loadedZones_perm.mem_iff.1 hz)
    have := hread _ (hperm.mem_iff.2 (List.mem_cons_of_mem _ (List.mem_map.2 ⟨z', hz', rfl⟩)))
    rwa [map_scalar_zoneMember] at this

/-- Of a packed archive the registered ids are all that is left to check. -/
theorem readArchive_packed {reader : ZipReader} (hpacked : Packed lib version zones archive reader)
    (hnodup : (zones.map Prod.fst).Nodup) (hcount : zones.length = 598)
    (htzif : ∀ z ∈ zones, isTzif z.2 = true) :
    ((∀ id ∈ registeredZoneIds, id.toList ∈ zones.map Prod.fst) →
      readArchive lib archive = .ok (loadedZones zones)) ∧
    ((¬ ∀ id ∈ registeredZoneIds, id.toList ∈ zones.map Prod.fst) →
      readArchive lib archive = .error .invalid) := by
  have hloaded := nodup_loadedZones hnodup
  obtain ⟨text, doc, htext, hdoc, hdeclares⟩ := hpacked.manifest
  refine ⟨fun hcovers => readArchive_eq_ok.2 ⟨reader, hpacked.opened, ?_⟩, fun hcovers => ?_⟩
  · refine ⟨?_, hloaded, hpacked.manifest, hpacked.namelist, ?_, ?_⟩
    · rw [loadedZones, List.length_map, (sortByKey_perm _ _).length_eq, hcount]
    · exact fun id hid => (mem_map_loadedZones id.toList).2 (hcovers id hid)
    · intro z hz
      obtain ⟨z', hz', rfl⟩ := List.mem_map.1 (loadedZones_perm.mem_iff.1 hz)
      exact ⟨hpacked.content _ hz, htzif z' hz'⟩
  · have hmanifest : manifestOf text = .ok (pyDecode doc) := by rw [manifestOf, hdoc]
    -- one registered name is missing, so the check over all of them is false
    have hall : (registeredZoneIds.all fun id => (((loadedZones zones).map fun z =>
        (z.1, pyStr (lib.sha256 z.2).toList)).map Prod.fst).contains (id.toList.map scalar)) =
          false := by
      rw [← Bool.not_eq_true, List.all_eq_true, map_fst_declared]
      intro hall
      refine hcovers fun id hid => (mem_map_loadedZones id.toList).1 ?_
      exact List.contains_iff_mem.1 (hall id hid)
    refine (bind_of_eq_ok hpacked.opened).trans ?_
    refine (bind_of_eq_ok htext).trans ?_
    refine (bind_of_eq_ok hmanifest).trans ?_
    refine (bind_of_eq_ok (manifestZones_eq_ok.2 hdeclares)).trans ?_
    have hnamelist := (perm_of_toFinset (nodup_members hloaded)).2 hpacked.namelist
    rw [← map_zoneMember_declared lib] at hnamelist
    refine (bind_of_eq_ok (a := ()) (requireArchive_eq_ok.2 (decide_eq_true hnamelist))).trans ?_
    rw [hall]
    rfl

/-- **Built and loaded.** What `build` wrote, `_load_zones` reads: as the compiled files in the
    order of their names when the archive is the pinned one and every registered id was compiled,
    and otherwise with the failure that says which of the two does not hold. -/
theorem loadZones_build (hzip : ReadsBack lib tools) {outputExists : Bool}
    {read : String → Option (List Byte)} {digest : String}
    (h : build lib tools outputExists read = .ok (archive, digest)) :
    ∃ work tree, archiveSources.foldlM (addSource lib tools read) ⟨[], 0⟩ = .ok work ∧
      tools.zic work.files = some tree ∧
      (¬(archive.length = archiveBytes ∧ digest = tzdbArchiveSha256) →
        loadZones lib (some archive) = .error (.civilTime .artifactIntegrity)) ∧
      (archive.length = archiveBytes ∧ digest = tzdbArchiveSha256 →
        ((∀ id ∈ registeredZoneIds, id.toList ∈ tree.files.map Prod.fst) →
          loadZones lib (some archive) = .ok (loadedZones tree.files)) ∧
        ((¬ ∀ id ∈ registeredZoneIds, id.toList ∈ tree.files.map Prod.fst) →
          loadZones lib (some archive) = .error (.civilTime .artifactInvalid))) := by
  obtain ⟨-, work, stdout, tree, zones, hwork, -, hversion, htree, hzones, ⟨hcount, -⟩, hpack, rfl⟩ :=
    build_eq_ok.1 h
  -- the zones are the files of the tree, which is what the archive holds
  obtain ⟨rfl, htzif⟩ := compiledZones_eq_ok hzones
  have hnodup := nodup_files tree
  have hkeeps : ∀ z ∈ tree.files, tools.keepsName ("zoneinfo/".toList ++ z.1) = true :=
    fun z hz => hzip.zones _ tree htree _ (mem_files.1 hz)
  obtain ⟨reader, hreader⟩ := packed_of_writeZip hzip hnodup hkeeps hversion hcount hpack
  obtain ⟨hcovered, hmissing⟩ := readArchive_packed hreader hnodup hcount htzif
  refine ⟨work, tree, hwork, htree, fun hother => ?_, fun hpinned => ?_⟩
  · exact loadZones_other hother
  · refine ⟨fun hcovers => ?_, fun hcovers => ?_⟩
    · exact loadZones_eq_ok.2 ⟨_, rfl, hpinned.1, hpinned.2, hcovered hcovers⟩
    · rw [loadZones_pinned hpinned.1 hpinned.2, hmissing hcovers]
      rfl

end Loading

/-! ## An archive of one file under all names -/

/-- Names, and as many of the others as it takes to have as many as there are others. -/
def padNames (names others : List (List Char)) : List (List Char) :=
  names.dedup ++ (others.filter fun name => !names.dedup.contains name).take
    (others.length - names.dedup.length)

section PadNames

variable {names others : List (List Char)}

theorem nodup_padNames (hothers : others.Nodup) : (padNames names others).Nodup := by
  refine List.Nodup.append (List.nodup_dedup _) ((hothers.filter _).sublist
    (List.take_sublist ..)) ?_
  intro name hname hother
  have hother := (List.mem_filter.1 ((List.take_subset ..) hother)).2
  rw [List.contains_iff_mem.2 hname] at hother
  cases hother

/-- At most as many of the others are passed over as there are names. -/
theorem length_padNames (hothers : others.Nodup) (hlength : names.length ≤ others.length) :
    (padNames names others).length = others.length := by
  have hdedup : names.dedup.length ≤ others.length := (List.dedup_sublist _).length_le.trans hlength
  have hsplit := @List.length_eq_length_filter_add _ others fun name => !names.dedup.contains name
  have hsubset : (others.filter fun name => !!names.dedup.contains name) ⊆ names.dedup := by
    intro name hname
    have hcontains := (List.mem_filter.1 hname).2
    rw [Bool.not_not] at hcontains
    exact List.contains_iff_mem.1 hcontains
  have hpassed := (List.subperm_of_subset (hothers.filter _) hsubset).length_le
  rw [padNames, List.length_append, List.length_take]
  omega

end PadNames

/-- Names that are no zone's. -/
def otherNames : List (List Char) := (List.range 598).map fun n => List.replicate n 'x'

theorem length_otherNames : otherNames.length = 598 := by
  rw [otherNames, List.length_map, List.length_range]

theorem nodup_otherNames : otherNames.Nodup := by
  refine List.nodup_range.map fun m n h => ?_
  have hlength := congrArg List.length h
  simpa only [List.length_replicate] using hlength

/-- The registered ids, filled up to 598 names. -/
@[irreducible]
def stillNames : List (List Char) := padNames (registeredZoneIds.map String.toList) otherNames

theorem mem_stillNames {id : String} (h : id ∈ registeredZoneIds) : id.toList ∈ stillNames := by
  unfold stillNames
  exact List.mem_append_left _ (List.mem_dedup.2 (List.mem_map.2 ⟨id, h, rfl⟩))

theorem nodup_stillNames : stillNames.Nodup := by
  unfold stillNames
  exact nodup_padNames nodup_otherNames

set_option maxRecDepth 8000 in
theorem length_registeredZoneIds_le : registeredZoneIds.length ≤ 598 :=
  Nat.le_of_ble_eq_true rfl

theorem length_stillNames : stillNames.length = 598 := by
  unfold stillNames
  refine (length_padNames nodup_otherNames ?_).trans length_otherNames
  rw [List.length_map, length_otherNames]
  exact length_registeredZoneIds_le

/-- A digest for each of the two sources and for the archive. -/
def stillDigest : List Byte → String
  | [] => tzcodeSha256
  | [_] => tzdataSha256
  | _ => tzdbArchiveSha256

theorem stillDigest_isDigest (bytes : List Byte) : isDigest (stillDigest bytes) = true := by
  have hvalid := tzdbProvenance_valid sydneyFile
  simp only [CivilTimeProvenance.valid, tzdbProvenance, Bool.and_eq_true] at hvalid
  obtain ⟨⟨⟨harchive, hdata⟩, hcode⟩, -⟩ := hvalid
  unfold stillDigest
  split
  · exact hcode
  · exact hdata
  · exact harchive

/-- The compiled files, all alike. -/
def stillZones : List (List Char × List Byte) := stillNames.map fun name => (name, ascii "TZif")

theorem map_fst_pairs {α : Type} (names : List (List Char)) (value : α) :
    (names.map fun name => (name, value)).map Prod.fst = names := by
  rw [List.map_map]
  exact List.map_id names

theorem nodup_stillEntries :
    ((stillNames.map fun name => (name, CompiledEntry.file (ascii "TZif"))).map Prod.fst).Nodup := by
  rw [map_fst_pairs]
  exact nodup_stillNames

/-- What the compiler of the zones leaves: one file for each name. -/
def stillTree : CompiledTree :=
  ⟨stillNames.map fun name => (name, .file (ascii "TZif")), nodup_stillEntries⟩

theorem files_stillTree : stillTree.files = stillZones := by
  have hall : ∀ names : List (List Char),
      (names.map fun name => (name, CompiledEntry.file (ascii "TZif"))).filterMap compiledFile? =
        names.map fun name => (name, ascii "TZif") := by
    intro names
    rw [List.filterMap_map]
    exact congrFun List.filterMap_eq_map' names
  rw [CompiledTree.files, stillTree, stillZones]
  exact hall stillNames

/-- The archive that no one can open. -/
def closedLib : ArchiveLib := ⟨fun _ => .error .invalid, stillDigest, stillDigest_isDigest⟩

/-- The entries of the archive of that tree. -/
def stillEntries : List (List Char × List Byte) :=
  archiveEntries closedLib "zic (tzcode) 2026c".toList stillZones

/-- A reader of entries. -/
def readerOf (entries : List (List Char × List Byte)) : ZipReader where
  namelist := entries.map fun e => e.1.map scalar
  read name :=
    match (entries.map fun e => (e.1.map scalar, e.2)).lookup name with
    | some value => .ok value
    | none => .error .invalid

theorem namelist_readerOf (entries : List (List Char × List Byte)) :
    (readerOf entries).namelist = entries.map fun e => e.1.map scalar := rfl

theorem read_readerOf {entries : List (List Char × List Byte)} {e : List Char × List Byte}
    (hnodup : (entries.map Prod.fst).Nodup) (he : e ∈ entries) :
    (readerOf entries).read (e.1.map scalar) = .ok e.2 := by
  have hscalar := hnodup.map map_scalar_injective
  rw [List.map_map] at hscalar
  have hfound := @lookup_of_mem _ _ _ _ (entries.map fun e => (e.1.map scalar, e.2))
    (e.1.map scalar) e.2 (by rw [List.map_map]; exact hscalar) (List.mem_map.2 ⟨e, he, rfl⟩)
  simp only [readerOf, hfound]

/-- The only archive there is holds these entries. -/
def stillLib : ArchiveLib := ⟨fun _ => .ok (readerOf stillEntries), stillDigest, stillDigest_isDigest⟩

/-- The bytes of the archive; nothing reads them but their length. -/
def stillArchive : List Byte := List.replicate archiveBytes 0

/-- Tools that build that archive from any source. -/
def stillTools : BuildTools where
  openTar _ := some []
  make _ := some "zic (tzcode) 2026c".toList
  zic _ := some stillTree
  writeZip entries := if entries == stillEntries then some stillArchive else none
  keepsName _ := true

/-- Two sources of no members. -/
def stillRead (source : String) : Option (List Byte) :=
  if source == "tzcode2026c.tar.gz" then some [] else some [0]

theorem readsBack_still : ReadsBack stillLib stillTools where
  manifest := rfl
  zones _ _ _ _ _ := rfl
  reads entries archive hnodup _ h := by
    have hentries : entries = stillEntries := by
      by_contra hne
      simp only [stillTools, beq_false_of_ne hne, Bool.false_eq_true, if_false, reduceCtorEq] at h
    rw [hentries] at hnodup ⊢
    exact ⟨readerOf stillEntries, rfl, namelist_readerOf _, fun e he => read_readerOf hnodup he⟩

theorem archiveEntries_still :
    archiveEntries stillLib "zic (tzcode) 2026c".toList stillZones = stillEntries := by
  have hmanifest : ∀ version zones,
      archiveManifest stillLib version zones = archiveManifest closedLib version zones :=
    fun _ _ => rfl
  rw [stillEntries, archiveEntries, archiveEntries, hmanifest]

theorem compiledZones_still : compiledZones stillTree.entries = .ok stillZones := by
  have hall : ∀ names : List (List Char),
      compiledZones (names.map fun name => (name, CompiledEntry.file (ascii "TZif"))) =
        .ok (names.map fun name => (name, ascii "TZif")) := by
    intro names
    induction names with
    | nil => rfl
    | cons name names ih =>
        rw [List.map_cons, compiledZones, if_neg (by decide), ih]
        rfl
  rw [stillTree, stillZones]
  exact hall stillNames

theorem addSource_still {source : String × String} {content : List Byte} (w : WorkDir)
    (hread : stillRead source.1 = some content) (hlength : content.length ≤ 2097152)
    (hdigest : stillLib.sha256 content = source.2) :
    addSource stillLib stillTools stillRead w source = .ok w := by
  have htake : content.take (2097152 + 1) = content := List.take_of_length_le (by omega)
  unfold addSource
  refine bind_eq_ok.2 ⟨content, orTool_eq_ok.2 hread, ?_⟩
  simp only [htake]
  rw [if_neg (not_not.2 hdigest)]
  exact bind_eq_ok.2 ⟨[], rfl, rfl⟩

theorem sources_still : archiveSources.foldlM (addSource stillLib stillTools stillRead) ⟨[], 0⟩ =
    .ok ⟨[], 0⟩ := by
  have hcode := @addSource_still ("tzcode2026c.tar.gz", tzcodeSha256) [] ⟨[], 0⟩ rfl (by decide) rfl
  have hdata := @addSource_still ("tzdata2026c.tar.gz", tzdataSha256) [0] ⟨[], 0⟩ rfl (by decide) rfl
  rw [archiveSources, List.foldlM_cons]
  refine bind_eq_ok.2 ⟨⟨[], 0⟩, hcode, ?_⟩
  rw [List.foldlM_cons]
  exact bind_eq_ok.2 ⟨⟨[], 0⟩, hdata, rfl⟩

theorem length_stillZones : stillZones.length = 598 := by
  rw [stillZones, List.length_map, length_stillNames]

theorem mem_map_stillZones {id : String} (h : id ∈ registeredZoneIds) :
    id.toList ∈ stillZones.map Prod.fst := by
  rw [stillZones, map_fst_pairs]
  exact mem_stillNames h

theorem size_stillZones : (stillZones.map fun z => z.2.length).sum = 598 * 4 := by
  have hsizes : ∀ names : List (List Char), ((names.map fun name => (name, ascii "TZif")).map
      fun z => z.2.length).sum = names.length * 4 := by
    intro names
    induction names with
    | nil => rfl
    | cons name names ih =>
        rw [List.map_cons, List.map_cons, List.sum_cons, ih, List.length_cons]
        have hfour : (ascii "TZif").length = 4 := by decide
        simp only [hfour]
        omega
  rw [stillZones, hsizes, length_stillNames]

theorem stillDigest_stillArchive : stillDigest stillArchive = tzdbArchiveSha256 := by
  have hlong : ∀ n, stillDigest (List.replicate (n + 2) 0) = tzdbArchiveSha256 := fun _ => rfl
  exact hlong 470042

theorem pack_still : stillTools.writeZip
    (archiveEntries stillLib "zic (tzcode) 2026c".toList stillZones) = some stillArchive := by
  rw [archiveEntries_still]
  exact if_pos (beq_self_eq_true _)

theorem build_still : build stillLib stillTools false stillRead =
    .ok (stillArchive, tzdbArchiveSha256) := by
  have hstrip : pyStrip "zic (tzcode) 2026c".toList = "zic (tzcode) 2026c".toList := by decide
  refine build_eq_ok.2 ⟨rfl, _, _, stillTree, stillZones, sources_still, rfl, hstrip, rfl,
    compiledZones_still, ⟨length_stillZones, ?_⟩, ?_, stillDigest_stillArchive.symm⟩
  · rw [size_stillZones]
    decide
  · rw [hstrip]
    exact pack_still

/-- That archive is loaded as the zones it was made of. -/
theorem loadZones_build_still : ∃ archive digest,
    build stillLib stillTools false stillRead = .ok (archive, digest) ∧
      loadZones stillLib (some archive) = .ok (loadedZones stillZones) := by
  refine ⟨_, _, build_still, ?_⟩
  obtain ⟨work, tree, -, htree, -, hpinned⟩ := loadZones_build readsBack_still build_still
  cases htree
  rw [← files_stillTree]
  refine (hpinned ⟨List.length_replicate, rfl⟩).1 fun id hid => ?_
  rw [files_stillTree]
  exact mem_map_stillZones hid

end AstroPassport
