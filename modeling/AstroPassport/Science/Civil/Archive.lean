import AstroPassport.Lib.Json.Bytes
import AstroPassport.Lib.Json.Reading
import AstroPassport.Science.Civil.Tzdb
import AstroPassport.Science.Ephemeris.Adapter
import Mathlib.Data.Finset.Card
import Mathlib.Data.Finset.Dedup

set_option autoImplicit false

/-! # The archive of zone rules

`_load_zones` of `civil/tzdb.py`. The ZIP reader and SHA-256 are parameters. What is accepted is
exactly what `Sound` says (`readArchive_eq_ok`): 598 zones, each a TZif file with the digest the
manifest declares for it, no other member, and every registered id among them.

The code looks at the archive from the outside in: the file is there, its size and digest are the
pinned ones, the manifest, the member names, and then every zone. Each layer has its category, and
inside the archive any exception of the kinds that are listed is an `ARTIFACT_INVALID`. An archive
is a list of members with their bytes, in the order the ZIP reader gives them, and the manifest is
the JSON document in one of them. Since the loop over the members only collects and checks, the
result of an accepted archive is its list of zone files, and the order of the checks does not show
in what is accepted. -/

namespace AstroPassport

/-! ## Reading the archive -/

/-- What reading an archive raises: an exception `_load_zones` expects of a bad archive, a
    `MemoryError`, or another one. -/
inductive ArchiveRaise where
  | invalid
  | memoryError
  | other
  deriving DecidableEq

/-- An open `ZipFile`. -/
structure ZipReader where
  namelist : List (List CodePoint)
  read : List CodePoint → Except ArchiveRaise (List Byte)

/-- `zipfile.ZipFile` on bytes in memory, and `hashlib.sha256(...).hexdigest()`. -/
structure ArchiveLib where
  openZip : List Byte → Except ArchiveRaise ZipReader
  sha256 : List Byte → String
  sha256_isDigest : ∀ bytes, isDigest (sha256 bytes) = true

/-- What `_load_zones` raises. -/
inductive LoadRaise where
  | civilTime (category : CivilTimeFailure)
  | other
  deriving DecidableEq

/-- What `load` makes of an exception of the archive. -/
def ArchiveRaise.toLoad : ArchiveRaise → LoadRaise
  | .invalid => .civilTime .artifactInvalid
  | .memoryError => .civilTime .artifactUnavailable
  | .other => .other

/-- `if not condition: raise ValueError`. -/
def requireArchive (condition : Bool) : Except ArchiveRaise Unit :=
  if condition then .ok () else .error .invalid

/-- `value[name]`: a `KeyError`, or the `TypeError` of what is no dictionary. -/
def subscript (value : PyValue) (name : String) : Except ArchiveRaise PyValue :=
  match value with
  | .dict ms =>
    match ms.lookup (pyKey name) with
    | some v => .ok v
    | none => .error .invalid
  | _ => .error .invalid

/-- `manifest[name] == text`. -/
def requireText (manifest : PyValue) (name text : String) : Except ArchiveRaise Unit := do
  let value ← subscript manifest name
  requireArchive (decide (value.text? = some text))

/-- `BUILD_POLICY`. -/
def buildPolicy : String := "main-backzone-zone.tab-posix-slim.v1"

/-- The dictionary of the two sources and their digests. -/
def isSources : PyValue → Bool
  | .dict ms =>
    decide (ms.length = 2) &&
      decide ((ms.lookup (pyKey "tzdata2026c.tar.gz")).bind PyValue.text? = some tzdataSha256) &&
      decide ((ms.lookup (pyKey "tzcode2026c.tar.gz")).bind PyValue.text? = some tzcodeSha256)
  | _ => false

/-- A member of `manifest["zones"]`; a dictionary of JSON has no other keys. -/
def declaredZone (m : PyKey × PyValue) : Except ArchiveRaise (List CodePoint × PyValue) :=
  match m.1 with
  | .str name => .ok (name, m.2)
  | _ => .error .invalid

/-- The members of `manifest["zones"]`, after the manifest is found to be of this artifact. -/
def manifestZones (manifest : PyValue) : Except ArchiveRaise (List (List CodePoint × PyValue)) := do
  requireText manifest "schema_version" "tzdb-artifact.v1"
  requireText manifest "iana_version" "2026c"
  requireText manifest "build_policy" buildPolicy
  requireText manifest "zic_version" "zic (tzcode) 2026c"
  let sources ← subscript manifest "sources"
  requireArchive (isSources sources)
  let zones ← subscript manifest "zones"
  match zones with
  | .dict ms => do
    requireArchive (decide (ms.length = 598))
    ms.mapM declaredZone
  | _ => .error .invalid

/-- `"manifest.json"`. -/
def manifestMember : List CodePoint := "manifest.json".toList.map scalar

/-- `f"zoneinfo/{name}"`. -/
def zoneMember (name : List CodePoint) : List CodePoint := "zoneinfo/".toList.map scalar ++ name

/-- `value.startswith(b"TZif")`. -/
def isTzif (value : List Byte) : Bool := (ascii "TZif").isPrefixOf value

/-- `json.loads` of a member. -/
def manifestOf (text : List Byte) : Except ArchiveRaise PyValue :=
  match jsonDocument text with
  | some doc => .ok (pyDecode doc)
  | none => .error .invalid

/-- One turn of the loop over `names.items()`. -/
def loadZone (lib : ArchiveLib) (reader : ZipReader) (declared : List CodePoint × PyValue) :
    Except ArchiveRaise (List CodePoint × List Byte) := do
  let value ← reader.read (zoneMember declared.1)
  requireArchive (isTzif value && decide (declared.2.text? = some (lib.sha256 value)))
  pure (declared.1, value)

/-- The body of the second `try`. -/
def readArchive (lib : ArchiveLib) (raw : List Byte) :
    Except ArchiveRaise (List (List CodePoint × List Byte)) := do
  let reader ← lib.openZip raw
  let text ← reader.read manifestMember
  let manifest ← manifestOf text
  let names ← manifestZones manifest
  let expected := (manifestMember :: names.map fun m => zoneMember m.1).toFinset
  requireArchive (decide (reader.namelist.length = expected.card ∧
    reader.namelist.toFinset = expected))
  requireArchive (registeredZoneIds.all fun id => (names.map Prod.fst).contains (id.toList.map scalar))
  names.mapM (loadZone lib reader)

/-- `ARCHIVE_BYTES`. -/
def archiveBytes : ℕ := 470044

/-- `_load_zones`, the file given by its bytes unless it cannot be read. -/
def loadZones (lib : ArchiveLib) (file : Option (List Byte)) :
    Except LoadRaise (List (List CodePoint × List Byte)) :=
  match file with
  | none => .error (.civilTime .artifactUnavailable)
  | some content =>
    let raw := content.take (archiveBytes + 1)
    if raw.length ≠ archiveBytes ∨ lib.sha256 raw ≠ tzdbArchiveSha256 then
      .error (.civilTime .artifactIntegrity)
    else (readArchive lib raw).mapError ArchiveRaise.toLoad

/-! ## What is accepted -/

theorem requireArchive_eq_ok {condition : Bool} {u : Unit} :
    requireArchive condition = .ok u ↔ condition = true := by
  rcases condition with _ | _ <;> simp [requireArchive]

theorem subscript_eq_ok {value v : PyValue} {name : String} :
    subscript value name = .ok v ↔ ∃ ms, value = .dict ms ∧ ms.lookup (pyKey name) = some v := by
  rcases value with _ | b | n | x | s | xs | ms
  all_goals simp only [subscript, reduceCtorEq, false_and, exists_const, PyValue.dict.injEq,
    exists_eq_left']
  split
  · next found hfound => rw [hfound, Except.ok.injEq, Option.some.injEq]
  · next hnone => rw [hnone]; simp

theorem requireText_eq_ok {manifest : PyValue} {name text : String} {u : Unit} :
    requireText manifest name text = .ok u ↔
      ∃ v, subscript manifest name = .ok v ∧ v.text? = some text := by
  simp only [requireText, bind_eq_ok, requireArchive_eq_ok, decide_eq_true_eq]

theorem text?_eq_some {v : PyValue} {text : String} : v.text? = some text ↔ v = pyStr text.toList := by
  rcases v with _ | b | n | x | s | xs | ms
  all_goals simp only [PyValue.text?, pyStr, reduceCtorEq, PyValue.str.injEq]
  rw [Option.map_eq_some_iff]
  constructor
  · rintro ⟨chars, hchars, rfl⟩
    rw [String.toList_ofList, map_scalar_of_scalars? hchars]
  · rintro rfl
    exact ⟨text.toList, scalars?_map_scalar _, String.ofList_toList⟩

theorem declaredZone_eq_ok {m : PyKey × PyValue} {declared : List CodePoint × PyValue} :
    declaredZone m = .ok declared ↔ m = (.str declared.1, declared.2) := by
  obtain ⟨k, v⟩ := m
  obtain ⟨name, digest⟩ := declared
  rcases k with _ | b | n | x | s <;> simp [declaredZone]

/-- The loop over `manifest["zones"]` gives its members back. -/
theorem mapM_declaredZone {ms : List (PyKey × PyValue)} {names : List (List CodePoint × PyValue)} :
    ms.mapM declaredZone = .ok names ↔ ms = names.map fun m => (PyKey.str m.1, m.2) := by
  rw [mapM_eq_ok]
  constructor
  · intro h
    induction h with
    | nil => rfl
    | cons hm _ ih => rw [declaredZone_eq_ok.1 hm, ih, List.map_cons]
  · rintro rfl
    rw [List.forall₂_map_left_iff, List.forall₂_same]
    exact fun m _ => declaredZone_eq_ok.2 rfl

/-- The manifest of this artifact, with the members of its `zones`. -/
structure Declares (manifest : PyValue) (names : List (List CodePoint × PyValue)) : Prop where
  schema : ∃ v, subscript manifest "schema_version" = .ok v ∧ v.text? = some "tzdb-artifact.v1"
  release : ∃ v, subscript manifest "iana_version" = .ok v ∧ v.text? = some "2026c"
  policy : ∃ v, subscript manifest "build_policy" = .ok v ∧ v.text? = some buildPolicy
  compiler : ∃ v, subscript manifest "zic_version" = .ok v ∧ v.text? = some "zic (tzcode) 2026c"
  sources : ∃ v, subscript manifest "sources" = .ok v ∧ isSources v = true
  zones : subscript manifest "zones" = .ok (.dict (names.map fun m => (PyKey.str m.1, m.2)))
  count : names.length = 598

theorem manifestZones_eq_ok {manifest : PyValue} {names : List (List CodePoint × PyValue)} :
    manifestZones manifest = .ok names ↔ Declares manifest names := by
  simp only [manifestZones, bind_eq_ok, requireText_eq_ok, requireArchive_eq_ok]
  constructor
  · rintro ⟨-, hschema, -, hrelease, -, hpolicy, -, hcompiler, v, hv, -, hsources, zones, hzones, h⟩
    split at h
    · obtain ⟨_, hcount, hnames⟩ := bind_eq_ok.1 h
      obtain rfl := mapM_declaredZone.1 hnames
      simp only [requireArchive_eq_ok, List.length_map, decide_eq_true_eq] at hcount
      exact ⟨hschema, hrelease, hpolicy, hcompiler, ⟨v, hv, hsources⟩, hzones, hcount⟩
    · cases h
  · rintro ⟨hschema, hrelease, hpolicy, hcompiler, ⟨v, hv, hsources⟩, hzones, hcount⟩
    refine ⟨(), hschema, (), hrelease, (), hpolicy, (), hcompiler, v, hv, (), hsources, _, hzones, ?_⟩
    refine bind_eq_ok.2 ⟨(), requireArchive_eq_ok.2 ?_, mapM_declaredZone.2 rfl⟩
    rw [List.length_map]
    exact decide_eq_true hcount

theorem loadZone_eq_ok {lib : ArchiveLib} {reader : ZipReader} {declared : List CodePoint × PyValue}
    {zone : List CodePoint × List Byte} :
    loadZone lib reader declared = .ok zone ↔
      declared = (zone.1, pyStr (lib.sha256 zone.2).toList) ∧
        reader.read (zoneMember zone.1) = .ok zone.2 ∧ isTzif zone.2 = true := by
  obtain ⟨name, digest⟩ := declared
  obtain ⟨name', value⟩ := zone
  simp only [loadZone, bind_eq_ok, requireArchive_eq_ok, Bool.and_eq_true, decide_eq_true_eq,
    text?_eq_some, pure, Except.pure, Except.ok.injEq, Prod.mk.injEq]
  constructor
  · rintro ⟨found, hread, -, ⟨htzif, rfl⟩, rfl, rfl⟩
    exact ⟨⟨rfl, rfl⟩, hread, htzif⟩
  · rintro ⟨⟨rfl, rfl⟩, hread, htzif⟩
    exact ⟨value, hread, (), ⟨htzif, rfl⟩, rfl, rfl⟩

/-! ## Soundness -/

/-- The names a manifest declares are distinct. -/
theorem Declares.nodup {doc : JsonDoc} {names : List (List CodePoint × PyValue)}
    (h : Declares (pyDecode doc) names) : (names.map Prod.fst).Nodup := by
  obtain ⟨ms, hms, hlookup⟩ := subscript_eq_ok.1 h.zones
  obtain ⟨d, hd⟩ := exists_doc_of_mem hms (mem_of_lookup hlookup)
  have hnodup := nodup_of_pyDecode hd.symm
  rw [List.map_map] at hnodup
  have hmap : names.map (Prod.fst ∘ fun m => (PyKey.str m.1, m.2)) =
      (names.map Prod.fst).map PyKey.str := by rw [List.map_map]; rfl
  rw [hmap] at hnodup
  exact hnodup.of_map _

theorem zoneMember_injective : Function.Injective zoneMember := by
  unfold zoneMember
  exact List.append_right_injective _

theorem manifestMember_ne (name : List CodePoint) : manifestMember ≠ zoneMember name := by
  have hmanifest : manifestMember = scalar 'm' :: "anifest.json".toList.map scalar := rfl
  have hzone : zoneMember name = scalar 'z' :: ("oneinfo/".toList.map scalar ++ name) := rfl
  rw [hmanifest, hzone]
  intro h
  have hhead := congrArg Fin.val (List.cons.inj h).1
  simp [scalar] at hhead

/-- An archive whose zones may be used. -/
structure Sound (lib : ArchiveLib) (reader : ZipReader) (zones : List (List CodePoint × List Byte)) :
    Prop where
  count : zones.length = 598
  nodup : (zones.map Prod.fst).Nodup
  declared : ∃ text doc, reader.read manifestMember = .ok text ∧ jsonDocument text = some doc ∧
    Declares (pyDecode doc) (zones.map fun z => (z.1, pyStr (lib.sha256 z.2).toList))
  members : reader.namelist.Perm (manifestMember :: zones.map fun z => zoneMember z.1)
  covers : ∀ id ∈ registeredZoneIds, id.toList.map scalar ∈ zones.map Prod.fst
  content : ∀ z ∈ zones, reader.read (zoneMember z.1) = .ok z.2 ∧ isTzif z.2 = true

/-- A list with the members of a duplicate-free one and no more of them is a reordering of it. -/
theorem perm_of_toFinset {α : Type} [DecidableEq α] {xs ys : List α} (hys : ys.Nodup) :
    (xs.length = ys.toFinset.card ∧ xs.toFinset = ys.toFinset) ↔ xs.Perm ys := by
  constructor
  · rintro ⟨hlength, hset⟩
    have hxs : xs.Nodup := by
      rw [← hset] at hlength
      exact List.dedup_eq_self.1 (List.dedup_sublist xs |>.eq_of_length hlength.symm)
    exact List.perm_of_nodup_nodup_toFinset_eq hxs hys hset
  · intro hperm
    rw [List.toFinset_card_of_nodup hys]
    exact ⟨hperm.length_eq, List.toFinset_eq_of_perm _ _ hperm⟩

section Members

variable (lib : ArchiveLib) (zones : List (List CodePoint × List Byte))

theorem map_fst_declared : (zones.map fun z => (z.1, pyStr (lib.sha256 z.2).toList)).map Prod.fst =
    zones.map Prod.fst := by
  rw [List.map_map]
  rfl

theorem map_zoneMember_declared : (zones.map fun z => (z.1, pyStr (lib.sha256 z.2).toList)).map
    (fun m => zoneMember m.1) = zones.map fun z => zoneMember z.1 := by
  rw [List.map_map]
  rfl

variable {zones}

/-- The members of an archive of distinct zones are distinct. -/
theorem nodup_members (hnodup : (zones.map Prod.fst).Nodup) :
    (manifestMember :: zones.map fun z => zoneMember z.1).Nodup := by
  have hzones := hnodup.map zoneMember_injective
  rw [List.map_map] at hzones
  refine List.nodup_cons.2 ⟨?_, hzones⟩
  intro hmem
  obtain ⟨z, -, hz⟩ := List.mem_map.1 hmem
  exact manifestMember_ne z.1 hz.symm

end Members

/-- **What is accepted.** An archive is read exactly when it is sound, as the zones it holds. -/
theorem readArchive_eq_ok {lib : ArchiveLib} {raw : List Byte}
    {zones : List (List CodePoint × List Byte)} :
    readArchive lib raw = .ok zones ↔
      ∃ reader, lib.openZip raw = .ok reader ∧ Sound lib reader zones := by
  simp only [readArchive, manifestOf, bind_eq_ok, manifestZones_eq_ok, requireArchive_eq_ok,
    mapM_eq_ok, decide_eq_true_eq, List.all_eq_true, List.contains_iff_mem]
  -- the loop over the manifest keeps each name and checks the bytes under it
  have hloop : ∀ {reader : ZipReader} {names : List (List CodePoint × PyValue)},
      List.Forall₂ (fun declared zone => loadZone lib reader declared = .ok zone) names zones ↔
        names = zones.map (fun z => (z.1, pyStr (lib.sha256 z.2).toList)) ∧
          ∀ z ∈ zones, reader.read (zoneMember z.1) = .ok z.2 ∧ isTzif z.2 = true := by
    intro reader names
    constructor
    · intro h
      induction h with
      | nil => simp
      | cons hz _ ih =>
          obtain ⟨hdeclared, hcontent⟩ := loadZone_eq_ok.1 hz
          rw [List.map_cons, List.forall_mem_cons, hdeclared, ih.1]
          exact ⟨rfl, hcontent, ih.2⟩
    · rintro ⟨rfl, hcontent⟩
      rw [List.forall₂_map_left_iff, List.forall₂_same]
      exact fun z hz => loadZone_eq_ok.2 ⟨rfl, hcontent z hz⟩
  have hnames := map_fst_declared lib zones
  have hmembers := map_zoneMember_declared lib zones
  constructor
  · rintro ⟨reader, hreader, text, htext, manifest, hmanifest, names, hdeclares, -, hnamelist, -,
      hcovers, hzones⟩
    split at hmanifest
    · next doc hdoc =>
        cases hmanifest
        obtain ⟨rfl, hcontent⟩ := hloop.1 hzones
        have hnodup := hdeclares.nodup
        rw [hnames] at hnodup hcovers
        -- two lists without duplicates and with equal sets are permutations
        rw [hmembers, perm_of_toFinset (nodup_members hnodup)] at hnamelist
        have hcount := hdeclares.count
        rw [List.length_map] at hcount
        exact ⟨reader, hreader, hcount, hnodup, ⟨text, doc, htext, hdoc, hdeclares⟩, hnamelist,
          hcovers, hcontent⟩
    · cases hmanifest
  · rintro ⟨reader, hreader, h⟩
    obtain ⟨text, doc, htext, hdoc, hdeclares⟩ := h.declared
    refine ⟨reader, hreader, text, htext, pyDecode doc, by rw [hdoc], _, hdeclares, (), ?_, (), ?_,
      hloop.2 ⟨rfl, h.content⟩⟩
    · rw [hmembers]
      exact (perm_of_toFinset (nodup_members h.nodup)).2 h.members
    · rw [hnames]
      exact h.covers

/-! ## The file -/

section Load

variable {lib : ArchiveLib} {content : List Byte}

theorem loadZones_pinned (hlength : content.length = archiveBytes)
    (hdigest : lib.sha256 content = tzdbArchiveSha256) :
    loadZones lib (some content) = (readArchive lib content).mapError ArchiveRaise.toLoad := by
  have hwhole : content.take (archiveBytes + 1) = content := List.take_of_length_le (by omega)
  have hgood : ¬(content.length ≠ archiveBytes ∨ lib.sha256 content ≠ tzdbArchiveSha256) := by
    rw [not_or, ne_eq, not_not, ne_eq, not_not]
    exact ⟨hlength, hdigest⟩
  simp only [loadZones, hwhole, if_neg hgood]

/-- One byte more than the archive has is read, so a longer file shows. -/
theorem loadZones_other
    (h : ¬(content.length = archiveBytes ∧ lib.sha256 content = tzdbArchiveSha256)) :
    loadZones lib (some content) = .error (.civilTime .artifactIntegrity) := by
  refine if_pos ?_
  by_cases hlength : content.length = archiveBytes
  · have hwhole : content.take (archiveBytes + 1) = content := List.take_of_length_le (by omega)
    rw [hwhole]
    exact .inr fun hdigest => h ⟨hlength, hdigest⟩
  · refine .inl ?_
    rw [List.length_take]
    omega

theorem loadZones_eq_ok {file : Option (List Byte)} {zones : List (List CodePoint × List Byte)} :
    loadZones lib file = .ok zones ↔ ∃ content, file = some content ∧
      content.length = archiveBytes ∧ lib.sha256 content = tzdbArchiveSha256 ∧
      readArchive lib content = .ok zones := by
  rcases file with _ | content
  · simp [loadZones]
  simp only [Option.some.injEq, exists_eq_left']
  by_cases hpinned : content.length = archiveBytes ∧ lib.sha256 content = tzdbArchiveSha256
  · rw [loadZones_pinned hpinned.1 hpinned.2, mapError_eq_ok]
    exact ⟨fun h => ⟨hpinned.1, hpinned.2, h⟩, fun h => h.2.2⟩
  · rw [loadZones_other hpinned]
    simp only [reduceCtorEq, false_iff]
    exact fun h => hpinned ⟨h.1, h.2.1⟩

end Load

end AstroPassport
