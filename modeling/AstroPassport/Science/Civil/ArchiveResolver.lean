import AstroPassport.Science.Civil.ArchiveBuild
import AstroPassport.Science.Civil.Replay

set_option autoImplicit false

/-! # The resolver of an archive

`PinnedCivilTimeResolver.__init__`. A resolver that was loaded never misses a zone, and what it
writes into a record's provenance is what the archive holds.

`ZoneInfo` makes a rule of the bytes of a TZif file, or raises; that function is a parameter, and
the files it is given are those of the archive. The resolver of the other module has a zone for
every registered id, so an unknown zone, which that module has to allow for, does not occur after
loading. `load_resolve` says of every record which bytes its digest and its offset come from, and
that the one failure loading leaves open is a file whose bytes are no zone
(`resolve_eq_artifactInvalid`). -/

namespace AstroPassport

/-- The zone file of a member's bytes. -/
def zoneFileOf (lib : ArchiveLib) (readZone : List Byte → Option Zone) (value : List Byte) :
    ZoneFile where
  zone := readZone value
  sha256 := lib.sha256 value
  sha256_isDigest := lib.sha256_isDigest value

theorem covers_of_loadZones {lib : ArchiveLib} {file : Option (List Byte)}
    {zones : List (List CodePoint × List Byte)} (h : loadZones lib file = .ok zones)
    (readZone : List Byte → Option Zone) : ∀ name ∈ registeredZoneIds,
      ((zones.lookup (name.toList.map scalar)).map (zoneFileOf lib readZone)).isSome := by
  intro name hname
  obtain ⟨content, -, -, -, hread⟩ := loadZones_eq_ok.1 h
  obtain ⟨reader, -, hsound⟩ := readArchive_eq_ok.1 hread
  obtain ⟨z, hz, hkey⟩ := List.mem_map.1 (hsound.covers name hname)
  rw [Option.isSome_map, List.lookup_isSome_iff]
  exact ⟨z, hz, by rw [hkey, beq_self_eq_true]⟩

/-- `PinnedCivilTimeResolver.__init__`, in a runtime of a given implementation and version; the zone
    `ZoneInfo.from_file` reads in a TZif file is a parameter. -/
def PinnedCivilTimeResolver.load (lib : ArchiveLib) (readZone : List Byte → Option Zone)
    (isPath : Bool) (implementation version : String) (file : Option (List Byte)) :
    Except LoadRaise PinnedCivilTimeResolver :=
  if isPath = false then .error (.civilTime .invalidInput)
  else if implementation ≠ "CPython" ∨ version ≠ "3.12.14" then
    .error (.civilTime .unsupportedRuntime)
  else
    match h : loadZones lib file with
    | .error e => .error e
    | .ok zones =>
      .ok ⟨fun name => (zones.lookup (name.toList.map scalar)).map (zoneFileOf lib readZone),
        covers_of_loadZones h readZone⟩

theorem PinnedCivilTimeResolver.load_eq_ok {lib : ArchiveLib} {readZone : List Byte → Option Zone}
    {isPath : Bool} {implementation version : String} {file : Option (List Byte)}
    {r : PinnedCivilTimeResolver}
    (h : PinnedCivilTimeResolver.load lib readZone isPath implementation version file = .ok r) :
    ∃ zones, loadZones lib file = .ok zones ∧
      r.zones = fun name => (zones.lookup (name.toList.map scalar)).map (zoneFileOf lib readZone) := by
  unfold PinnedCivilTimeResolver.load at h
  split at h
  · cases h
  split at h
  · cases h
  split at h
  · cases h
  · next zones hzones =>
      cases h
      exact ⟨zones, hzones, rfl⟩

theorem PinnedCivilTimeResolver.load_of_loadZones {lib : ArchiveLib} {file : Option (List Byte)}
    {zones : List (List CodePoint × List Byte)} (h : loadZones lib file = .ok zones)
    (readZone : List Byte → Option Zone) : ∃ r,
    PinnedCivilTimeResolver.load lib readZone true "CPython" "3.12.14" file = .ok r := by
  unfold PinnedCivilTimeResolver.load
  rw [if_neg (by simp), if_neg (by simp)]
  split
  · next e he =>
      rw [h] at he
      cases he
  · exact ⟨_, rfl⟩

/-- The archive holds the bytes for a zone, and its manifest declares their digest. -/
structure Archived (lib : ArchiveLib) (content : List Byte) (tzid : String) (value : List Byte) :
    Prop where
  member : ∃ reader, lib.openZip content = .ok reader ∧
    reader.read (zoneMember (tzid.toList.map scalar)) = .ok value ∧
    ∃ text doc names, reader.read manifestMember = .ok text ∧ jsonDocument text = some doc ∧
      Declares (pyDecode doc) names ∧
      (tzid.toList.map scalar, pyStr (lib.sha256 value).toList) ∈ names
  tzif : isTzif value = true

/-- A zone file of a loaded resolver is a member of the archive. -/
theorem archived_of_zones {lib : ArchiveLib} {content : List Byte} {tzid : String}
    {readZone : List Byte → Option Zone} {zones : List (List CodePoint × List Byte)}
    {file : ZoneFile} (hread : readArchive lib content = .ok zones)
    (h : (zones.lookup (tzid.toList.map scalar)).map (zoneFileOf lib readZone) = some file) :
    ∃ value, Archived lib content tzid value ∧ file = zoneFileOf lib readZone value := by
  obtain ⟨reader, hreader, hsound⟩ := readArchive_eq_ok.1 hread
  obtain ⟨value, hvalue, rfl⟩ := Option.map_eq_some_iff.1 h
  have hmem := mem_of_lookup hvalue
  obtain ⟨text, doc, htext, hdoc, hdeclares⟩ := hsound.declared
  obtain ⟨hcontent, htzif⟩ := hsound.content _ hmem
  exact ⟨value, ⟨⟨reader, hreader, hcontent, text, doc, _, htext, hdoc, hdeclares,
    List.mem_map.2 ⟨_, hmem, rfl⟩⟩, htzif⟩, rfl⟩

/-- What `resolve` refuses as an invalid artifact: the zone of a registered fact, whose file is no
    zone. -/
theorem resolve_eq_artifactInvalid {r : PinnedCivilTimeResolver} {raw : RawBirthInput}
    {boundary : TimezoneBoundaryResult} {foldChoice : Option ℤ}
    (h : r.resolve raw boundary foldChoice = .error (.civilTime .artifactInvalid)) :
    ∃ tzid file, boundary.tzid = some tzid ∧ r.zones tzid = some file ∧ file.zone = none := by
  unfold PinnedCivilTimeResolver.resolve at h
  split at h
  · rcases bind_eq_error.1 h with hsources | ⟨⟨checked, source⟩, hsources, h⟩
    · -- the sources are refused as invalid input, not as an artifact
      unfold checkSources at hsources
      split at hsources
      · split at hsources <;> cases hsources
      · cases hsources
    obtain ⟨-, hregistered, -⟩ := checkSources_eq_ok hsources
    obtain ⟨rfl, -, -, hnames⟩ := validateRegisteredBoundaryFact_eq_some.1 hregistered
    rcases bind_eq_error.1 h with hfile | ⟨file, hfile, h⟩
    · -- the resolver covers what is registered
      unfold PinnedCivilTimeResolver.zoneFile at hfile
      split at hfile
      · next tzid hstatus htzid =>
          split at hfile
          · cases hfile
          · next hnone =>
              have hcovers := r.covers tzid (hnames tzid (by
                rw [TimezoneBoundaryResult.namedIds, htzid]
                simp))
              rw [hnone] at hcovers
              cases hcovers
      · cases hfile
    obtain ⟨-, tzid, htzid, hzones⟩ := PinnedCivilTimeResolver.zoneFile_eq_ok hfile
    refine ⟨tzid, file, htzid, hzones, ?_⟩
    rcases bind_eq_error.1 h with hcandidates | ⟨candidates, -, h⟩
    · unfold zoneCandidates at hcandidates
      split at hcandidates
      · next hnone => exact hnone
      · split at hcandidates <;> cases hcandidates
    rcases bind_eq_error.1 h with hutc | ⟨utc, -, h⟩
    · unfold chooseCandidate at hutc
      split at hutc <;> cases hutc
    · unfold ResolvedCivilTime.modelValidate at h
      repeat' split at h
      all_goals cases h
  · cases h

/-- **From the archive to the record.** In a resolver that was loaded from a file, a resolved record
    names the digests of that file and of the member its zone was read from, which are the ones the
    manifest declares, and its offset is the one of the zone in those bytes. A zone is never
    missing: an invalid artifact is reported only where the bytes of a member are no zone. -/
theorem load_resolve {lib : ArchiveLib} {readZone : List Byte → Option Zone} {isPath : Bool}
    {implementation version : String} {content : List Byte} {r : PinnedCivilTimeResolver}
    (h : PinnedCivilTimeResolver.load lib readZone isPath implementation version (some content) =
      .ok r) (raw : RawBirthInput) (boundary : TimezoneBoundaryResult) (foldChoice : Option ℤ) :
    (∀ record, r.resolve raw boundary foldChoice = .ok record →
      ∃ tzid value zone, boundary.tzid = some tzid ∧ Archived lib content tzid value ∧
        readZone value = some zone ∧ record.boundary = boundary ∧
        record.provenance.tzifSha256 = lib.sha256 value ∧
        record.provenance.archiveSha256 = lib.sha256 content ∧
        record.offsetSeconds * microsPerSecond = zone.rule.off record.utc.naive.micros) ∧
    (r.resolve raw boundary foldChoice = .error (.civilTime .artifactInvalid) →
      ∃ tzid value, boundary.tzid = some tzid ∧ Archived lib content tzid value ∧
        readZone value = none) := by
  obtain ⟨zones, hzones, hr⟩ := PinnedCivilTimeResolver.load_eq_ok h
  obtain ⟨_, hcontent, -, hdigest, hread⟩ := loadZones_eq_ok.1 hzones
  cases hcontent
  refine ⟨fun record hrecord => ?_, fun hinvalid => ?_⟩
  · obtain ⟨-, checked, source, file, candidates, utc, hsources, hfile, hcandidates, hutc, hv⟩ :=
      resolve_eq_ok.1 hrecord
    obtain ⟨hraw, hregistered, hyear⟩ := checkSources_eq_ok hsources
    obtain ⟨rfl, -⟩ := validateRegisteredBoundaryFact_eq_some.1 hregistered
    obtain ⟨rfl, -⟩ := ResolvedCivilTime.modelValidate_eq_ok.1 hv
    obtain ⟨-, tzid, htzid, hfound⟩ := PinnedCivilTimeResolver.zoneFile_eq_ok hfile
    rw [hr] at hfound
    obtain ⟨value, harchived, rfl⟩ := archived_of_zones hread hfound
    -- the bytes of the archive read as a zone, or there was no record
    unfold zoneCandidates at hcandidates
    split at hcandidates
    · cases hcandidates
    · next zone hzone =>
        split at hcandidates
        · cases hcandidates
        · next found hcandidates' =>
            cases hcandidates
            have hwindow : InWindow checked.civil := hyear
            obtain ⟨found', hfound', hcases⟩ := utcCandidates_cases (z := zone) hwindow
            rw [hcandidates', Option.some.injEq] at hfound'
            subst hfound'
            refine ⟨tzid, value, zone, htzid, harchived, hzone, rfl, rfl, hdigest.symm, ?_⟩
            exact resolvedRecord_offset (toLocal_of_chooseCandidate hcases hutc)
  · obtain ⟨tzid, file, htzid, hfound, hnone⟩ := resolve_eq_artifactInvalid hinvalid
    rw [hr] at hfound
    obtain ⟨value, harchived, rfl⟩ := archived_of_zones hread hfound
    exact ⟨tzid, value, htzid, harchived, hnone⟩

/-! ## A loaded resolver -/

theorem loadZones_still :
    loadZones stillLib (some stillArchive) = .ok (loadedZones stillZones) := by
  obtain ⟨hzones, htzif⟩ := compiledZones_eq_ok compiledZones_still
  have hnodup : (stillZones.map Prod.fst).Nodup := by
    rw [hzones]
    exact nodup_files stillTree
  obtain ⟨reader, hreader⟩ := packed_of_writeZip readsBack_still hnodup (fun _ _ => rfl) rfl
    length_stillZones pack_still
  have hread := (readArchive_packed hreader hnodup length_stillZones htzif).1
    fun id hid => mem_map_stillZones hid
  exact loadZones_eq_ok.2
    ⟨_, rfl, List.length_replicate, stillDigest_stillArchive, hread⟩

/-- The record of Sydney's half past two, from an archive whose every zone is Sydney's. -/
theorem load_resolve_sydney : ∃ r record value,
    PinnedCivilTimeResolver.load stillLib (fun _ => some sydneyZone) true "CPython" "3.12.14"
        (some stillArchive) = .ok r ∧
      r.resolve ⟨halfPastTwo.date, .naive halfPastTwo.time, "selected"⟩ sydneyFact (some 0) =
        .ok record ∧
      Archived stillLib stillArchive "Australia/Sydney" value ∧
      record.provenance.tzifSha256 = stillLib.sha256 value ∧
      record.provenance.archiveSha256 = tzdbArchiveSha256 := by
  obtain ⟨r, hr⟩ := PinnedCivilTimeResolver.load_of_loadZones loadZones_still
    fun _ => some sydneyZone
  obtain ⟨zones, -, hzones⟩ := PinnedCivilTimeResolver.load_eq_ok hr
  -- the resolver covers Sydney, and every file of it is read as the same zone
  obtain ⟨-, -, -, hnames⟩ := validateRegisteredBoundaryFact_eq_some.1 sydney_resolvable.registered
  obtain ⟨file, hfile⟩ := Option.isSome_iff_exists.1
    (r.covers "Australia/Sydney" (hnames _ (List.mem_cons_self ..)))
  have hzone : file.zone = some sydneyZone := by
    rw [hzones] at hfile
    obtain ⟨value, -, rfl⟩ := Option.map_eq_some_iff.1 hfile
    rfl
  have hzoneFile : r.zoneFile sydneyFact = .ok file := by
    simp only [PinnedCivilTimeResolver.zoneFile, sydneyFact, hfile]
  obtain ⟨record, _, hrecord, -⟩ := resolve_sydneyZone
    ⟨sydney_resolvable.raw_valid, sydney_resolvable.year, sydney_resolvable.registered, hzoneFile, hzone⟩
  obtain ⟨tzid, value, zone, htzid, harchived, -, -, htzif, harchive, -⟩ :=
    (load_resolve hr _ _ _).1 record hrecord
  cases htzid
  exact ⟨r, record, value, hr, hrecord, harchived, htzif, harchive⟩

end AstroPassport
