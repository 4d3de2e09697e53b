import AstroPassport.Lib.Except
import AstroPassport.Lib.Json.Bytes
import AstroPassport.Science.Boundary
import AstroPassport.Security.Quota
import AstroPassport.Security.UniqueJson

set_option autoImplicit false

/-! # The credentials of `app/security.py`

`authenticate` reads the whole credential file before it looks at the header, so one bad record
denies everyone. The header is compared with every record, digest and key id separately, and the
last record that fits is kept. Among records with distinct key ids there is at most one that fits,
which is why the order of the records does not matter. Pydantic's reading of a date-time and SHA-256
are given.

The file is opened without following links and only used when it is private and small enough
(`privateFile`); what is read is a JSON list of objects with exactly the members of a record. When
the bytes are those of a list of records (`Configured`), the answer is the one record that the
header presents (`Presents`), which has to be enabled and not expired, and otherwise none
(`authenticate_exact`). A file that `json.dumps` wrote is such a file whatever the records are
(`configured_credentialFile`), two of them with one digest included. -/

namespace AstroPassport

/-! ## `private_file` -/

/-- A file that was opened: what `os.fstat` says and what there is to read. -/
structure OpenedFile where
  regular : Bool
  mode : ℕ
  size : ℕ
  owner : ℕ
  data : List Byte

/-- `private_file`; `uid` is that of the process. -/
def privateFile (uid : ℕ) (file : OpenedFile) : Option (List Byte) :=
  if ¬ file.regular ∨ file.mode &&& 0o077 ≠ 0 ∨ 32768 < file.size then none
  else if file.owner ≠ 0 ∧ file.owner ≠ uid then none
  else
    let data := file.data.take 32769
    if 32768 < data.length then none else some data

/-! ## `KeyRecord` -/

/-- A `datetime`: what its own clock shows, in microseconds from the epoch, and its
    `utcoffset()`. -/
structure Expiry where
  clock : ℤ
  utcoffset : Option ℤ

/-- A `KeyRecord` with all its fields. -/
structure Credential extends KeyRecord where
  keyId_hex : isLowerHex 16 keyId = true
  sha256 : String
  expiresAt : Expiry
  enabled : Bool

/-- The parts that stand outside: pydantic's lax `datetime` and `hashlib.sha256(..).hexdigest()`. -/
structure CredentialLib where
  datetime : PyValue → Option Expiry
  sha256Hex : List Byte → String

/-- A `str` field. -/
def textOf : PyValue → Option String
  | .str s => (scalars? s).map String.ofList
  | _ => none

/-- A strict `bool` field. -/
def boolOf : PyValue → Option Bool
  | .bool b => some b
  | _ => none

/-- A strict `int` field. -/
def intOf : PyValue → Option ℤ
  | .int n => some n
  | _ => none

/-- The value of a required member, read as its field is. -/
def member {α : Type} (ms : List (PyKey × PyValue)) (name : String) (read : PyValue → Option α) :
    Option α :=
  (ms.lookup (pyKey name)).bind read

/-- The members of a record of the file. -/
def keyRecordNames : List String :=
  ["key_id", "sha256", "expires_at", "enabled", "scope", "per_minute"]

/-- What the constraints of the fields demand. -/
abbrev KeyFields (keyId scope : String) (perMinute : ℤ) : Prop :=
  isLowerHex 16 keyId = true ∧ scope = "passport:calculate" ∧ 1 ≤ perMinute ∧ perMinute ≤ 60

theorem keyId_of_keyFields {keyId scope : String} {perMinute : ℤ}
    (h : KeyFields keyId scope perMinute) : isLowerHex 16 keyId = true := h.1

theorem one_le_of_keyFields {keyId scope : String} {perMinute : ℤ}
    (h : KeyFields keyId scope perMinute) : 1 ≤ perMinute.toNat := by
  obtain ⟨-, -, hone, -⟩ := h
  omega

theorem le_sixty_of_keyFields {keyId scope : String} {perMinute : ℤ}
    (h : KeyFields keyId scope perMinute) : perMinute.toNat ≤ 60 := by
  obtain ⟨-, -, -, hsixty⟩ := h
  omega

variable (lib : CredentialLib)

/-- `KeyRecord.model_validate`. -/
def keyRecord : PyValue → Option Credential
  | .dict ms =>
    if ms.all fun m => (keyRecordNames.map pyKey).contains m.1 then
      (member ms "key_id" textOf).bind fun keyId =>
      (member ms "sha256" textOf).bind fun sha256 =>
      (member ms "expires_at" lib.datetime).bind fun expiresAt =>
      (member ms "enabled" boolOf).bind fun enabled =>
      (member ms "scope" textOf).bind fun scope =>
      (member ms "per_minute" intOf).bind fun perMinute =>
        if h : KeyFields keyId scope perMinute then
          some { keyId, sha256, expiresAt, enabled, perMinute := perMinute.toNat,
                 keyId_hex := keyId_of_keyFields h, one_le := one_le_of_keyFields h,
                 le_sixty := le_sixty_of_keyFields h }
        else none
    else none
  | _ => none

/-! ## `authenticate` -/

/-- The records of a credential file, or no value for whatever is raised on the way. -/
def credentials (content : List Byte) : Option (List Credential) :=
  match uniqueJson jsonDocument content with
  | some (.list values) =>
    if 1 ≤ values.length ∧ values.length ≤ 16 then
      (values.mapM (keyRecord lib)).bind fun records =>
        if (records.map fun r => r.keyId).dedup.length ≠ records.length then none
        else if records.all fun r => isDigest r.sha256 && decide (r.expiresAt.utcoffset = some 0) then
          some records
        else none
    else none
  | _ => none

/-- `Bearer apt1\.([0-9a-f]{16})\.([0-9a-f]{64})`. -/
def bearer? (authorization : List Char) : Option (String × String) :=
  let keyId := String.ofList ((authorization.drop 12).take 16)
  let secret := String.ofList (authorization.drop 29)
  if authorization.take 12 = "Bearer apt1.".toList ∧ isLowerHex 16 keyId ∧
      (authorization.drop 28).head? = some '.' ∧ isLowerHex 64 secret then some (keyId, secret)
  else none

/-- `now < expires_at`, of an aware `expires_at`. -/
def Expiry.isAfter (e : Expiry) (now : ℤ) : Prop := now < e.clock - e.utcoffset.getD 0

instance (e : Expiry) (now : ℤ) : Decidable (e.isAfter now) := inferInstanceAs (Decidable (_ < _))

/-- The loop over the records. -/
def scan (keyId supplied : String) (now : ℤ) (records : List Credential) : Option Credential :=
  records.foldl (fun found r =>
    if supplied = r.sha256 ∧ r.keyId = keyId ∧ r.enabled = true ∧ r.expiresAt.isAfter now then some r
    else found) none

/-- `authenticate`; there is no file when no path is configured and when opening it fails. -/
def authenticate (uid : ℕ) (file : Option OpenedFile) (authorization : List Char) (now : ℤ) :
    Except SecurityStateError (Option Credential) :=
  match (file.bind (privateFile uid)).bind (credentials lib) with
  | none => .error .unavailable
  | some records =>
    let (keyId, secret) := (bearer? authorization).getD ("", "")
    .ok (scan keyId (lib.sha256Hex (ascii secret)) now records)

/-! ## Configured records and presented ones -/

/-- The members that spell a record, its expiry spelled by `e`. -/
def Credential.spelling (r : Credential) (e : PyValue) : List (PyKey × PyValue) :=
  [(pyKey "key_id", pyStr r.keyId.toList), (pyKey "sha256", pyStr r.sha256.toList),
    (pyKey "expires_at", e), (pyKey "enabled", .bool r.enabled),
    (pyKey "scope", pyStr "passport:calculate".toList), (pyKey "per_minute", .int r.perMinute)]

/-- A value that spells a record: these members, in any order, and no others. -/
def SpellsRecord (v : PyValue) (r : Credential) : Prop :=
  ∃ ms e, v = .dict ms ∧ ms.Perm (r.spelling e) ∧ lib.datetime e = some r.expiresAt

/-- The content of a credential file that configures some records, in its order: JSON without a
    repeated name, a list of 1 to 16 of them, with distinct key ids, digests for secrets and
    expiries in UTC. -/
structure Configured (content : List Byte) (records : List Credential) : Prop where
  spelled : ∃ d values, jsonDocument content = some d ∧ d.standard = true ∧ d.DistinctNames ∧
    pyDecode d = .list values ∧ List.Forall₂ (SpellsRecord lib) values records
  bounded : 1 ≤ records.length ∧ records.length ≤ 16
  nodup : (records.map fun r => r.keyId).Nodup
  digests : ∀ r ∈ records, isDigest r.sha256 = true
  utc : ∀ r ∈ records, r.expiresAt.utcoffset = some 0

/-- What a header has to be for a record, and the record for a time. -/
structure Presents (r : Credential) (authorization : List Char) (now : ℤ) : Prop where
  header : ∃ secret, isDigest secret = true ∧ lib.sha256Hex (ascii secret) = r.sha256 ∧
    authorization = "Bearer apt1.".toList ++ r.keyId.toList ++ '.' :: secret.toList
  enabled : r.enabled = true
  unexpired : r.expiresAt.isAfter now

/-! ## Reading the file -/

section Reading

variable {lib}

@[simp]
theorem textOf_eq_some {v : PyValue} {s : String} : textOf v = some s ↔ v = pyStr s.toList := by
  cases v with
  | str t =>
      simp only [textOf, Option.map_eq_some_iff, pyStr, PyValue.str.injEq]
      constructor
      · rintro ⟨cs, hcs, rfl⟩
        rw [String.toList_ofList, map_scalar_of_scalars? hcs]
      · rintro rfl
        exact ⟨s.toList, scalars?_map_scalar _, String.ofList_toList⟩
  | _ => simp [textOf, pyStr]

@[simp]
theorem boolOf_eq_some {v : PyValue} {b : Bool} : boolOf v = some b ↔ v = .bool b := by
  cases v <;> simp [boolOf]

@[simp]
theorem intOf_eq_some {v : PyValue} {n : ℤ} : intOf v = some n ↔ v = .int n := by
  cases v <;> simp [intOf]

theorem member_eq_some {α : Type} {ms : List (PyKey × PyValue)} {name : String}
    {read : PyValue → Option α} {a : α} :
    member ms name read = some a ↔ ∃ v, ms.lookup (pyKey name) = some v ∧ read v = some a :=
  Option.bind_eq_some_iff

theorem nodup_spelling (r : Credential) (e : PyValue) : ((r.spelling e).map Prod.fst).Nodup := by
  show [pyKey "key_id", pyKey "sha256", pyKey "expires_at", pyKey "enabled", pyKey "scope",
    pyKey "per_minute"].Nodup
  decide

/-- A dictionary is read as the record it spells. -/
theorem keyRecord_dict_eq_some {ms : List (PyKey × PyValue)} {r : Credential}
    (hnodup : (ms.map Prod.fst).Nodup) :
    keyRecord lib (.dict ms) = some r ↔ SpellsRecord lib (.dict ms) r := by
  constructor
  · intro h
    simp only [keyRecord] at h
    split at h
    · next hnames =>
        simp only [Option.bind_eq_some_iff, member_eq_some, textOf_eq_some, boolOf_eq_some,
          intOf_eq_some] at h
        obtain ⟨keyId, ⟨_, hkeyId, rfl⟩, sha256, ⟨_, hsha256, rfl⟩, expiresAt, ⟨e, hexpires, he⟩,
          enabled, ⟨_, henabled, rfl⟩, scope, ⟨_, hscope, rfl⟩, perMinute, ⟨_, hper, rfl⟩, h⟩ := h
        split at h
        · next hvalid =>
            obtain ⟨hhex, rfl, hlow, hhigh⟩ := hvalid
            cases h
            refine ⟨ms, e, rfl, ?_, he⟩
            -- no name outside the six, and each of the six found: the members are a permutation
            refine perm_of_lookup hnodup (nodup_spelling _ e) (fun m hm => ?_) ?_
            · simpa [keyRecordNames, Credential.spelling] using List.all_eq_true.mp hnames m hm
            · have hcast : ((perMinute.toNat : ℕ) : ℤ) = perMinute := by omega
              simp only [Credential.spelling, List.forall_mem_cons, hcast]
              exact ⟨hkeyId, hsha256, hexpires, henabled, hscope, hper, by simp⟩
        · cases h
    · cases h
  · rintro ⟨_, e, heq, hperm, he⟩
    cases heq
    have hlookup : ∀ m ∈ r.spelling e, ms.lookup m.1 = some m.2 := fun m hm =>
      lookup_of_mem hnodup (hperm.symm.subset hm)
    have hnames : (ms.all fun m => (keyRecordNames.map pyKey).contains m.1) = true := by
      refine List.all_eq_true.mpr fun m hm => ?_
      have hmem : m.1 ∈ (r.spelling e).map Prod.fst := List.mem_map_of_mem (hperm.subset hm)
      simpa [keyRecordNames, Credential.spelling] using hmem
    simp only [Credential.spelling, List.forall_mem_cons] at hlookup
    obtain ⟨hkeyId, hsha256, hexpires, henabled, hscope, hper, -⟩ := hlookup
    simp only [keyRecord, hnames, if_true, Option.bind_eq_some_iff, member_eq_some, textOf_eq_some,
      boolOf_eq_some, intOf_eq_some]
    refine ⟨_, ⟨_, hkeyId, rfl⟩, _, ⟨_, hsha256, rfl⟩, _, ⟨e, hexpires, he⟩, _, ⟨_, henabled, rfl⟩,
      _, ⟨_, hscope, rfl⟩, _, ⟨_, hper, rfl⟩, ?_⟩
    have hlow := r.one_le
    have hhigh := r.le_sixty
    rw [dif_pos ⟨r.keyId_hex, rfl, by omega, by omega⟩]
    rfl

theorem keyRecord_pyDecode_eq_some {d : JsonDoc} {r : Credential} :
    keyRecord lib (pyDecode d) = some r ↔ SpellsRecord lib (pyDecode d) r := by
  rcases hv : pyDecode d with _ | b | n | x | s | items | ms
  case dict => exact keyRecord_dict_eq_some (nodup_of_pyDecode hv)
  all_goals
    refine ⟨nofun, ?_⟩
    rintro ⟨_, _, heq, -⟩
    cases heq

theorem mapM_keyRecord_eq_some {ds : List JsonDoc} {records : List Credential} :
    (pyDecodeItems ds).mapM (keyRecord lib) = some records ↔
      List.Forall₂ (SpellsRecord lib) (pyDecodeItems ds) records := by
  rw [mapM_eq_some]
  induction ds generalizing records with
  | nil => simp [pyDecodeItems]
  | cons d ds ih =>
      simp only [pyDecodeItems, List.forall₂_cons_left_iff, keyRecord_pyDecode_eq_some, ih]

theorem length_dedup_eq_iff {α : Type} [DecidableEq α] {l : List α} :
    l.dedup.length = l.length ↔ l.Nodup := by
  refine ⟨fun h => ?_, fun h => by rw [h.dedup]⟩
  have hself : l.dedup = l := (List.dedup_sublist l).eq_of_length h
  exact List.dedup_eq_self.mp hself

theorem checkedRecords_iff {records : List Credential} :
    (records.all fun r => isDigest r.sha256 && decide (r.expiresAt.utcoffset = some 0)) = true ↔
      (∀ r ∈ records, isDigest r.sha256 = true) ∧
        ∀ r ∈ records, r.expiresAt.utcoffset = some 0 := by
  simp only [List.all_eq_true, Bool.and_eq_true, decide_eq_true_eq, forall_and]

/-- The file is read as the records it configures. -/
theorem credentials_eq_some {content : List Byte} {records : List Credential} :
    credentials lib content = some records ↔ Configured lib content records := by
  have hids : ∀ records : List Credential,
      (records.map fun r => r.keyId).dedup.length = records.length ↔
        (records.map fun r => r.keyId).Nodup := by
    intro records
    rw [← length_dedup_eq_iff, List.length_map]
  constructor
  · intro h
    unfold credentials at h
    split at h
    · next values hvalues =>
        obtain ⟨d, hd, hstandard, hdistinct, hdecode⟩ := uniqueJson_eq_some.1 hvalues
        obtain ⟨items, rfl, rfl⟩ := pyDecode_eq_list.1 hdecode.symm
        split at h
        · next hbounded =>
            obtain ⟨_, hrecords, h⟩ := Option.bind_eq_some_iff.mp h
            have hspelled := mapM_keyRecord_eq_some.1 hrecords
            rw [hspelled.length_eq] at hbounded
            split_ifs at h with hlength hall
            cases h
            have hchecks := checkedRecords_iff.1 hall
            exact ⟨⟨_, _, hd, hstandard, hdistinct, rfl, hspelled⟩, hbounded,
              (hids _).mp (not_not.mp hlength), hchecks.1, hchecks.2⟩
        · cases h
    · cases h
  · rintro ⟨⟨d, values, hd, hstandard, hdistinct, hdecode, hspelled⟩, hbounded, hnodup, hdigests,
      hutc⟩
    have hunique : uniqueJson jsonDocument content = some (.list values) :=
      uniqueJson_eq_some.2 ⟨d, hd, hstandard, hdistinct, hdecode.symm⟩
    obtain ⟨items, rfl, rfl⟩ := pyDecode_eq_list.1 hdecode
    have hrecords := mapM_keyRecord_eq_some.2 hspelled
    rw [← hspelled.length_eq] at hbounded
    simp only [credentials, hunique, hbounded, and_self, if_true, hrecords, Option.bind_some]
    rw [if_neg (not_not.mpr ((hids records).mpr hnodup)),
      if_pos (checkedRecords_iff.2 ⟨hdigests, hutc⟩)]

end Reading

/-! ## The header -/

theorem bearer?_eq_some {authorization : List Char} {keyId secret : String} :
    bearer? authorization = some (keyId, secret) ↔
      authorization = "Bearer apt1.".toList ++ keyId.toList ++ '.' :: secret.toList ∧
        isLowerHex 16 keyId = true ∧ isLowerHex 64 secret = true := by
  unfold bearer?
  constructor
  · intro h
    simp only at h
    split at h
    · next hmatch =>
        obtain ⟨hscheme, hkeyId, hpoint, hsecret⟩ := hmatch
        simp only [Option.some.injEq, Prod.mk.injEq] at h
        obtain ⟨rfl, rfl⟩ := h
        refine ⟨?_, hkeyId, hsecret⟩
        have hrest : authorization.drop 28 = '.' :: authorization.drop 29 := by
          rw [← List.cons_head?_tail hpoint, List.tail_drop]
        -- the pieces at 12, 28 and 29 put back together
        calc authorization
            = authorization.take 28 ++ authorization.drop 28 := (List.take_append_drop ..).symm
          _ = authorization.take 12 ++ (authorization.drop 12).take 16 ++
                '.' :: authorization.drop 29 := by rw [hrest, ← List.take_add]
          _ = _ := by simp only [hscheme, String.toList_ofList]
    · cases h
  · rintro ⟨rfl, hkeyId, hsecret⟩
    have hlength : keyId.toList.length = 16 := by
      rw [isLowerHex, Bool.and_eq_true, decide_eq_true_eq] at hkeyId
      exact hkeyId.1
    have hscheme : "Bearer apt1.".toList.length = 12 := by decide
    have hafter : ("Bearer apt1.".toList ++ keyId.toList ++ '.' :: secret.toList).drop 12 =
        keyId.toList ++ '.' :: secret.toList := by
      rw [List.append_assoc, List.drop_left' hscheme]
    have hpoint : ("Bearer apt1.".toList ++ keyId.toList ++ '.' :: secret.toList).drop 28 =
        '.' :: secret.toList := by
      rw [List.drop_left' (by rw [List.length_append, hlength, hscheme])]
    have hbefore : ("Bearer apt1.".toList ++ keyId.toList ++ '.' :: secret.toList).take 12 =
        "Bearer apt1.".toList := by
      rw [List.append_assoc, List.take_left' hscheme]
    have hsecretText : ("Bearer apt1.".toList ++ keyId.toList ++ '.' :: secret.toList).drop 29 =
        secret.toList := by
      rw [← List.tail_drop, hpoint, List.tail_cons]
    simp only [hafter, hpoint, hbefore, hsecretText, List.take_left' hlength, String.ofList_toList,
      List.head?_cons, hkeyId, hsecret, and_self, if_true]

/-! ## The scan -/

/-- A loop that keeps the last element with a property finds the one that has it, if there is
    one. -/
theorem foldl_last_eq_some {α : Type} {p : α → Prop} [DecidablePred p] {xs : List α}
    (hunique : ∀ x ∈ xs, ∀ y ∈ xs, p x → p y → x = y) {found : Option α} {r : α} :
    xs.foldl (fun found x => if p x then some x else found) found = some r ↔
      (r ∈ xs ∧ p r) ∨ (found = some r ∧ ∀ x ∈ xs, ¬ p x) := by
  induction xs generalizing found with
  | nil => simp
  | cons x xs ih =>
      have hbelow : ∀ y ∈ xs, ∀ z ∈ xs, p y → p z → y = z := fun y hy z hz =>
        hunique y (List.mem_cons_of_mem _ hy) z (List.mem_cons_of_mem _ hz)
      rw [List.foldl_cons, ih hbelow, List.forall_mem_cons, List.mem_cons]
      -- the head is found and stays, unless the tail finds it again
      by_cases hx : p x
      · rw [if_pos hx]
        constructor
        · rintro (⟨hr, hp⟩ | ⟨heq, -⟩)
          · exact .inl ⟨.inr hr, hp⟩
          · cases heq
            exact .inl ⟨.inl rfl, hx⟩
        · rintro (⟨hr, hp⟩ | ⟨-, hnone, -⟩)
          · obtain rfl : r = x := hunique r (List.mem_cons.mpr hr) x (List.mem_cons_self ..) hp hx
            by_cases hmem : r ∈ xs
            · exact .inl ⟨hmem, hp⟩
            · refine .inr ⟨rfl, fun y hy hpy => hmem ?_⟩
              rwa [hunique r (List.mem_cons_self ..) y (List.mem_cons_of_mem _ hy) hp hpy]
          · exact absurd hx hnone
      · rw [if_neg hx]
        constructor
        · rintro (⟨hr, hp⟩ | ⟨heq, hnone⟩)
          · exact .inl ⟨.inr hr, hp⟩
          · exact .inr ⟨heq, hx, hnone⟩
        · rintro (⟨rfl | hr, hp⟩ | ⟨heq, -, hnone⟩)
          · exact absurd hp hx
          · exact .inl ⟨hr, hp⟩
          · exact .inr ⟨heq, hnone⟩

theorem scan_eq_some {keyId supplied : String} {now : ℤ} {records : List Credential}
    (hnodup : (records.map fun r => r.keyId).Nodup) {r : Credential} :
    scan keyId supplied now records = some r ↔ r ∈ records ∧ supplied = r.sha256 ∧
      r.keyId = keyId ∧ r.enabled = true ∧ r.expiresAt.isAfter now := by
  unfold scan
  rw [foldl_last_eq_some]
  · simp
  · intro x hx y hy hpx hpy
    exact List.inj_on_of_nodup_map hnodup hx hy (hpx.2.1.trans hpy.2.1.symm)

variable {lib}

/-- What is compared with each record fits the one the header presents. A header of another form
    stands for no key id, and no record has an empty one. -/
theorem presents_iff {r : Credential} {authorization : List Char} {now : ℤ} :
    Presents lib r authorization now ↔
      lib.sha256Hex (ascii ((bearer? authorization).getD ("", "")).2) = r.sha256 ∧
        r.keyId = ((bearer? authorization).getD ("", "")).1 ∧ r.enabled = true ∧
          r.expiresAt.isAfter now := by
  constructor
  · rintro ⟨⟨secret, hsecret, hdigest, hheader⟩, henabled, hunexpired⟩
    rw [bearer?_eq_some.2 ⟨hheader, r.keyId_hex, hsecret⟩]
    exact ⟨hdigest, rfl, henabled, hunexpired⟩
  · rintro ⟨hdigest, hkeyId, henabled, hunexpired⟩
    rcases hbearer : bearer? authorization with _ | ⟨keyId, secret⟩
    · rw [hbearer, Option.getD_none] at hkeyId
      have hhex := r.keyId_hex
      rw [hkeyId] at hhex
      exact absurd hhex (by decide)
    · obtain ⟨hheader, -, hsecret⟩ := bearer?_eq_some.1 hbearer
      rw [hbearer, Option.getD_some] at hkeyId hdigest
      subst hkeyId
      exact ⟨⟨secret, hsecret, hdigest, hheader⟩, henabled, hunexpired⟩

/-! ## The decision -/

/-- The answer, from the configured records. -/
theorem authenticate_of_configured {uid : ℕ} {file : Option OpenedFile} {content : List Byte}
    {records : List Credential} (hcontent : file.bind (privateFile uid) = some content)
    (hrecords : Configured lib content records) (authorization : List Char) (now : ℤ) :
    ∃ found, authenticate lib uid file authorization now = .ok found ∧
      ∀ r, found = some r ↔ r ∈ records ∧ Presents lib r authorization now := by
  have hread : (file.bind (privateFile uid)).bind (credentials lib) = some records := by
    rw [hcontent, Option.bind_some, credentials_eq_some.2 hrecords]
  refine ⟨scan ((bearer? authorization).getD ("", "")).1
    (lib.sha256Hex (ascii ((bearer? authorization).getD ("", "")).2)) now records, ?_, fun r => ?_⟩
  · rw [authenticate, hread]
  · rw [scan_eq_some hrecords.nodup, presents_iff]

/-- `authenticate` raises unless the file configures records; else it returns the one record the
    header presents, whatever the order of the records in the file. -/
theorem authenticate_exact (lib : CredentialLib) (uid : ℕ) (file : Option OpenedFile)
    (authorization : List Char) (now : ℤ) :
    (authenticate lib uid file authorization now = .error .unavailable ↔
      ∀ content records, file.bind (privateFile uid) = some content →
        ¬ Configured lib content records) ∧
    ∀ content records, file.bind (privateFile uid) = some content →
      Configured lib content records →
      ∃ found, authenticate lib uid file authorization now = .ok found ∧
        (∀ r, found = some r ↔ r ∈ records ∧ Presents lib r authorization now) ∧
        ∀ file' content' records', file'.bind (privateFile uid) = some content' →
          Configured lib content' records' → records.Perm records' →
          authenticate lib uid file' authorization now = .ok found := by
  refine ⟨⟨fun hraise content records hcontent hrecords => ?_, fun hnone => ?_⟩, ?_⟩
  · obtain ⟨found, hfound, -⟩ := authenticate_of_configured hcontent hrecords authorization now
    rw [hfound] at hraise
    cases hraise
  · rcases hread : (file.bind (privateFile uid)).bind (credentials lib) with _ | records
    · rw [authenticate, hread]
    · obtain ⟨content, hcontent, hrecords⟩ := Option.bind_eq_some_iff.mp hread
      exact absurd (credentials_eq_some.1 hrecords) (hnone content records hcontent)
  · intro content records hcontent hrecords
    obtain ⟨found, hfound, hiff⟩ := authenticate_of_configured hcontent hrecords authorization now
    refine ⟨found, hfound, hiff, fun file' content' records' hcontent' hrecords' hperm => ?_⟩
    obtain ⟨found', hfound', hiff'⟩ :=
      authenticate_of_configured hcontent' hrecords' authorization now
    -- the same records present the header, and at most one does
    have hsame : found' = found := Option.ext fun r => by
      rw [hiff, hiff', hperm.mem_iff]
    rw [hfound', hsame]

/-! ## A file that `json.dumps` wrote -/

/-- The JSON of a record whose expiry is spelled by a text. -/
def Credential.document (r : Credential) (expiresAt : String) : PlainJson :=
  .obj [("key_id".toList, .str r.keyId.toList), ("sha256".toList, .str r.sha256.toList),
    ("expires_at".toList, .str expiresAt.toList), ("enabled".toList, .bool r.enabled),
    ("scope".toList, .str "passport:calculate".toList), ("per_minute".toList, .int r.perMinute)]

/-- The credential file of records with one expiry. -/
def credentialFile (expiresAt : String) (records : List Credential) : List Byte :=
  ascii (String.ofList
    ((PlainJson.arr (records.map fun r => r.document expiresAt)).dumps .ascii))

theorem distinctKeys_document (r : Credential) (expiresAt : String) :
    (r.document expiresAt).DistinctKeys := by
  refine ⟨?_, by simp [membersDistinctKeys, PlainJson.DistinctKeys]⟩
  show (["key_id", "sha256", "expires_at", "enabled", "scope", "per_minute"].map String.toList).Nodup
  decide

/-- It configures these records. -/
theorem configured_credentialFile {expiresAt : String} {records : List Credential}
    (hexpires : ∀ r ∈ records, lib.datetime (pyStr expiresAt.toList) = some r.expiresAt)
    (hbounded : 1 ≤ records.length ∧ records.length ≤ 16)
    (hnodup : (records.map fun r => r.keyId).Nodup)
    (hdigests : ∀ r ∈ records, isDigest r.sha256 = true)
    (hutc : ∀ r ∈ records, r.expiresAt.utcoffset = some 0) :
    Configured lib (credentialFile expiresAt records) records := by
  have hdistinct : (PlainJson.arr (records.map fun r => r.document expiresAt)).DistinctKeys := by
    rw [PlainJson.DistinctKeys, itemsDistinctKeys_iff]
    intro v hv
    obtain ⟨r, -, rfl⟩ := List.mem_map.mp hv
    exact distinctKeys_document r expiresAt
  refine ⟨⟨_, _, jsonDocument_dumps _, standard_docIn _ _, distinctNames_docIn _ _ hdistinct,
    pyDecode_docIn _ _ hdistinct, ?_⟩, hbounded, hnodup, hdigests, hutc⟩
  rw [itemsToPy_eq_map, List.map_map, List.forall₂_map_left_iff, List.forall₂_same]
  exact fun r hr => ⟨_, pyStr expiresAt.toList, rfl, .refl _, hexpires r hr⟩

/-- SHA-256 of the secret of zeros, and one date. -/
def sampleLib : CredentialLib where
  datetime v :=
    if textOf v = some "2030-01-01T00:00:00Z" then some ⟨1893456000000000, some 0⟩ else none
  sha256Hex bytes :=
    if bytes = List.replicate 64 48 then
      "60e05bd1b195af2f94112fa7197a5c88289058840ce7c6df9693756bc6250f55"
    else "0000000000000000000000000000000000000000000000000000000000000000"

/-- A record that expires at that date. -/
def sampleRecord (keyId sha256 : String) (h : isLowerHex 16 keyId = true) : Credential where
  keyId := keyId
  keyId_hex := h
  sha256 := sha256
  perMinute := 60
  one_le := by decide
  le_sixty := le_rfl
  expiresAt := ⟨1893456000000000, some 0⟩
  enabled := true

/-- Three records, the first two with the digest of one secret. -/
def sampleRecords : List Credential :=
  [sampleRecord "0123456789abcdef"
      "60e05bd1b195af2f94112fa7197a5c88289058840ce7c6df9693756bc6250f55" (by decide),
    sampleRecord "fedcba9876543210"
      "60e05bd1b195af2f94112fa7197a5c88289058840ce7c6df9693756bc6250f55" (by decide),
    sampleRecord "00000000000000aa"
      "3138bb9bc78df27c473ecfd1410f7bd45ebac1f59cf3ff9cfe4db77aab7aedd3" (by decide)]

/-- A private file of records. -/
def sampleFile (records : List Credential) : OpenedFile :=
  ⟨true, 0o600, 600, 0, credentialFile "2030-01-01T00:00:00Z" records⟩

theorem configured_sampleFile {records : List Credential} (h : records.Perm sampleRecords) :
    Configured sampleLib (credentialFile "2030-01-01T00:00:00Z" records) records := by
  have hexpires : ∀ r ∈ sampleRecords,
      sampleLib.datetime (pyStr "2030-01-01T00:00:00Z".toList) = some r.expiresAt := by
    have hdate : sampleLib.datetime (pyStr "2030-01-01T00:00:00Z".toList) =
        some ⟨1893456000000000, some 0⟩ := by simp only [sampleLib, textOf_eq_some.2 rfl, if_true]
    rw [sampleRecords, List.forall_mem_cons, List.forall_mem_cons, List.forall_mem_singleton]
    exact ⟨hdate, hdate, hdate⟩
  refine configured_credentialFile (fun r hr => hexpires r (h.subset hr)) ?_ ?_ (fun r hr => ?_)
    (fun r hr => ?_)
  · rw [h.length_eq]
    decide
  · rw [(h.map _).nodup_iff]
    decide
  · exact (show ∀ r ∈ sampleRecords, isDigest r.sha256 = true by decide) r (h.subset hr)
  · exact (show ∀ r ∈ sampleRecords, r.expiresAt.utcoffset = some 0 by decide) r (h.subset hr)

theorem length_credentialFile (expiresAt : String) (records : List Credential) :
    (credentialFile expiresAt records).length =
      ((PlainJson.arr (records.map fun r => r.document expiresAt)).dumps .ascii).length := by
  simp [credentialFile, ascii]

theorem privateFile_sampleFile {records : List Credential}
    (h : (credentialFile "2030-01-01T00:00:00Z" records).length ≤ 32768) :
    (some (sampleFile records)).bind (privateFile 1000) =
      some (credentialFile "2030-01-01T00:00:00Z" records) := by
  have htake : (credentialFile "2030-01-01T00:00:00Z" records).take 32769 =
      credentialFile "2030-01-01T00:00:00Z" records := List.take_of_length_le (by omega)
  simp [privateFile, sampleFile, htake, h]

/-- The header names the second of two records with one digest; so it stands for that one, wherever
    in the file it is. -/
theorem authenticate_exact_shared :
    let header := "Bearer apt1.fedcba9876543210.".toList ++ List.replicate 64 '0'
    ∃ r, r.keyId = "fedcba9876543210" ∧
      authenticate sampleLib 1000 (some (sampleFile sampleRecords)) header 1893455999999999 =
        .ok (some r) ∧
      authenticate sampleLib 1000 (some (sampleFile sampleRecords.reverse)) header
        1893455999999999 = .ok (some r) := by
  intro header
  have hfile := @privateFile_sampleFile sampleRecords (by
    rw [length_credentialFile]
    decide +kernel)
  have hreversed := @privateFile_sampleFile sampleRecords.reverse (by
    rw [length_credentialFile]
    decide +kernel)
  have hconfigured := configured_sampleFile (.refl sampleRecords)
  obtain ⟨found, hfound, hiff, hperm⟩ := (authenticate_exact sampleLib 1000
    (some (sampleFile sampleRecords)) header 1893455999999999).2 _ _ hfile hconfigured
  let second := sampleRecord "fedcba9876543210"
    "60e05bd1b195af2f94112fa7197a5c88289058840ce7c6df9693756bc6250f55" (by decide)
  -- the first record has the digest too, but not the identifier of the header
  have hsecond : found = some second := by
    refine (hiff second).mpr ⟨.tail _ (.head _), ⟨?_, rfl, by decide⟩⟩
    exact ⟨String.ofList (List.replicate 64 '0'), by decide, by decide,
      by decide⟩
  rw [hsecond] at hfound hperm
  exact ⟨second, rfl, hfound, hperm _ _ _ hreversed
    (configured_sampleFile (List.reverse_perm _)) (List.reverse_perm _).symm⟩

end AstroPassport
