import AstroPassport.Lib.Except
import AstroPassport.Lib.Json.Bytes
import AstroPassport.Lib.PyBytes
import AstroPassport.Lib.Struct

set_option autoImplicit false

/-! # The sections of an ELF file

`elf_sections` in `compliance/native.py`. Offsets, sizes and indices come from the file and lead to
each other: the file header to the section headers, one of them to the string table, each of them to
a name and to contents. A slice of Python is cut short where it leaves the data, so a missing check
would not raise but return too few bytes. The reader is therefore written over the slice it takes:
with slices that refuse to leave the data it is the same function (`elfSectionsBy_exact`), and what
it returns is described by positions in the file alone (`elfSections_eq_ok`).

Every exception the source could meet here is a constructor, those of `struct` and of slicing among
them, and the result says that only a `ValueError` is left: each read of the reader comes after the
check that makes it safe. The description of a file (what it declares, and where) mentions no
function of the reader, so that it can be compared with the format itself. -/

namespace AstroPassport

namespace Compliance

/-! ## The reader -/

/-- What the reader can raise: its own `ValueError`s with their texts and that of `decode`; an
    `IndexError`, a `struct.error` and a slice outside of the data, which are no `ValueError`s. -/
inductive ElfRaise where
  | valueError (message : String)
  | unicodeDecode
  | indexError
  | structError
  | outside
  deriving DecidableEq

/-- A `UnicodeDecodeError` is a `ValueError`. -/
def ElfRaise.isValueError : ElfRaise → Bool
  | .valueError _ => true
  | .unicodeDecode => true
  | _ => false

/-- How `data[i:j]` is taken. -/
abbrev Slicing := List Byte → ℕ → ℕ → Except ElfRaise (List Byte)

/-- As Python does, which cuts off what lies outside. -/
def cutSlice : Slicing := fun data i j => .ok (pySlice data i j)

/-- Only where all of it lies inside. -/
def exactSlice : Slicing := fun data i j =>
  if i ≤ j ∧ j ≤ data.length then .ok ((data.drop i).take (j - i)) else .error .outside

/-- The bytes that a file of the supported class and byte order starts with. -/
def elfMagic : List Byte := 0x7F :: ascii "ELF" ++ [2, 1]

/-- What the file header says of the section headers. -/
structure ElfTable where
  offset : ℕ
  stride : ℕ
  count : ℕ
  namesIndex : ℕ

/-- `<Q` at 40 and `<HHH` at 58. -/
def tableFrom (raw : List Byte) : Except ElfRaise ElfTable :=
  match unpackFrom [8] raw 40, unpackFrom [2, 2, 2] raw 58 with
  | some [offset], some [stride, count, namesIndex] => .ok ⟨offset, stride, count, namesIndex⟩
  | _, _ => .error .structError

/-- A section header. -/
structure SectionHeader where
  name : ℕ
  type : ℕ
  flags : ℕ
  addr : ℕ
  offset : ℕ
  size : ℕ
  link : ℕ
  info : ℕ
  addralign : ℕ
  entsize : ℕ
  deriving DecidableEq

/-- `<IIQQQQIIQQ`. -/
def headerWidths : List ℕ := [4, 4, 8, 8, 8, 8, 4, 4, 8, 8]

/-- `struct.unpack_from("<IIQQQQIIQQ", raw, pos)`. -/
def headerFrom (raw : List Byte) (pos : ℕ) : Except ElfRaise SectionHeader :=
  match unpackFrom headerWidths raw pos with
  | some [name, type, flags, addr, offset, size, link, info, addralign, entsize] =>
    .ok ⟨name, type, flags, addr, offset, size, link, info, addralign, entsize⟩
  | _ => .error .structError

/-- It is not of type `SHT_NOBITS`. -/
def SectionHeader.isStored (item : SectionHeader) : Bool := item.type != 8

/-- The sections collected so far, under their names. -/
abbrev Sections := List (List Char × List Byte)

/-- The text up to the first zero byte. -/
def decodeName (data : List Byte) : Except ElfRaise (List Char) :=
  match (decodeUtf8 (data.takeWhile fun b => b != 0)).bind scalars? with
  | some name => .ok name
  | none => .error .unicodeDecode

/-- One turn of the loop. -/
def collectSection (slice : Slicing) (raw strings : List Byte) (result : Sections)
    (item : SectionHeader) : Except ElfRaise Sections :=
  if item.isStored = false then .ok result
  else if strings.length ≤ item.name then .error (.valueError "invalid ELF section name")
  else do
    let name ← decodeName (← slice strings item.name strings.length)
    if raw.length < item.offset + item.size then .error (.valueError "truncated ELF section")
    else if (result.map Prod.fst).contains name then
      .error (.valueError "duplicate ELF section name")
    else do
      let contents ← slice raw item.offset (item.offset + item.size)
      .ok (result ++ [(name, contents)])

/-- `headers[index]`. -/
def headerNumber (headers : List SectionHeader) (index : ℕ) : Except ElfRaise SectionHeader :=
  match headers[index]? with
  | some item => .ok item
  | none => .error .indexError

/-- The reader, over a way to take slices. -/
def elfSectionsBy (slice : Slicing) (raw : List Byte) : Except ElfRaise Sections :=
  if raw.length < 64 then .error (.valueError "expected ELF64 little-endian")
  else do
    let magic ← slice raw 0 6
    if magic ≠ elfMagic then .error (.valueError "expected ELF64 little-endian")
    else do
      let t ← tableFrom raw
      if t.stride ≠ 64 ∨ t.count = 0 ∨ t.count ≤ t.namesIndex ∨
          raw.length < t.offset + t.stride * t.count then
        .error (.valueError "invalid ELF section table")
      else do
        let headers ← (List.range t.count).mapM fun i => headerFrom raw (t.offset + t.stride * i)
        let names ← headerNumber headers t.namesIndex
        if raw.length < names.offset + names.size then
          .error (.valueError "truncated ELF string table")
        else do
          let strings ← slice raw names.offset (names.offset + names.size)
          headers.foldlM (collectSection slice raw strings) []

/-- `elf_sections`, with the slices of Python. -/
def elfSections (raw : List Byte) : Except ElfRaise Sections := elfSectionsBy cutSlice raw

/-! ## Slices -/

section Slices

variable {data r : List Byte} {i j n : ℕ}

theorem cutSlice_of_le (h : i + n ≤ data.length) :
    cutSlice data i (i + n) = .ok ((data.drop i).take n) :=
  congrArg Except.ok (pySlice_natCast h)

theorem exactSlice_eq_ok :
    exactSlice data i j = .ok r ↔ i ≤ j ∧ j ≤ data.length ∧ (data.drop i).take (j - i) = r := by
  unfold exactSlice
  split_ifs with h
  · simp [h]
  · exact ⟨nofun, fun hall => absurd ⟨hall.1, hall.2.1⟩ h⟩

theorem exactSlice_of_le (h : i + n ≤ data.length) :
    exactSlice data i (i + n) = .ok ((data.drop i).take n) := by
  refine exactSlice_eq_ok.2 ⟨Nat.le_add_right i n, h, ?_⟩
  rw [Nat.add_sub_cancel_left]

/-- The rest of the data. -/
theorem exactSlice_rest (h : i ≤ data.length) : exactSlice data i data.length = .ok (data.drop i) := by
  refine exactSlice_eq_ok.2 ⟨h, le_rfl, List.take_of_length_le ?_⟩
  rw [List.length_drop]

theorem exactSlice_start (h : n ≤ data.length) : exactSlice data 0 n = .ok (data.take n) :=
  exactSlice_eq_ok.2 ⟨Nat.zero_le n, h, rfl⟩

/-- Inside the data the two agree. -/
theorem exactSlice_eq_cutSlice (hij : i ≤ j) (hj : j ≤ data.length) :
    exactSlice data i j = cutSlice data i j := by
  obtain ⟨n, rfl⟩ := Nat.exists_eq_add_of_le hij
  rw [exactSlice_of_le hj, cutSlice_of_le hj]

/-- The checks of a turn keep its slices inside the data. -/
theorem collectSection_exact (raw strings : List Byte) (result : Sections) (item : SectionHeader) :
    collectSection exactSlice raw strings result item =
      collectSection cutSlice raw strings result item := by
  unfold collectSection
  split_ifs with hstored hname hlong
  · rfl
  · rfl
  · rw [exactSlice_eq_cutSlice (not_le.1 hname).le le_rfl]
  · rw [exactSlice_eq_cutSlice (not_le.1 hname).le le_rfl,
      exactSlice_eq_cutSlice (Nat.le_add_right _ _) (not_lt.1 hlong)]

/-- The checks of the reader keep its slices inside the data. -/
theorem elfSectionsBy_exact (raw : List Byte) : elfSectionsBy exactSlice raw = elfSections raw := by
  have hcollect : collectSection exactSlice = collectSection cutSlice := by
    funext raw strings result item
    exact collectSection_exact raw strings result item
  unfold elfSections elfSectionsBy
  rw [hcollect]
  split_ifs with hshort
  · rfl
  · rw [exactSlice_eq_cutSlice (Nat.zero_le 6) (by omega)]
    refine bind_congr fun magic => ?_
    split_ifs
    · rfl
    · refine bind_congr fun t => ?_
      split_ifs
      · rfl
      · refine bind_congr fun headers => bind_congr fun names => ?_
        split_ifs with hlong
        · rfl
        · rw [exactSlice_eq_cutSlice (Nat.le_add_right _ _) (not_lt.1 hlong)]

end Slices

/-! ## What a file declares -/

section Declared

variable (raw : List Byte)

/-- The section table. -/
def declaredTable : ElfTable where
  offset := fieldAt raw 40 8
  stride := fieldAt raw 58 2
  count := fieldAt raw 60 2
  namesIndex := fieldAt raw 62 2

/-- The section header at a position. -/
def sectionHeader (pos : ℕ) : SectionHeader where
  name := fieldAt raw pos 4
  type := fieldAt raw (pos + 4) 4
  flags := fieldAt raw (pos + 8) 8
  addr := fieldAt raw (pos + 16) 8
  offset := fieldAt raw (pos + 24) 8
  size := fieldAt raw (pos + 32) 8
  link := fieldAt raw (pos + 40) 4
  info := fieldAt raw (pos + 44) 4
  addralign := fieldAt raw (pos + 48) 8
  entsize := fieldAt raw (pos + 56) 8

/-- The section headers, one for each index below the count. -/
def declaredHeaders : List SectionHeader :=
  (List.range (declaredTable raw).count).map fun i =>
    sectionHeader raw ((declaredTable raw).offset + 64 * i)

/-- The header of the string table. -/
def namesHeader : SectionHeader :=
  sectionHeader raw ((declaredTable raw).offset + 64 * (declaredTable raw).namesIndex)

/-- The string table. -/
def stringTable : List Byte := (raw.drop (namesHeader raw).offset).take (namesHeader raw).size

/-- The file header, the section headers and the string table lie inside the file. -/
structure HasSections : Prop where
  header : 64 ≤ raw.length
  magic : raw.take 6 = elfMagic
  stride : (declaredTable raw).stride = 64
  namesIndex : (declaredTable raw).namesIndex < (declaredTable raw).count
  table : (declaredTable raw).offset + 64 * (declaredTable raw).count ≤ raw.length
  strings : (namesHeader raw).offset + (namesHeader raw).size ≤ raw.length

/-- What a header stands for: its name begins inside the string table, and its contents lie inside
    the file. -/
structure StoredAs (strings : List Byte) (item : SectionHeader) (entry : List Char × List Byte) :
    Prop where
  name_lt : item.name < strings.length
  name : decodeName (strings.drop item.name) = .ok entry.1
  inside : item.offset + item.size ≤ raw.length
  contents : entry.2 = (raw.drop item.offset).take item.size

end Declared

variable {raw strings : List Byte}

theorem tableFrom_of_le (h : 64 ≤ raw.length) : tableFrom raw = .ok (declaredTable raw) := by
  unfold tableFrom
  rw [unpackFrom_of_le (show 40 + 8 ≤ raw.length by omega),
    unpackFrom_of_le (show 58 + 6 ≤ raw.length from h)]
  rfl

theorem headerFrom_of_le {pos : ℕ} (h : pos + 64 ≤ raw.length) :
    headerFrom raw pos = .ok (sectionHeader raw pos) := by
  unfold headerFrom
  rw [unpackFrom_of_le (show pos + headerWidths.sum ≤ raw.length from h)]
  rfl

/-- With the table inside the file every header is read. -/
theorem mapM_headerFrom (h : (declaredTable raw).offset + 64 * (declaredTable raw).count ≤ raw.length) :
    ((List.range (declaredTable raw).count).mapM fun i =>
      headerFrom raw ((declaredTable raw).offset + 64 * i)) = .ok (declaredHeaders raw) := by
  refine mapM_eq_ok.2 (List.forall₂_map_right_iff.2 (List.forall₂_same.2 fun i hi => ?_))
  rw [List.mem_range] at hi
  exact headerFrom_of_le (by omega)

theorem headerNumber_namesIndex
    (h : (declaredTable raw).namesIndex < (declaredTable raw).count) :
    headerNumber (declaredHeaders raw) (declaredTable raw).namesIndex = .ok (namesHeader raw) := by
  unfold headerNumber declaredHeaders
  rw [List.getElem?_map, List.getElem?_range h]
  rfl

/-! ## What the reader returns -/

/-- A turn passes over a header without contents, or adds what the header stands for. -/
theorem collectSection_eq_ok {result r : Sections} {item : SectionHeader} :
    collectSection exactSlice raw strings result item = .ok r ↔
      (item.isStored = false ∧ r = result) ∨
      (item.isStored = true ∧ ∃ entry, StoredAs raw strings item entry ∧
        entry.1 ∉ result.map Prod.fst ∧ r = result ++ [entry]) := by
  unfold collectSection
  by_cases hstored : item.isStored = false
  · rw [if_pos hstored]
    simp [hstored, eq_comm]
  rw [if_neg hstored]
  rw [Bool.not_eq_false] at hstored
  -- the name starts outside the string table: an error, so no entry
  by_cases hname : strings.length ≤ item.name
  · rw [if_pos hname]
    simp only [reduceCtorEq, hstored, Bool.true_eq_false, false_and, true_and, false_or, false_iff]
    intro h
    obtain ⟨entry, hentry, -, -⟩ := h
    exact absurd hentry.name_lt (not_lt.2 hname)
  rw [if_neg hname, bind_of_eq_ok (exactSlice_rest (not_le.1 hname).le), bind_eq_ok]
  simp only [hstored, Bool.true_eq_false, false_and, true_and, false_or]
  constructor
  · intro h
    obtain ⟨name, hdecode, h⟩ := h
    split_ifs at h with hlong hdup
    rw [bind_of_eq_ok (exactSlice_of_le (not_lt.1 hlong))] at h
    cases h
    rw [List.contains_iff_mem] at hdup
    exact ⟨_, ⟨not_le.1 hname, hdecode, not_lt.1 hlong, rfl⟩, hdup, rfl⟩
  · intro h
    obtain ⟨entry, hentry, hdup, rfl⟩ := h
    rw [← List.contains_iff_mem] at hdup
    refine ⟨entry.1, hentry.name, ?_⟩
    rw [if_neg (not_lt.2 hentry.inside), if_neg hdup,
      bind_of_eq_ok (exactSlice_of_le hentry.inside), ← hentry.contents]

/-- The loop adds one section for each header with contents, and keeps the names apart. -/
theorem collected_eq_ok {headers : List SectionHeader} {result r : Sections}
    (hresult : (result.map Prod.fst).Nodup) :
    headers.foldlM (collectSection exactSlice raw strings) result = .ok r ↔
      ∃ sections, r = result ++ sections ∧
        List.Forall₂ (StoredAs raw strings) (headers.filter (·.isStored)) sections ∧
        (r.map Prod.fst).Nodup := by
  induction headers generalizing result with
  | nil =>
      simp only [List.foldlM_nil, List.filter_nil, List.forall₂_nil_left_iff]
      constructor
      · intro h
        cases h
        exact ⟨[], (List.append_nil _).symm, rfl, hresult⟩
      · intro h
        obtain ⟨sections, rfl, rfl, -⟩ := h
        rw [List.append_nil]
        rfl
  | cons item headers ih =>
      rw [List.foldlM_cons, bind_eq_ok]
      by_cases hstored : item.isStored = false
      · -- nothing is added
        rw [List.filter_cons_of_neg (by simp [hstored]), ← ih hresult]
        simp [collectSection_eq_ok, hstored]
      · rw [Bool.not_eq_false] at hstored
        rw [List.filter_cons_of_pos hstored]
        constructor
        · intro h
          obtain ⟨mid, hmid, h⟩ := h
          rcases collectSection_eq_ok.1 hmid with ⟨hnot, -⟩ | ⟨-, entry, hentry, hnew, rfl⟩
          · rw [hstored] at hnot
            cases hnot
          · obtain ⟨sections, rfl, hsections, hnodup⟩ :=
              (ih (nodup_names_snoc.2 ⟨hresult, hnew⟩)).1 h
            exact ⟨entry :: sections, by simp, .cons hentry hsections, hnodup⟩
        · intro h
          obtain ⟨_, rfl, hall, hnodup⟩ := h
          obtain ⟨entry, sections, hentry, hsections, rfl⟩ := List.forall₂_cons_left_iff.1 hall
          have hsplit : result ++ entry :: sections = (result ++ [entry]) ++ sections := by simp
          have hmid : ((result ++ [entry]).map Prod.fst).Nodup := by
            rw [hsplit, List.map_append] at hnodup
            exact hnodup.of_append_left
          have hnew := (nodup_names_snoc.1 hmid).2
          exact ⟨_, collectSection_eq_ok.2 (.inr ⟨hstored, entry, hentry, hnew, rfl⟩),
            (ih hmid).2 ⟨sections, hsplit, hsections, hnodup⟩⟩

/-- The reader returns the sections of a file, described by positions in it. -/
theorem elfSections_eq_ok {sections : Sections} :
    elfSections raw = .ok sections ↔
      HasSections raw ∧
      List.Forall₂ (StoredAs raw (stringTable raw)) ((declaredHeaders raw).filter (·.isStored))
        sections ∧
      (sections.map Prod.fst).Nodup := by
  have hempty : (([] : Sections).map Prod.fst).Nodup := List.nodup_nil
  rw [← elfSectionsBy_exact, elfSectionsBy]
  constructor
  · intro h
    split_ifs at h with hheader
    rw [not_lt] at hheader
    rw [bind_of_eq_ok (exactSlice_start (show 6 ≤ raw.length by omega))] at h
    split_ifs at h with hmagic
    rw [bind_of_eq_ok (tableFrom_of_le hheader)] at h
    split_ifs at h with htable
    obtain ⟨hstride, -, hindex, hfits⟩ : (declaredTable raw).stride = 64 ∧ _ ∧ _ ∧ _ := by
      simpa only [not_or, not_not, not_le, not_lt] using htable
    rw [hstride] at hfits h
    rw [bind_of_eq_ok (mapM_headerFrom hfits), bind_of_eq_ok (headerNumber_namesIndex hindex)] at h
    split_ifs at h with hstrings
    rw [not_lt] at hstrings
    rw [bind_of_eq_ok (exactSlice_of_le hstrings)] at h
    obtain ⟨_, rfl, hsections, hnodup⟩ := (collected_eq_ok hempty).1 h
    exact ⟨⟨hheader, not_not.1 hmagic, hstride, hindex, hfits, hstrings⟩, hsections, hnodup⟩
  · intro h
    obtain ⟨hform, hsections, hnodup⟩ := h
    rw [if_neg (not_lt.2 hform.header),
      bind_of_eq_ok (exactSlice_start (le_trans (by omega) hform.header)),
      if_neg (not_not.2 hform.magic), bind_of_eq_ok (tableFrom_of_le hform.header), if_neg,
      hform.stride, bind_of_eq_ok (mapM_headerFrom hform.table),
      bind_of_eq_ok (headerNumber_namesIndex hform.namesIndex), if_neg (not_lt.2 hform.strings),
      bind_of_eq_ok (exactSlice_of_le hform.strings)]
    · exact (collected_eq_ok hempty).2 ⟨sections, rfl, hsections, hnodup⟩
    · have hindex := hform.namesIndex
      rw [hform.stride]
      simp only [not_or, not_not, not_le, not_lt, true_and, ne_eq]
      exact ⟨by omega, hindex, hform.table⟩

/-- Nothing but `ValueError`s is raised: no read and no index leaves the data. -/
theorem elfSections_raises (raw : List Byte) :
    RaisesOnly (fun e => e.isValueError = true) (elfSections raw) := by
  have hname (data : List Byte) :
      RaisesOnly (fun e => e.isValueError = true) (decodeName data) := by
    unfold decodeName
    split <;> simp [ElfRaise.isValueError]
  have hcollect (strings : List Byte) (headers : List SectionHeader) (result : Sections) :
      RaisesOnly (fun e => e.isValueError = true)
        (headers.foldlM (collectSection cutSlice raw strings) result) := by
    induction headers generalizing result with
    | nil => exact raisesOnly_ok result
    | cons item headers ih =>
        rw [List.foldlM_cons]
        refine RaisesOnly.bind ?_ fun mid _ => ih mid
        unfold collectSection
        split_ifs
        · exact raisesOnly_ok result
        · exact raisesOnly_error.2 rfl
        · exact (raisesOnly_ok _).bind fun rest _ =>
            (hname rest).bind fun name _ => raisesOnly_error.2 rfl
        · refine (raisesOnly_ok _).bind fun rest _ => (hname rest).bind fun name _ => ?_
          split_ifs
          · exact raisesOnly_error.2 rfl
          · exact (raisesOnly_ok _).bind fun contents _ => raisesOnly_ok _
  unfold elfSections elfSectionsBy
  split_ifs with hheader
  · exact raisesOnly_error.2 rfl
  refine (raisesOnly_ok _).bind fun magic _ => ?_
  split_ifs
  · exact raisesOnly_error.2 rfl
  refine RaisesOnly.bind_of_ok (tableFrom_of_le (not_lt.1 hheader)) ?_
  split_ifs with htable
  · exact raisesOnly_error.2 rfl
  -- the section headers lie inside the file, and so does the one of the string table
  simp only [not_or, not_not, not_le, not_lt] at htable
  obtain ⟨hstride, -, hindex, hfits⟩ := htable
  rw [hstride] at hfits ⊢
  refine RaisesOnly.bind_of_ok (mapM_headerFrom hfits) ?_
  refine RaisesOnly.bind_of_ok (headerNumber_namesIndex hindex) ?_
  split_ifs
  · exact raisesOnly_error.2 rfl
  · exact (raisesOnly_ok _).bind fun strings _ => hcollect strings _ _

/-- **The reader stays inside its input.** On every file it returns or raises a `ValueError`; no
    slice it takes is cut short; and what it returns is one entry for each section header with
    contents, in their order, under distinct names from the string table, each with the bytes of its
    range. -/
theorem elfSections_inside (raw : List Byte) :
    ((∃ sections, elfSections raw = .ok sections) ∨
      ∃ e, elfSections raw = .error e ∧ e.isValueError = true) ∧
    elfSectionsBy exactSlice raw = elfSections raw ∧
    ∀ sections, elfSections raw = .ok sections ↔
      HasSections raw ∧
      List.Forall₂ (StoredAs raw (stringTable raw)) ((declaredHeaders raw).filter (·.isStored))
        sections ∧
      (sections.map Prod.fst).Nodup :=
  ⟨(elfSections_raises raw).cases, elfSectionsBy_exact raw, fun _ => elfSections_eq_ok⟩

/-- A string table as the only section, after the null header. -/
def onlyStrings : List Byte :=
  elfMagic ++ List.replicate 34 0 ++ (64 :: List.replicate 17 0) ++ [64, 0, 2, 0, 1, 0] ++
    List.replicate 64 0 ++ ([1, 0, 0, 0, 3] ++ List.replicate 19 0) ++ (192 :: List.replicate 7 0) ++
    (11 :: List.replicate 31 0) ++ (0 :: ascii ".shstrtab" ++ [0])

example : elfSections onlyStrings =
    .ok [([], []), (".shstrtab".toList, 0 :: ascii ".shstrtab" ++ [0])] := by decide +kernel

end Compliance

end AstroPassport
