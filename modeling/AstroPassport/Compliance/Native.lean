import AstroPassport.Lib.Except
import AstroPassport.Lib.Json.Bytes
import AstroPassport.Lib.PyBytes
import Mathlib.Data.Finset.Card
import Mathlib.Data.Int.ConditionallyCompleteOrder
import Mathlib.Data.Int.Interval

set_option autoImplicit false

/-! # The cpio members of an RPM

The member loop of `rpm` in `compliance/native.py`, on the decompressed payload. A record is a
header of 110 bytes, a name and, from the next multiple of four, its contents; the next record
begins at the multiple of four after them. The numbers of a header are read by `int(_, 16)`, which
takes a sign, and only the length of the name is checked to be positive: a negative size moves the
cursor back. The loop ends all the same (`cpioMembers_total`), and without a negative size what it
returns are the records of the payload (`cpioMembers_real_iff`).

Termination is not seen from the cursor, which may go back, but from the names: a turn that goes on
adds the name read at its cursor, so that no cursor is met twice, and a header lies near the data.
One turn has one lemma for each way it can go (`turn_eq_moved`, `turn_eq_returned`), and the records
of a payload are described without the loop. Two files, one after the other, show the records, and a
header of negative size the defect. -/

namespace AstroPassport

namespace Compliance

/-! ## The loop -/

/-- What the loop raises. All but `unfinished` are `ValueError`s: those of the source with their
    text, that of `int` and that of `decode`; `unfinished` is a loop out of fuel. -/
inductive CpioRaise where
  | valueError (message : String)
  | intLiteral
  | unicodeDecode
  | unfinished
  deriving DecidableEq

/-- What the loop reads of a header. -/
structure CpioHeader where
  size : ℤ
  namesize : ℤ
  name : List Char
  deriving DecidableEq

/-- The name that ends an archive. -/
def trailer : List Char := "TRAILER!!!".toList

/-- `(x + 3) & ~3`. -/
def align (x : ℤ) : ℤ := (x + 3) / 4 * 4

/-- `int(data[i:j], 16)`. -/
def cpioField (data : List Byte) (i j : ℤ) : Except CpioRaise ℤ :=
  match pyIntHex (pySlice data i j) with
  | some n => .ok n
  | none => .error .intLiteral

/-- `data[i:j].decode()`. -/
def cpioName (data : List Byte) (i j : ℤ) : Except CpioRaise (List Char) :=
  match (decodeUtf8 (pySlice data i j)).bind scalars? with
  | some name => .ok name
  | none => .error .unicodeDecode

/-- The header at the cursor. -/
def headerAt (data : List Byte) (cursor : ℤ) : Except CpioRaise CpioHeader :=
  let magic := pySlice data cursor (cursor + 6)
  if magic ≠ ascii "070701" ∧ magic ≠ ascii "070702" then .error (.valueError "invalid cpio member")
  else do
    let size ← cpioField data (cursor + 54) (cursor + 62)
    let namesize ← cpioField data (cursor + 94) (cursor + 102)
    if ¬(0 < namesize ∧ namesize < 4096) then .error (.valueError "invalid cpio name")
    else do
      let start := cursor + 110
      let name ← cpioName data start (start + namesize - 1)
      pure ⟨size, namesize, name⟩

/-- Where the contents begin. -/
def CpioHeader.start (h : CpioHeader) (cursor : ℤ) : ℤ := align (cursor + 110 + h.namesize)

/-- Where the next header is looked for. -/
def CpioHeader.next (h : CpioHeader) (cursor : ℤ) : ℤ := align (h.start cursor + h.size)

/-- The members collected so far, under their names. -/
abbrev Members := List (List Char × List Byte)

/-- How a turn of the loop ends. -/
inductive CpioTurn where
  | returned
  | moved (cursor : ℤ) (members : Members)

/-- One turn of the loop. -/
def turn (data : List Byte) (cursor : ℤ) (members : Members) : Except CpioRaise CpioTurn := do
  let h ← headerAt data cursor
  let start := h.start cursor
  if (data.length : ℤ) < start + h.size then .error (.valueError "truncated cpio member")
  else if h.name = trailer then .ok .returned
  else if h.name ∈ members.map Prod.fst then .error (.valueError "duplicate cpio member")
  else
    .ok (.moved (h.next cursor) (members ++ [(h.name, pySlice data start (start + h.size))]))

/-- The loop, for at most `fuel` turns. -/
def memberLoop (data : List Byte) : ℕ → ℤ → Members → Except CpioRaise Members
  | fuel, cursor, members =>
    if (data.length : ℤ) < cursor + 110 then .error (.valueError "missing cpio trailer")
    else
      match fuel with
      | 0 => .error .unfinished
      | fuel + 1 => do
        match ← turn data cursor members with
        | .returned => .ok members
        | .moved cursor members => memberLoop data fuel cursor members

/-- `members`, from the payload. -/
def cpioMembers (data : List Byte) (fuel : ℕ) : Except CpioRaise Members :=
  memberLoop data fuel 0 []

/-! ## One turn -/

/-- A header has a magic number, so it does not begin before the data, and a name that is not
    empty. -/
theorem headerAt_bounds {data : List Byte} {cursor : ℤ} {h : CpioHeader}
    (hok : headerAt data cursor = .ok h) : -(data.length : ℤ) ≤ cursor ∧ 0 < h.namesize := by
  unfold headerAt at hok
  dsimp only at hok
  split_ifs at hok with hmagic
  obtain ⟨size, -, hok⟩ := bind_eq_ok.1 hok
  obtain ⟨namesize, -, hok⟩ := bind_eq_ok.1 hok
  split_ifs at hok with hname
  obtain ⟨name, -, hok⟩ := bind_eq_ok.1 hok
  cases hok
  refine ⟨?_, hname.1⟩
  have hlength : (pySlice data cursor (cursor + (6 : ℕ))).length = 6 := by
    rw [not_and_or, not_not, not_not] at hmagic
    rcases hmagic with hmagic | hmagic
    · exact (congrArg List.length hmagic).trans (by decide)
    · exact (congrArg List.length hmagic).trans (by decide)
  exact neg_length_le_of_pySlice hlength (by omega)

/-- A turn that goes on has read a header, whose name is new, and one of its members is what stands
    where the contents should be. -/
theorem turn_eq_moved {data : List Byte} {cursor cursor' : ℤ} {members members' : Members} :
    turn data cursor members = .ok (.moved cursor' members') ↔
      ∃ h, headerAt data cursor = .ok h ∧ h.start cursor + h.size ≤ data.length ∧
        h.name ≠ trailer ∧ h.name ∉ members.map Prod.fst ∧ cursor' = h.next cursor ∧
        members' = members ++
          [(h.name, pySlice data (h.start cursor) (h.start cursor + h.size))] := by
  unfold turn
  rw [bind_eq_ok]
  refine exists_congr fun h => and_congr_right fun _ => ?_
  dsimp only
  by_cases hlong : (data.length : ℤ) < h.start cursor + h.size
  · simp [hlong]
  by_cases htrailer : h.name = trailer
  · simp [hlong, htrailer]
  by_cases hdup : h.name ∈ members.map Prod.fst
  · rw [if_neg hlong, if_neg htrailer, if_pos hdup]
    exact ⟨nofun, fun hall => absurd hdup hall.2.2.1⟩
  · rw [if_neg hlong, if_neg htrailer, if_neg hdup]
    simp only [Except.ok.injEq, CpioTurn.moved.injEq, not_lt.mp hlong, htrailer, hdup, ne_eq,
      not_false_eq_true, true_and, eq_comm]

/-- A turn that ends the loop has read the trailer. -/
theorem turn_eq_returned {data : List Byte} {cursor : ℤ} {members : Members} :
    turn data cursor members = .ok .returned ↔
      ∃ h, headerAt data cursor = .ok h ∧ h.start cursor + h.size ≤ data.length ∧
        h.name = trailer := by
  unfold turn
  rw [bind_eq_ok]
  refine exists_congr fun h => and_congr_right fun _ => ?_
  dsimp only
  by_cases hlong : (data.length : ℤ) < h.start cursor + h.size
  · simp [hlong]
  by_cases htrailer : h.name = trailer
  · simp [hlong, not_lt.mp hlong, htrailer]
  · rw [if_neg hlong, if_neg htrailer]
    refine ⟨fun h => ?_, fun hall => absurd hall.2 htrailer⟩
    split_ifs at h
    cases h

/-- A turn raises a `ValueError` at most. -/
theorem turn_ne_unfinished (data : List Byte) (cursor : ℤ) (members : Members) :
    RaisesOnly (· ≠ CpioRaise.unfinished) (turn data cursor members) := by
  have hfield (i j : ℤ) : RaisesOnly (· ≠ CpioRaise.unfinished) (cpioField data i j) := by
    unfold cpioField
    split <;> simp
  have hname (i j : ℤ) : RaisesOnly (· ≠ CpioRaise.unfinished) (cpioName data i j) := by
    unfold cpioName
    split <;> simp
  have hheader : RaisesOnly (· ≠ CpioRaise.unfinished) (headerAt data cursor) := by
    unfold headerAt
    dsimp only
    split_ifs
    · simp
    · refine (hfield _ _).bind fun size _ => (hfield _ _).bind fun namesize _ => ?_
      split_ifs
      · exact (hname _ _).bind fun name _ => raisesOnly_pure _
      · simp
  unfold turn
  refine hheader.bind fun h _ => ?_
  dsimp only
  split_ifs <;> simp

/-! ## Termination

A turn that goes on adds the name read at its cursor, so no cursor is met twice; and a cursor with a
header lies between the length of the data before its start and the length of the data. -/

/-- No member has the name that is read at the cursor. -/
def isFresh (data : List Byte) (members : Members) (cursor : ℤ) : Bool :=
  match headerAt data cursor with
  | .ok h => decide (h.name ∉ members.map Prod.fst)
  | .error _ => false

/-- The cursors at which a turn may still go on. -/
noncomputable def freshCursors (data : List Byte) (members : Members) : Finset ℤ :=
  (Finset.Icc (-(data.length : ℤ)) data.length).filter fun c => isFresh data members c = true

theorem isFresh_eq_true {data : List Byte} {members : Members} {cursor : ℤ} :
    isFresh data members cursor = true ↔
      ∃ h, headerAt data cursor = .ok h ∧ h.name ∉ members.map Prod.fst := by
  unfold isFresh
  split
  · next h hh => simp only [hh, decide_eq_true_eq, Except.ok.injEq, exists_eq_left']
  · next e he => simp only [he, reduceCtorEq, false_and, exists_false]

/-- A turn that goes on uses up its cursor. -/
theorem freshCursors_lt {data : List Byte} {cursor cursor' : ℤ} {members members' : Members}
    (hcursor : cursor + 110 ≤ data.length)
    (h : turn data cursor members = .ok (.moved cursor' members')) :
    (freshCursors data members').card < (freshCursors data members).card := by
  obtain ⟨header, hheader, -, -, hnew, -, rfl⟩ := turn_eq_moved.1 h
  apply Finset.card_lt_card
  refine Finset.ssubset_iff_subset_ne.mpr ⟨?_, ?_⟩
  · intro c hc
    obtain ⟨hmem, hfresh⟩ := Finset.mem_filter.mp hc
    obtain ⟨header', hheader', hnot⟩ := isFresh_eq_true.1 hfresh
    rw [List.map_append, List.mem_append, not_or] at hnot
    exact Finset.mem_filter.mpr ⟨hmem, isFresh_eq_true.2 ⟨header', hheader', hnot.1⟩⟩
  · intro heq
    have hbefore : cursor ∈ freshCursors data members := by
      refine Finset.mem_filter.mpr ⟨Finset.mem_Icc.mpr ⟨(headerAt_bounds hheader).1, ?_⟩, ?_⟩
      · omega
      · exact isFresh_eq_true.2 ⟨header, hheader, hnew⟩
    rw [← heq] at hbefore
    obtain ⟨header', hheader', hnot⟩ := isFresh_eq_true.1 (Finset.mem_filter.mp hbefore).2
    cases hheader.symm.trans hheader'
    exact hnot (by simp)

/-- With a turn for each fresh cursor and one more the loop ends. -/
theorem memberLoop_ne_unfinished {data : List Byte} {fuel : ℕ} {cursor : ℤ} {members : Members}
    (hfuel : (freshCursors data members).card < fuel) :
    RaisesOnly (· ≠ CpioRaise.unfinished) (memberLoop data fuel cursor members) := by
  induction fuel generalizing cursor members with
  | zero => exact absurd hfuel (Nat.not_lt_zero _)
  | succ fuel ih =>
      unfold memberLoop
      split_ifs with hshort
      · simp
      · refine (turn_ne_unfinished data cursor members).bind fun result hturn => ?_
        cases result with
        | returned => exact raisesOnly_ok members
        | moved cursor' members' =>
            have hless := freshCursors_lt (not_lt.mp hshort) hturn
            exact ih (by omega)

/-- On every payload the loop returns or raises a `ValueError`. -/
theorem cpioMembers_total (data : List Byte) {fuel : ℕ} (h : 2 * data.length + 2 ≤ fuel) :
    RaisesOnly (· ≠ CpioRaise.unfinished) (cpioMembers data fuel) := by
  apply memberLoop_ne_unfinished
  calc (freshCursors data []).card
      ≤ (Finset.Icc (-(data.length : ℤ)) data.length).card := Finset.card_filter_le _ _
    _ = 2 * data.length + 1 := by rw [Int.card_Icc]; omega
    _ < fuel := by omega

/-! ## Records -/

/-- A record of a payload: its cursor, what its header says, its contents. -/
structure CpioRecord where
  cursor : ℕ
  header : CpioHeader
  contents : List Byte

namespace CpioRecord

/-- Where its contents begin. -/
def start (r : CpioRecord) : ℕ := (r.cursor + 110 + r.header.namesize.toNat + 3) / 4 * 4

/-- Where its contents end. -/
def stop (r : CpioRecord) : ℕ := r.start + r.contents.length

/-- Where the record after it begins. -/
def next (r : CpioRecord) : ℕ := (r.stop + 3) / 4 * 4

/-- The record stands in the payload: its header is read at its cursor, and its contents are as long
    as the header says and lie inside. -/
structure IsIn (r : CpioRecord) (data : List Byte) : Prop where
  header : headerAt data r.cursor = .ok r.header
  member : r.header.name ≠ trailer
  size : r.header.size = r.contents.length
  inside : r.stop ≤ data.length
  contents : r.contents = (data.drop r.start).take r.contents.length

theorem cursor_lt_start (r : CpioRecord) : r.cursor < r.start := by
  unfold start
  omega

theorem start_le_stop (r : CpioRecord) : r.start ≤ r.stop := Nat.le_add_right _ _

theorem stop_le_next (r : CpioRecord) : r.stop ≤ r.next := by
  unfold next
  omega

variable {data : List Byte} {r : CpioRecord}

theorem IsIn.start_eq (h : r.IsIn data) : r.header.start r.cursor = r.start := by
  have hpos := (headerAt_bounds h.header).2
  simp only [CpioHeader.start, align, start]
  omega

theorem IsIn.next_eq (h : r.IsIn data) : r.header.next r.cursor = r.next := by
  have hsize := h.size
  simp only [CpioHeader.next, h.start_eq, align, next, stop]
  omega

end CpioRecord

/-- The records follow each other from a cursor to a last one. -/
inductive Follow : ℕ → List CpioRecord → ℕ → Prop where
  | nil (last : ℕ) : Follow last [] last
  | cons {r : CpioRecord} {rest : List CpioRecord} {last : ℕ} : Follow r.next rest last →
      Follow r.cursor (r :: rest) last

/-- No record begins before the cursor. -/
theorem Follow.cursor_le {cursor last : ℕ} {records : List CpioRecord}
    (h : Follow cursor records last) : ∀ r ∈ records, cursor ≤ r.cursor := by
  induction h with
  | nil last => exact nofun
  | @cons r rest last _ ih =>
      intro r' hr'
      rcases List.mem_cons.mp hr' with rfl | hr'
      · exact le_rfl
      · exact (r.cursor_lt_start.trans_le (r.start_le_stop.trans r.stop_le_next)).le.trans (ih r' hr')

/-- Each record ends before the next one begins. -/
theorem Follow.pairwise {cursor last : ℕ} {records : List CpioRecord}
    (h : Follow cursor records last) :
    records.Pairwise fun r r' => r.cursor < r'.cursor ∧ r.stop ≤ r'.cursor := by
  induction h with
  | nil last => exact .nil
  | @cons r rest last hrest ih =>
      refine List.pairwise_cons.mpr ⟨fun r' hr' => ?_, ih⟩
      have hle := hrest.cursor_le r' hr'
      exact ⟨r.cursor_lt_start.trans_le (r.start_le_stop.trans (r.stop_le_next.trans hle)),
        r.stop_le_next.trans hle⟩

/-- At the cursor there is a record, or the end. -/
theorem Follow.cursor_mem {cursor last : ℕ} {records : List CpioRecord}
    (h : Follow cursor records last) : (∃ r ∈ records, r.cursor = cursor) ∨ cursor = last := by
  cases h with
  | nil => exact .inr rfl
  | cons _ => exact .inl ⟨_, List.mem_cons_self .., rfl⟩

/-- After a record there is another one, or the end. -/
theorem Follow.next_mem {cursor last : ℕ} {records : List CpioRecord}
    (h : Follow cursor records last) :
    ∀ r ∈ records, (∃ r' ∈ records, r'.cursor = r.next) ∨ r.next = last := by
  induction h with
  | nil last => exact nofun
  | @cons r rest last hrest ih =>
      intro r' hr'
      rcases List.mem_cons.mp hr' with rfl | hr'
      · rcases hrest.cursor_mem with ⟨r'', hr'', heq⟩ | hlast
        · exact .inl ⟨r'', List.mem_cons_of_mem r' hr'', heq⟩
        · exact .inr hlast
      · rcases ih r' hr' with ⟨r'', hr'', heq⟩ | hlast
        · exact .inl ⟨r'', List.mem_cons_of_mem r hr'', heq⟩
        · exact .inr hlast

/-- The members are the contents of the records from the start of the payload up to its trailer. -/
structure RealMembers (data : List Byte) (members : Members) : Prop where
  real : ∃ (records : List CpioRecord) (last : ℕ), Follow 0 records last ∧
    (∀ r ∈ records, r.IsIn data) ∧
    (∃ h, headerAt data last = .ok h ∧ h.name = trailer) ∧
    members = records.map (fun r => (r.header.name, r.contents)) ∧
    records.Pairwise fun r r' => r.cursor < r'.cursor ∧ r.stop ≤ r'.cursor
  distinct : (members.map Prod.fst).Nodup

/-! ## Negative sizes -/

/-- The cursors the headers lead to. -/
inductive Visited (data : List Byte) : ℤ → Prop where
  | start : Visited data 0
  | next {cursor : ℤ} {h : CpioHeader} : Visited data cursor → headerAt data cursor = .ok h →
      h.name ≠ trailer → Visited data (h.next cursor)

/-- No header before the trailer has a negative size. -/
def SizesNonneg (data : List Byte) : Prop :=
  ∀ cursor h, Visited data cursor → headerAt data cursor = .ok h → h.name ≠ trailer → 0 ≤ h.size

/-- The cursors visited are those of the records and of the trailer. -/
theorem Follow.mem_of_visited {data : List Byte} {records : List CpioRecord} {last : ℕ}
    (h : Follow 0 records last) (hrecords : ∀ r ∈ records, r.IsIn data)
    (hlast : ∃ h, headerAt data last = .ok h ∧ h.name = trailer) {cursor : ℤ}
    (hvisited : Visited data cursor) : (∃ r ∈ records, (r.cursor : ℤ) = cursor) ∨ cursor = last := by
  induction hvisited with
  | start =>
      rcases h.cursor_mem with ⟨r, hr, heq⟩ | heq
      · exact .inl ⟨r, hr, by rw [heq]; rfl⟩
      · exact .inr (by rw [← heq]; rfl)
  | @next cursor header _ hheader hname ih =>
      rcases ih with ⟨r, hr, rfl⟩ | rfl
      · have hin := hrecords r hr
        cases hin.header.symm.trans hheader
        rw [hin.next_eq]
        rcases h.next_mem r hr with ⟨r', hr', heq⟩ | heq
        · exact .inl ⟨r', hr', by rw [heq]⟩
        · exact .inr (by rw [heq])
      · obtain ⟨header', hheader', htrailer⟩ := hlast
        cases hheader.symm.trans hheader'
        exact absurd htrailer hname

/-- Where the members are real, no size is negative. -/
theorem RealMembers.sizesNonneg {data : List Byte} {members : Members}
    (h : RealMembers data members) : SizesNonneg data := by
  obtain ⟨records, last, hfollow, hrecords, hlast, -, -⟩ := h.real
  intro cursor header hvisited hheader hname
  rcases hfollow.mem_of_visited hrecords hlast hvisited with ⟨r, hr, rfl⟩ | rfl
  · have hin := hrecords r hr
    cases hin.header.symm.trans hheader
    rw [hin.size]
    exact Int.natCast_nonneg _
  · obtain ⟨header', hheader', htrailer⟩ := hlast
    cases hheader.symm.trans hheader'
    exact absurd htrailer hname

/-- The record at a cursor whose size is not negative. -/
def recordAt (data : List Byte) (cursor : ℕ) (h : CpioHeader) : CpioRecord :=
  ⟨cursor, h, pySlice data (h.start cursor) (h.start cursor + h.size)⟩

theorem recordAt_isIn {data : List Byte} {cursor : ℕ} {h : CpioHeader}
    (hheader : headerAt data cursor = .ok h) (hname : h.name ≠ trailer) (hsize : 0 ≤ h.size)
    (hfits : h.start cursor + h.size ≤ data.length) : (recordAt data cursor h).IsIn data := by
  have hpos := (headerAt_bounds hheader).2
  obtain ⟨size, hsize⟩ := Int.eq_ofNat_of_zero_le hsize
  have hstart : h.start cursor = (recordAt data cursor h).start := by
    simp only [CpioHeader.start, align, CpioRecord.start, recordAt]
    omega
  rw [hstart, hsize] at hfits
  -- with a size from zero on the slice is exact
  have hfits' : (recordAt data cursor h).start + size ≤ data.length := by omega
  have hcontents : (recordAt data cursor h).contents =
      (data.drop (recordAt data cursor h).start).take size := by
    rw [← pySlice_natCast hfits', ← hstart, ← hsize]
    rfl
  have hlength : (recordAt data cursor h).contents.length = size := by
    rw [hcontents, List.length_take, List.length_drop]
    omega
  refine ⟨hheader, hname, ?_, ?_, ?_⟩
  · rw [hlength]
    exact hsize
  · rw [CpioRecord.stop, hlength]
    exact hfits'
  · rw [hlength]
    exact hcontents

/-- The loop from a cursor it visits, when no size is negative. -/
theorem records_of_memberLoop {data : List Byte} (hsizes : SizesNonneg data) {fuel cursor : ℕ}
    {members result : Members} (hvisited : Visited data cursor)
    (h : memberLoop data fuel cursor members = .ok result) :
    ∃ (records : List CpioRecord) (last : ℕ), Follow cursor records last ∧
      (∀ r ∈ records, r.IsIn data) ∧ (∃ h, headerAt data last = .ok h ∧ h.name = trailer) ∧
      result = members ++ records.map fun r => (r.header.name, r.contents) := by
  induction fuel generalizing cursor members with
  | zero =>
      unfold memberLoop at h
      split_ifs at h
  | succ fuel ih =>
      unfold memberLoop at h
      split_ifs at h with hshort
      obtain ⟨outcome, hturn, h⟩ := bind_eq_ok.1 h
      cases outcome with
      | returned =>
          cases h
          obtain ⟨header, hheader, -, htrailer⟩ := turn_eq_returned.1 hturn
          exact ⟨[], cursor, .nil cursor, nofun, ⟨header, hheader, htrailer⟩, by simp⟩
      | moved cursor' members' =>
          obtain ⟨header, hheader, hfits, hname, -, rfl, rfl⟩ := turn_eq_moved.1 hturn
          -- the size is not negative, so the turn moved forward over its own record
          have hin := recordAt_isIn hheader hname (hsizes _ _ hvisited hheader hname) hfits
          have hnext := hin.next_eq
          have hvisited' : Visited data (recordAt data cursor header).next := by
            rw [← hnext]
            exact .next hvisited hheader hname
          rw [show header.next cursor = (recordAt data cursor header).next from hnext] at h
          obtain ⟨records, last, hfollow, hrecords, hlast, rfl⟩ := ih hvisited' h
          refine ⟨recordAt data cursor header :: records, last, .cons hfollow,
            List.forall_mem_cons.mpr ⟨hin, hrecords⟩, hlast, ?_⟩
          simp [recordAt]

/-- The loop keeps the names of the members apart. -/
theorem memberLoop_nodup {data : List Byte} {fuel : ℕ} {cursor : ℤ} {members result : Members}
    (hnodup : (members.map Prod.fst).Nodup)
    (h : memberLoop data fuel cursor members = .ok result) : (result.map Prod.fst).Nodup := by
  induction fuel generalizing cursor members with
  | zero =>
      unfold memberLoop at h
      split_ifs at h
  | succ fuel ih =>
      unfold memberLoop at h
      split_ifs at h with hshort
      obtain ⟨outcome, hturn, h⟩ := bind_eq_ok.1 h
      cases outcome with
      | returned =>
          cases h
          exact hnodup
      | moved cursor' members' =>
          obtain ⟨header, -, -, -, hnew, -, rfl⟩ := turn_eq_moved.1 hturn
          exact ih (nodup_names_snoc.2 ⟨hnodup, hnew⟩) h

/-- The loop ends on every payload, and what it returns are the records of the payload exactly when
    none of their sizes is negative. -/
theorem cpioMembers_real_iff (data : List Byte) :
    (∀ fuel, 2 * data.length + 2 ≤ fuel →
      (∃ members, cpioMembers data fuel = .ok members) ∨
        ∃ e, cpioMembers data fuel = .error e ∧ e ≠ .unfinished) ∧
    ∀ fuel members, cpioMembers data fuel = .ok members →
      (RealMembers data members ↔ SizesNonneg data) := by
  refine ⟨fun fuel hle => (cpioMembers_total data hle).cases, fun fuel members h => ?_⟩
  have hempty : (([] : Members).map Prod.fst).Nodup := List.nodup_nil
  refine ⟨RealMembers.sizesNonneg, fun hsizes => ⟨?_, memberLoop_nodup hempty h⟩⟩
  have hstart : Visited data ((0 : ℕ) : ℤ) := .start
  obtain ⟨records, last, hfollow, hrecords, hlast, rfl⟩ := records_of_memberLoop hsizes hstart h
  exact ⟨records, last, hfollow, hrecords, hlast, rfl, hfollow.pairwise⟩

/-! ## A payload with a negative size -/

/-- The text of a header up to its checksum, with all other fields zero. -/
def headerText (size namesize : String) : String :=
  "070701000000000000000000000000000000000000000000000000" ++ size ++
    "00000000000000000000000000000000" ++ namesize

/-- The second header begins in the first one, whose size is `-8`. -/
def overlapping : List Byte :=
  ascii (headerText "-0000008" "00000005") ++ ascii "000000" ++
    ascii (headerText "00000000" "0000000b") ++ ascii "00000000" ++ ascii "TRAILER!!!" ++
    [0, 0, 0, 0]

theorem headerAt_overlapping :
    headerAt overlapping 0 = .ok ⟨-8, 5, "0701".toList⟩ := by decide +kernel

/-- The loop returns a member that is no record: its header declares a negative length, and the next
    header lies within its own. -/
theorem cpioMembers_overlap :
    cpioMembers overlapping 2 = .ok [("0701".toList, [])] ∧
      ¬ RealMembers overlapping [("0701".toList, [])] := by
  refine ⟨by decide +kernel, fun hreal => ?_⟩
  have hsize := hreal.sizesNonneg 0 _ .start headerAt_overlapping (by decide)
  exact absurd hsize (by decide)

/-- Two files, the second with a padding byte, and the trailer. -/
def twoFiles : List Byte :=
  ascii (headerText "00000002" "00000002") ++ ascii "00000000" ++ ascii "a" ++ [0] ++
    ascii "hi" ++ [0, 0] ++
    ascii (headerText "00000003" "00000002") ++ ascii "00000000" ++ ascii "b" ++ [0] ++
    ascii "bye" ++ [0] ++
    ascii (headerText "00000000" "0000000b") ++ ascii "00000000" ++ ascii "TRAILER!!!" ++
    [0, 0, 0, 0]

/-- What the loop meets in them, evaluated at one time. -/
theorem turns_twoFiles :
    (headerAt twoFiles 0 = .ok ⟨2, 2, "a".toList⟩ ∧ headerAt twoFiles 116 = .ok ⟨3, 2, "b".toList⟩ ∧
      headerAt twoFiles 232 = .ok ⟨0, 11, trailer⟩) ∧
    cpioMembers twoFiles 3 = .ok [("a".toList, ascii "hi"), ("b".toList, ascii "bye")] := by
  decide +kernel

theorem sizesNonneg_twoFiles : SizesNonneg twoFiles := by
  obtain ⟨hfirst, hsecond, hthird⟩ := turns_twoFiles.1
  have hvisited : ∀ c, Visited twoFiles c → c = 0 ∨ c = 116 ∨ c = 232 := by
    intro c hc
    induction hc with
    | start => exact .inl rfl
    | next _ hheader hname ih =>
        rcases ih with rfl | rfl | rfl
        · cases hfirst.symm.trans hheader
          exact .inr (.inl (by decide))
        · cases hsecond.symm.trans hheader
          exact .inr (.inr (by decide))
        · cases hthird.symm.trans hheader
          exact absurd rfl hname
  intro c h hc hheader hname
  rcases hvisited c hc with rfl | rfl | rfl
  · cases hfirst.symm.trans hheader
    decide
  · cases hsecond.symm.trans hheader
    decide
  · cases hthird.symm.trans hheader
    decide

/-- Both files are members, and their records do not overlap. -/
theorem cpioMembers_real_iff_twoFiles :
    RealMembers twoFiles [("a".toList, ascii "hi"), ("b".toList, ascii "bye")] :=
  ((cpioMembers_real_iff twoFiles).2 3 _ turns_twoFiles.2).mpr sizesNonneg_twoFiles

end Compliance

end AstroPassport
