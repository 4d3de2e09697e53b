import AstroPassport.Compliance.Bundle

set_option autoImplicit false

/-! # Publication is safe in every order of steps

A call that has created the partial file owns it until it takes the name away: the name stays with
that file, so no other call can create one, and every other call leaves the directory as it is. The
final name is only ever given while it is free, to a file that its owner has verified and nobody
writes to any more. From this follow, for every run, that what is published has the locked size and
digest and stays, that a call removes its own partial file once and no other, and that what a call
returns is published and was accepted by `verify` (`acquire_publishes`).

What a call relies on is `Own`, by its place in the program (`Pc.status`, `Pc.Knows`), and two calls
are `Apart` when they do not both own a partial file. A step guarantees enough to keep every call
apart from it (`Guarantee`): steps that leave the directory as it is disturb nobody, and the few
that change it are an owner's. A file of one byte, asked for by two calls, goes through both
outcomes. -/

namespace AstroPassport

namespace Compliance

variable {sha256 : List Byte → String} {lock : Lock} {lib : StandardLib}

/-! ## What the cache is for -/

/-- The content that is locked. -/
def Lock.Accepts (sha256 : List Byte → String) (lock : Lock) (content : List Byte) : Prop :=
  content.length = lock.size ∧ sha256 content = lock.digest

/-! ## What `verify` has established -/

/-- A name is of a regular file with accepted content. -/
def Holds (sha256 : List Byte → String) (lock : Lock) (fs : Cache) (name : CacheName)
    (content : List Byte) : Prop :=
  fs.read? name = some content ∧ lock.Accepts sha256 content

/-- What a run of `verify` knows of a name that keeps what it leads to. -/
def Verify.Knows (lock : Lock) (fs : Cache) (name : CacheName) : Verify → Prop
  | .isSymlink => fs.entries name ≠ none
  | .isFile => ∃ e, fs.entries name = some e ∧ ∀ target, e ≠ .symlink target
  | .stat => ∃ i, fs.entries name = some (.file i)
  | .openFile => ∃ i, fs.entries name = some (.file i) ∧ (fs.contents i).length = lock.size
  | .read i seen =>
    fs.entries name = some (.file i) ∧ (fs.contents i).length = lock.size ∧ seen <+: fs.contents i

section Verify

variable {fs fs' : Cache} {name : CacheName} {v : Verify}

theorem resolve_of_file {i : ℕ} (h : fs.entries name = some (.file i)) : fs.resolve name = some i :=
  Option.bind_eq_some_iff.2 ⟨_, h, rfl⟩

theorem Holds.keeps {content : List Byte} (h : Holds sha256 lock fs name content)
    (hkeeps : fs.Keeps fs' name) : Holds sha256 lock fs' name content :=
  ⟨hkeeps.read? h.1, h.2⟩

/-- What may happen to the final name: once it stands for something it is kept, and what takes it is
    a file with the locked content. -/
structure Publishes (sha256 : List Byte → String) (lock : Lock) (fs fs' : Cache) : Prop where
  keeps : fs.Keeps fs' .path
  entry : fs'.entries .path = fs.entries .path ∨
    fs.entries .path = none ∧ ∃ content, Holds sha256 lock fs' .path content

theorem Publishes.refl (fs : Cache) : Publishes sha256 lock fs fs :=
  ⟨.refl fs .path, .inl rfl⟩

theorem Publishes.trans {fs'' : Cache} (h : Publishes sha256 lock fs fs')
    (h' : Publishes sha256 lock fs' fs'') : Publishes sha256 lock fs fs'' := by
  refine ⟨h.keeps.trans h'.keeps, ?_⟩
  rcases h.entry with hsame | ⟨hfree, content, hcontent⟩
  · rw [← hsame]
    exact h'.entry
  · exact .inr ⟨hfree, content, hcontent.keeps h'.keeps⟩

/-- What is known stays known. -/
theorem Verify.Knows.keeps (h : v.Knows lock fs name) (hkeeps : fs.Keeps fs' name) :
    v.Knows lock fs' name := by
  cases v with
  | isSymlink =>
      obtain ⟨e, he⟩ := Option.ne_none_iff_exists'.1 h
      exact Option.ne_none_iff_exists'.2 ⟨e, hkeeps.entry e he⟩
  | isFile =>
      obtain ⟨e, he, hno⟩ := h
      exact ⟨e, hkeeps.entry e he, hno⟩
  | stat =>
      obtain ⟨i, hi⟩ := h
      exact ⟨i, hkeeps.entry _ hi⟩
  | openFile =>
      obtain ⟨i, hi, hlength⟩ := h
      refine ⟨i, hkeeps.entry _ hi, ?_⟩
      rw [hkeeps.contents i (resolve_of_file hi)]
      exact hlength
  | read i seen =>
      obtain ⟨hi, hlength, hseen⟩ := h
      refine ⟨hkeeps.entry _ hi, ?_, ?_⟩
      · rw [hkeeps.contents i (resolve_of_file hi)]
        exact hlength
      · rw [hkeeps.contents i (resolve_of_file hi)]
        exact hseen

/-- A step of `verify` adds to what is known. -/
theorem Verify.Knows.next {v' : Verify} (h : v.Knows lock fs name)
    (hstep : verifyStep sha256 lock fs name v = .next v') : v'.Knows lock fs name := by
  cases v with
  | isSymlink =>
      obtain ⟨e, he⟩ := Option.ne_none_iff_exists'.1 h
      rw [verifyStep] at hstep
      split_ifs at hstep with hlink
      cases hstep
      refine ⟨e, he, fun target heq => hlink ?_⟩
      subst heq
      rw [FileSystem.isSymlink, he]
  | isFile =>
      obtain ⟨e, he, hno⟩ := h
      rw [verifyStep] at hstep
      split_ifs at hstep with hfile
      cases hstep
      -- an entry that leads to a file and is no link
      obtain ⟨i, hi⟩ := Option.isSome_iff_exists.1 hfile
      rw [FileSystem.resolve, he] at hi
      cases e with
      | file j => exact ⟨j, he⟩
      | symlink target => exact absurd rfl (hno target)
      | directory => cases hi
  | stat =>
      obtain ⟨i, hi⟩ := h
      rw [verifyStep] at hstep
      rw [resolve_of_file hi] at hstep
      dsimp only at hstep
      split_ifs at hstep with hlength
      cases hstep
      exact ⟨i, hi, not_not.1 hlength⟩
  | openFile =>
      obtain ⟨i, hi, hlength⟩ := h
      rw [verifyStep] at hstep
      rw [resolve_of_file hi] at hstep
      cases hstep
      exact ⟨hi, hlength, List.nil_prefix⟩
  | read i seen =>
      obtain ⟨hi, hlength, rest, hrest⟩ := h
      rw [verifyStep] at hstep
      split_ifs at hstep with hblock
      cases hstep
      refine ⟨hi, hlength, ?_⟩
      -- the block is what follows in the file
      rw [← hrest, List.drop_left, List.prefix_append_right_inj]
      exact List.take_prefix _ _

/-- `verify` accepts what stands under the name, all of it. -/
theorem Verify.Knows.accepted {content : List Byte} (h : v.Knows lock fs name)
    (hstep : verifyStep sha256 lock fs name v = .accepted content) :
    Holds sha256 lock fs name content := by
  cases v with
  | isSymlink =>
      rw [verifyStep] at hstep
      split_ifs at hstep
  | isFile =>
      rw [verifyStep] at hstep
      split_ifs at hstep
  | stat =>
      obtain ⟨i, hi⟩ := h
      rw [verifyStep] at hstep
      rw [resolve_of_file hi] at hstep
      dsimp only at hstep
      split_ifs at hstep
  | openFile =>
      obtain ⟨i, hi, -⟩ := h
      rw [verifyStep] at hstep
      rw [resolve_of_file hi] at hstep
      cases hstep
  | read i seen =>
      obtain ⟨hi, hlength, rest, hrest⟩ := h
      rw [verifyStep] at hstep
      split_ifs at hstep with hblock hdigest
      cases hstep
      -- nothing follows what was read
      rw [not_not, ← hrest, List.drop_left, List.take_eq_nil_iff] at hblock
      have hend : rest = [] := hblock.resolve_left (by decide)
      rw [hend, List.append_nil] at hrest
      rw [← hrest] at hlength
      refine ⟨?_, hlength, not_not.1 hdigest⟩
      rw [FileSystem.read?, hi, hrest]

end Verify

/-! ## What a call relies on -/

/-- The part of a call that its partial file is about; a call that is gone was killed or is
    stranded. -/
inductive Status where
  | before
  | owns (inode : ℕ)
  | ended
  | gone
  deriving DecidableEq

/-- Whether a call at this point has its partial file, and which inode that is. -/
def Pc.status : Pc → Status
  | .download i _ _ => .owns i
  | .close i _ _ => .owns i
  | .verifyTemporary i _ => .owns i
  | .hardlink i _ => .owns i
  | .verifyPublished i _ => .owns i
  | .unlink i _ => .owns i
  | .returned _ => .ended
  | .raised => .ended
  | .stranded => .gone
  | .killed => .gone
  | _ => .before

/-- The file a call writes to. -/
def Pc.written : Pc → Option ℕ
  | .download i _ _ => some i
  | .close i _ _ => some i
  | _ => none

/-- What a call knows where it is. -/
def Pc.Knows (sha256 : List Byte → String) (lock : Lock) (fs : Cache) : Pc → Prop
  | .verifyPath v => v.Knows lock fs .path
  | .verifyTemporary _ v => v.Knows lock fs .temporary
  | .hardlink _ content => Holds sha256 lock fs .temporary content
  | .verifyPublished _ v => v.Knows lock fs .path
  | .unlink _ (.returns content) => Holds sha256 lock fs .path content
  | .returned content => Holds sha256 lock fs .path content
  | _ => True

/-- What a call has created and removed. -/
def Status.Accounts (created : List ℕ) (removed : List DirEntry) : Status → Prop
  | .before => created = [] ∧ removed = []
  | .owns i => created = [i] ∧ removed = []
  | .ended => created.length ≤ 1 ∧ removed = created.map .file
  | .gone => created.length ≤ 1 ∧ removed = []

theorem Status.Accounts.length_le {status : Status} {created : List ℕ} {removed : List DirEntry}
    (h : status.Accounts created removed) : created.length ≤ 1 := by
  cases status with
  | before => exact h.1 ▸ Nat.zero_le 1
  | owns i => exact h.1 ▸ le_rfl
  | ended => exact h.1
  | gone => exact h.1

theorem Status.Accounts.removed_eq_nil {status : Status} {created : List ℕ}
    {removed : List DirEntry} (h : status.Accounts created removed) (hstatus : status ≠ .ended) :
    removed = [] := by
  cases status with
  | before => exact h.2
  | owns i => exact h.2
  | ended => exact absurd rfl hstatus
  | gone => exact h.2

/-- What a call relies on: while it owns its partial file the name is of that file; nothing it
    writes to is published. -/
structure Own (sha256 : List Byte → String) (lock : Lock) (fs : Cache) (c : Call) : Prop where
  temporary : ∀ i, c.pc.status = .owns i → fs.entries .temporary = some (.file i)
  written : ∀ i, c.pc.written = some i → fs.resolve .path ≠ some i
  knows : c.pc.Knows sha256 lock fs
  accounts : c.pc.status.Accounts c.created c.removed
  created : ∀ i ∈ c.created, i < fs.fresh

/-- Two calls do not both own a partial file, and have created different ones. -/
structure Apart (a b : Call) : Prop where
  owner : (∀ i, a.pc.status ≠ .owns i) ∨ ∀ i, b.pc.status ≠ .owns i
  created : ∀ i ∈ a.created, i ∉ b.created

theorem Apart.symm {a b : Call} (h : Apart a b) : Apart b a :=
  ⟨h.owner.symm, fun i hb ha => h.created i ha hb⟩

/-- What every step of a call leaves to the others. -/
structure Guarantee (sha256 : List Byte → String) (lock : Lock) (fs : Cache) (c : Call)
    (fs' : Cache) (c' : Call) : Prop where
  path : Publishes sha256 lock fs fs'
  still : (∀ i, c.pc.status ≠ .owns i) → fs.entries .temporary ≠ none → fs' = fs
  owner : ∀ i, c'.pc.status = .owns i → c.pc.status = .owns i ∨ fs.entries .temporary = none
  created : ∀ i ∈ c'.created, i ∈ c.created ∨ fs.fresh ≤ i
  fresh : fs.fresh ≤ fs'.fresh

section Rely

variable {fs fs' : Cache} {a b c c' : Call} {pc : Pc}

theorem Pc.status_of_written {i : ℕ} (h : pc.written = some i) : pc.status = .owns i := by
  cases pc <;> cases h <;> rfl

/-- Who owns no partial file knows of the final name only. -/
theorem Pc.Knows.keeps (h : pc.Knows sha256 lock fs) (hpc : ∀ i, pc.status ≠ .owns i)
    (hkeeps : fs.Keeps fs' .path) : pc.Knows sha256 lock fs' := by
  cases pc with
  | verifyPath v => exact Verify.Knows.keeps h hkeeps
  | returned content => exact Holds.keeps h hkeeps
  | verifyTemporary i _ => exact absurd rfl (hpc i)
  | hardlink i _ => exact absurd rfl (hpc i)
  | verifyPublished i _ => exact absurd rfl (hpc i)
  | unlink i _ => exact absurd rfl (hpc i)
  | _ => trivial

/-- What a step leaves is enough for every call apart from it. -/
theorem Guarantee.other (h : Guarantee sha256 lock fs a fs' c') (hb : Own sha256 lock fs b)
    (hab : Apart a b) :
    Own sha256 lock fs' b ∧ Apart c' b := by
  have hcreated : ∀ i ∈ c'.created, i ∉ b.created := by
    intro i hi hib
    rcases h.created i hi with hold | hnew
    · exact hab.created i hold hib
    · exact absurd (hb.created i hib) (not_lt.2 hnew)
  by_cases howner : ∃ i, b.pc.status = .owns i
  · -- the name is taken: nothing happens to the directory, and there is no second owner
    obtain ⟨i, hi⟩ := howner
    have ha : ∀ j, a.pc.status ≠ .owns j := hab.owner.resolve_right fun hno => hno i hi
    have htaken : fs.entries .temporary ≠ none := by
      rw [hb.temporary i hi]
      exact Option.some_ne_none _
    rw [h.still ha htaken]
    refine ⟨hb, ⟨.inl fun j hj => ?_, hcreated⟩⟩
    rcases h.owner j hj with hown | hfree
    · exact ha j hown
    · exact htaken hfree
  · have hno : ∀ i, b.pc.status ≠ .owns i := fun i hi => howner ⟨i, hi⟩
    refine ⟨⟨fun i hi => absurd hi (hno i), fun i hi => ?_, ?_, hb.accounts, fun i hi => ?_⟩,
      ⟨.inr hno, hcreated⟩⟩
    · exact absurd (Pc.status_of_written hi) (hno i)
    · exact hb.knows.keeps hno h.path.keeps
    · exact (hb.created i hi).trans_le h.fresh

/-! ## Steps that leave the directory as it is -/

theorem Guarantee.still_of_status (hpc : ∀ i, pc.status = .owns i → c.pc.status = .owns i) :
    Guarantee sha256 lock fs c fs (c.goto pc) where
  path := .refl fs
  still _ _ := rfl
  owner i hi := .inl (hpc i hi)
  created _ hi := .inl hi
  fresh := le_rfl

/-- A call goes on without a change of status. -/
theorem Own.goto (h : Own sha256 lock fs c) (hstatus : pc.status = c.pc.status)
    (hwritten : pc.written = none ∨ pc.written = c.pc.written)
    (hknows : pc.Knows sha256 lock fs) :
    Own sha256 lock fs (c.goto pc) ∧ Guarantee sha256 lock fs c fs (c.goto pc) := by
  refine ⟨⟨fun i hi => ?_, fun i hi => ?_, hknows, ?_, h.created⟩, ?_⟩
  · exact h.temporary i (hstatus ▸ hi)
  · rcases hwritten with hnone | hsame
    · cases hnone.symm.trans hi
    · exact h.written i (hsame ▸ hi)
  · show pc.status.Accounts c.created c.removed
    rw [hstatus]
    exact h.accounts
  · exact Guarantee.still_of_status fun i hi => hstatus ▸ hi

/-- A call ends that has created nothing. -/
theorem Own.leave (h : Own sha256 lock fs c) (hbefore : c.pc.status = .before)
    (hended : pc.status = .ended) (hknows : pc.Knows sha256 lock fs) :
    Own sha256 lock fs (c.goto pc) ∧ Guarantee sha256 lock fs c fs (c.goto pc) := by
  have haccounts := h.accounts
  rw [hbefore] at haccounts
  obtain ⟨hcreated, hremoved⟩ := haccounts
  refine ⟨⟨fun i hi => ?_, fun i hi => ?_, hknows, ?_, h.created⟩, ?_⟩
  · cases hended.symm.trans hi
  · cases hended.symm.trans (Pc.status_of_written hi)
  · show pc.status.Accounts c.created c.removed
    rw [hended, hcreated, hremoved]
    exact ⟨Nat.zero_le 1, rfl⟩
  · refine Guarantee.still_of_status fun i hi => ?_
    cases hended.symm.trans hi

/-- A call goes without taking its partial name away. -/
theorem Own.lose (h : Own sha256 lock fs c) (hrunning : c.pc.status ≠ .ended)
    (hgone : pc.status = .gone) (hknows : pc.Knows sha256 lock fs) :
    Own sha256 lock fs (c.goto pc) ∧ Guarantee sha256 lock fs c fs (c.goto pc) := by
  refine ⟨⟨fun i hi => ?_, fun i hi => ?_, hknows, ?_, h.created⟩, ?_⟩
  · cases hgone.symm.trans hi
  · cases hgone.symm.trans (Pc.status_of_written hi)
  · show pc.status.Accounts c.created c.removed
    rw [hgone]
    exact ⟨h.accounts.length_le, h.accounts.removed_eq_nil hrunning⟩
  · refine Guarantee.still_of_status fun i hi => ?_
    cases hgone.symm.trans hi

/-! ## Steps that change the directory -/

/-- The owner writes to its partial file. -/
theorem Own.write {i : ℕ} {bytes : List Byte} (h : Own sha256 lock fs c)
    (hi : c.pc.written = some i) (hstatus : pc.status = .owns i)
    (hwritten : pc.written = none ∨ pc.written = some i)
    (hknows : pc.Knows sha256 lock (fs.write i bytes)) :
    Own sha256 lock (fs.write i bytes) (c.goto pc) ∧
      Guarantee sha256 lock fs c (fs.write i bytes) (c.goto pc) := by
  have howns := Pc.status_of_written hi
  have hkeeps : fs.Keeps (fs.write i bytes) .path := FileSystem.keeps_write (h.written i hi)
  refine ⟨⟨fun j hj => ?_, fun j hj => ?_, hknows, ?_, h.created⟩,
    ⟨⟨hkeeps, .inl rfl⟩, fun hno => absurd howns (hno i), fun j hj => .inl ?_,
      fun j hj => .inl hj, le_rfl⟩⟩
  · cases hstatus.symm.trans hj
    exact h.temporary i howns
  · rcases hwritten with hnone | hsame
    · cases hnone.symm.trans hj
    · cases hsame.symm.trans hj
      exact h.written i hi
  · show pc.status.Accounts c.created c.removed
    rw [hstatus, ← howns]
    exact h.accounts
  · rw [howns, ← hstatus]
    exact hj

/-- A call creates its partial file. -/
theorem Own.create {i : ℕ} (h : Own sha256 lock fs c) (hbefore : c.pc.status = .before)
    (hcreate : fs.createExclusive .temporary = some (i, fs')) :
    Own sha256 lock fs' ⟨.download i 0 [], c.created ++ [i], c.removed⟩ ∧
      Guarantee sha256 lock fs c fs' ⟨.download i 0 [], c.created ++ [i], c.removed⟩ := by
  obtain ⟨hfree, rfl, hentry, hothers, hfresh, hkeeps⟩ :=
    FileSystem.createExclusive_eq_some hcreate
  have haccounts := h.accounts
  rw [hbefore] at haccounts
  obtain ⟨hcreated, hremoved⟩ := haccounts
  have hmem : ∀ j ∈ c.created ++ [fs.fresh], j = fs.fresh := by
    rw [hcreated]
    exact fun j hj => List.mem_singleton.1 hj
  refine ⟨⟨fun j hj => ?_, fun j hj => ?_, trivial, ?_, fun j hj => ?_⟩,
    ⟨⟨hkeeps .path, .inl (hothers .path (by decide))⟩, fun _ hne => absurd hfree hne, fun _ _ => .inr hfree, fun j hj => ?_, ?_⟩⟩
  · cases hj
    exact hentry
  · -- no name led to the new file before
    cases hj
    intro hpath
    rw [FileSystem.resolve, hothers .path (by decide)] at hpath
    exact absurd (FileSystem.lt_fresh hpath) (lt_irrefl _)
  · show c.created ++ [fs.fresh] = [fs.fresh] ∧ c.removed = []
    rw [hcreated]
    exact ⟨rfl, hremoved⟩
  · rw [hmem j hj, hfresh]
    exact Nat.lt_succ_self _
  · exact .inr (hmem j hj).ge
  · rw [hfresh]
    exact Nat.le_succ _

/-- The owner publishes its partial file. -/
theorem Own.publish {i : ℕ} {content : List Byte} (h : Own sha256 lock fs c)
    (hpc : c.pc = .hardlink i content) (hlink : fs.hardlink .temporary .path = .ok fs') :
    Own sha256 lock fs' (c.goto (.unlink i (.returns content))) ∧
      Guarantee sha256 lock fs c fs' (c.goto (.unlink i (.returns content))) := by
  obtain ⟨hfree, hentry, hcontents, hfresh, hkeeps⟩ := FileSystem.hardlink_eq_ok hlink
  have howns : c.pc.status = .owns i := by rw [hpc]; rfl
  -- the temporary file was read back and checked before the link
  have hverified : Holds sha256 lock fs .temporary content := by
    have hknows := h.knows
    rw [hpc] at hknows
    exact hknows
  -- the link shares the file, so the path reads as the temporary does
  have hafter : fs'.read? .path = some content := by
    rw [← hverified.1, FileSystem.read?, hentry, hcontents]
    rfl
  have hpublished : Holds sha256 lock fs' .path content := ⟨hafter, hverified.2⟩
  refine ⟨⟨fun j hj => ?_, nofun, hpublished, ?_, ?_⟩,
    ⟨⟨hkeeps .path, .inr ⟨hfree, content, hpublished⟩⟩, fun hno => absurd howns (hno i),
      fun j hj => .inl (howns.trans hj), fun j hj => .inl hj, hfresh.ge⟩⟩
  · cases hj
    exact (hkeeps .temporary).entry _ (h.temporary i howns)
  · have haccounts := h.accounts
    rw [howns] at haccounts
    exact haccounts
  · rw [hfresh]
    exact h.created

/-- The owner takes the partial name away. -/
theorem Own.remove {i : ℕ} {outcome : Outcome} {e : DirEntry} (h : Own sha256 lock fs c)
    (hpc : c.pc = .unlink i outcome) (hunlink : fs.unlink .temporary = some (e, fs')) :
    Own sha256 lock fs' ⟨outcome.pc, c.created, c.removed ++ [e]⟩ ∧
      Guarantee sha256 lock fs c fs' ⟨outcome.pc, c.created, c.removed ++ [e]⟩ := by
  obtain ⟨hentry, hfresh, hothers⟩ := FileSystem.unlink_eq_some hunlink
  obtain ⟨hpath, hkeeps⟩ := hothers .path (by decide)
  have howns : c.pc.status = .owns i := by rw [hpc]; rfl
  -- the name is still of the file the call created
  have he : e = .file i := Option.some.inj (hentry.symm.trans (h.temporary i howns))
  have haccounts := h.accounts
  rw [howns] at haccounts
  obtain ⟨hcreated, hremoved⟩ := haccounts
  have hended : outcome.pc.status = .ended := by cases outcome <;> rfl
  have hknows := h.knows
  rw [hpc] at hknows
  refine ⟨⟨fun j hj => ?_, fun j hj => ?_, ?_, ?_, ?_⟩,
    ⟨⟨hkeeps, .inl hpath⟩, fun hno => absurd howns (hno i), fun j hj => ?_,
      fun j hj => .inl hj, hfresh.ge⟩⟩
  · cases hended.symm.trans hj
  · cases hended.symm.trans (Pc.status_of_written hj)
  · cases outcome with
    | returns content => exact Holds.keeps hknows hkeeps
    | raises => trivial
  · show outcome.pc.status.Accounts c.created (c.removed ++ [e])
    rw [hended, hcreated, hremoved, he]
    exact ⟨le_rfl, rfl⟩
  · rw [hfresh]
    exact h.created
  · cases hended.symm.trans hj

end Rely

/-! ## One step of one call -/

section Step

variable {fs fs' : Cache} {c c' : Call}

/-- What the next step of a call may rely on afterwards. -/
theorem Own.proceed (h : Own sha256 lock fs c)
    (hstep : Compliance.proceed sha256 lock fs c = some (fs', c')) :
    Own sha256 lock fs' c' ∧ Guarantee sha256 lock fs c fs' c' := by
  unfold Compliance.proceed at hstep
  obtain ⟨pc, created, removed⟩ := c
  cases pc with
  | pathExists offline =>
      cases hstep
      by_cases hthere : fs.pathExists .path = true
      · rw [if_pos hthere]
        exact h.goto rfl (.inl rfl) (FileSystem.entries_ne_none_of_pathExists hthere)
      · rw [if_neg hthere]
        exact h.goto rfl (.inl rfl) trivial
  | pathIsSymlink offline =>
      cases hstep
      by_cases hlink : fs.isSymlink .path = true
      · rw [if_pos hlink]
        exact h.goto rfl (.inl rfl) (FileSystem.entries_ne_none_of_isSymlink hlink)
      · rw [if_neg hlink]
        cases offline with
        | true => exact h.leave rfl rfl trivial
        | false => exact h.goto rfl (.inl rfl) trivial
  | verifyPath v =>
      cases hstep
      cases hv : verifyStep sha256 lock fs .path v with
      | next v' => exact h.goto rfl (.inl rfl) (Verify.Knows.next h.knows hv)
      | accepted content => exact h.leave rfl rfl (Verify.Knows.accepted h.knows hv)
      | rejected => exact h.leave rfl rfl trivial
  | mkdir =>
      cases hstep
      exact h.goto rfl (.inl rfl) trivial
  | openTemporary =>
      dsimp only at hstep
      cases hcreate : fs.createExclusive .temporary with
      | none =>
          rw [hcreate] at hstep
          cases hstep
          exact h.leave rfl rfl trivial
      | some r =>
          obtain ⟨i, fs''⟩ := r
          rw [hcreate] at hstep
          cases hstep
          exact h.create rfl hcreate
  | close i pending raising =>
      cases hstep
      cases raising with
      | true => exact h.write rfl rfl (.inl rfl) trivial
      | false =>
          refine h.write rfl rfl (.inl rfl) ?_
          show fs.entries .temporary ≠ none
          rw [h.temporary i rfl]
          exact Option.some_ne_none _
  | verifyTemporary i v =>
      cases hstep
      cases hv : verifyStep sha256 lock fs .temporary v with
      | next v' => exact h.goto rfl (.inl rfl) (Verify.Knows.next h.knows hv)
      | accepted content => exact h.goto rfl (.inl rfl) (Verify.Knows.accepted h.knows hv)
      | rejected => exact h.goto rfl (.inl rfl) trivial
  | hardlink i content =>
      dsimp only at hstep
      rcases hlink : fs.hardlink .temporary .path with (_ | _) | fs''
      · rw [hlink] at hstep
        cases hstep
        exact h.goto rfl (.inl rfl) trivial
      · rw [hlink] at hstep
        cases hstep
        exact h.goto rfl (.inl rfl) (FileSystem.hardlink_eq_fileExists hlink)
      · rw [hlink] at hstep
        cases hstep
        exact h.publish rfl hlink
  | verifyPublished i v =>
      cases hstep
      cases hv : verifyStep sha256 lock fs .path v with
      | next v' => exact h.goto rfl (.inl rfl) (Verify.Knows.next h.knows hv)
      | accepted content => exact h.goto rfl (.inl rfl) (Verify.Knows.accepted h.knows hv)
      | rejected => exact h.goto rfl (.inl rfl) trivial
  | unlink i outcome =>
      dsimp only at hstep
      cases hunlink : fs.unlink .temporary with
      | none =>
          -- the owner's name is there
          have hgone := Option.map_eq_none_iff.1 hunlink
          rw [h.temporary i rfl] at hgone
          cases hgone
      | some r =>
          obtain ⟨e, fs''⟩ := r
          rw [hunlink] at hstep
          cases hstep
          exact h.remove rfl hunlink
  | _ => cases hstep

theorem Own.receive {block : List Byte} (h : Own sha256 lock fs c)
    (hstep : Compliance.receive lock fs c block = some (fs', c')) :
    Own sha256 lock fs' c' ∧ Guarantee sha256 lock fs c fs' c' := by
  unfold Compliance.receive at hstep
  obtain ⟨pc, created, removed⟩ := c
  cases pc with
  | download i count pending =>
      cases hstep
      split_ifs
      · exact h.goto rfl (.inr rfl) trivial
      · exact h.goto rfl (.inr rfl) trivial
      · exact h.goto rfl (.inr rfl) trivial
  | _ => cases hstep

theorem Own.flush {n : ℕ} (h : Own sha256 lock fs c)
    (hstep : Compliance.flush fs c n = some (fs', c')) :
    Own sha256 lock fs' c' ∧ Guarantee sha256 lock fs c fs' c' := by
  unfold Compliance.flush at hstep
  obtain ⟨pc, created, removed⟩ := c
  cases pc with
  | download i count pending =>
      cases hstep
      exact h.write rfl rfl (.inr rfl) trivial
  | close i pending raising =>
      cases hstep
      exact h.write rfl rfl (.inr rfl) trivial
  | _ => cases hstep

theorem Own.fail (h : Own sha256 lock fs c) (hstep : Compliance.fail fs c = some (fs', c')) :
    Own sha256 lock fs' c' ∧ Guarantee sha256 lock fs c fs' c' := by
  unfold Compliance.fail at hstep
  obtain ⟨pc, created, removed⟩ := c
  cases pc <;> cases hstep
  case pathExists => exact h.leave rfl rfl trivial
  case pathIsSymlink => exact h.leave rfl rfl trivial
  case verifyPath => exact h.leave rfl rfl trivial
  case mkdir => exact h.leave rfl rfl trivial
  case openTemporary => exact h.leave rfl rfl trivial
  case download => exact h.goto rfl (.inr rfl) trivial
  case close => exact h.goto rfl (.inl rfl) trivial
  case verifyTemporary => exact h.goto rfl (.inl rfl) trivial
  case hardlink => exact h.goto rfl (.inl rfl) trivial
  case verifyPublished => exact h.goto rfl (.inl rfl) trivial
  case unlink => exact h.lose nofun rfl trivial

theorem Own.killed (h : Own sha256 lock fs c) (hstep : Compliance.kill fs c = some (fs', c')) :
    Own sha256 lock fs' c' ∧ Guarantee sha256 lock fs c fs' c' := by
  unfold Compliance.kill at hstep
  obtain ⟨pc, created, removed⟩ := c
  cases pc <;> cases hstep <;> exact h.lose nofun rfl trivial

theorem Own.begin {entry : Artifact} {offline : Bool} (h : Own sha256 lock fs c)
    (hstep : Compliance.begin lock lib fs c entry offline = some (fs', c')) :
    Own sha256 lock fs' c' ∧ Guarantee sha256 lock fs c fs' c' := by
  unfold Compliance.begin at hstep
  obtain ⟨pc, created, removed⟩ := c
  cases pc with
  | idle =>
      dsimp only at hstep
      split at hstep
      · cases hstep
        exact h.leave rfl rfl trivial
      · split_ifs at hstep
        cases hstep
        exact h.goto rfl (.inl rfl) trivial
  | _ => cases hstep

theorem Own.step {event : BundleEvent} (h : Own sha256 lock fs c)
    (hstep : acquireStep sha256 lock lib fs c event = some (fs', c')) :
    Own sha256 lock fs' c' ∧ Guarantee sha256 lock fs c fs' c' := by
  cases event with
  | call entry offline => exact h.begin hstep
  | proceed => exact h.proceed hstep
  | receive block => exact h.receive hstep
  | flush n => exact h.flush hstep
  | fail => exact h.fail hstep
  | kill => exact h.killed hstep

theorem respects_acquireStep :
    Respects (acquireStep sha256 lock lib) (Own sha256 lock) Apart where
  symm _ _ := Apart.symm
  own _ _ _ _ _ hstep h := (h.step hstep).1
  other _ _ _ _ _ _ hstep h hb hab := (h.step hstep).2.other hb hab

theorem harmony_start (fs : Cache) : Harmony (Own sha256 lock) Apart (Bundle.start fs) where
  own _ := ⟨nofun, nofun, trivial, ⟨rfl, rfl⟩, nofun⟩
  apart _ _ _ := ⟨.inl nofun, nofun⟩

/-- In every order of the steps of any number of calls, each of which may fail or be killed
    anywhere: what stands under the final name stays, and is a file of the locked size and digest if
    it was not there from the start; a call removes its partial file when it is over and only then,
    each file at most once and by its creator alone; and what a call returns after is under the
    final name, of the locked size and digest. -/
theorem acquire_publishes {fs : Cache} {s : Concurrent Cache Call}
    (h : Reachable (interleave (acquireStep sha256 lock lib)) (Bundle.start fs) s) :
    (∀ e, s.shared.entries .path = some e →
      fs.entries .path = some e ∨ ∃ content, Holds sha256 lock s.shared .path content) ∧
    (∀ s', Reachable (interleave (acquireStep sha256 lock lib)) s s' →
      s.shared.Keeps s'.shared .path) ∧
    (∀ p, (s.procs p).created.length ≤ 1 ∧
      ((s.procs p).pc.status = .ended → (s.procs p).removed = (s.procs p).created.map .file) ∧
      ((s.procs p).pc.status ≠ .ended → (s.procs p).removed = [])) ∧
    (∀ p q, p ≠ q → ∀ i ∈ (s.procs p).created, i ∉ (s.procs q).created) ∧
    ∀ p content, (s.procs p).pc = .returned content → Holds sha256 lock s.shared .path content := by
  have hs : Harmony (Own sha256 lock) Apart s := respects_acquireStep.reachable h (harmony_start fs)
  -- what one call does to the path, along any run
  have hrun : ∀ {t u : Concurrent Cache Call}, Harmony (Own sha256 lock) Apart t →
      Reachable (interleave (acquireStep sha256 lock lib)) t u →
      Publishes sha256 lock t.shared u.shared := by
    intro t u ht hu
    refine respects_acquireStep.shared .refl (fun _ _ _ => .trans) ?_ hu ht
    intro t c event t' c' hstep hc
    exact (hc.step hstep).2.path
  refine ⟨fun e he => ?_, fun s' hs' => (hrun hs hs').keeps, fun p => ?_, ?_, fun p content hp => ?_⟩
  · rcases (hrun (harmony_start fs) h).entry with hsame | ⟨-, content, hcontent⟩
    · exact .inl (hsame ▸ he)
    · exact .inr ⟨content, hcontent⟩
  · have haccounts := (hs.own p).accounts
    refine ⟨haccounts.length_le, fun hended => ?_, haccounts.removed_eq_nil⟩
    rw [hended] at haccounts
    exact haccounts.2
  · intro p q hpq
    exact (hs.apart p q hpq).created
  · have hknows := (hs.own p).knows
    rw [hp] at hknows
    exact hknows

end Step

/-! ## Two calls for a file of one byte -/

/-- The text `a`, whose digest `letterSha256` knows. -/
def letter : Artifact :=
  ⟨"a", "letters", "https://files.pythonhosted.org/a",
    "ca978112ca1bbdcafac231b39a23dc4da786eff8147c4e72b9807785afee48bb", 1, none, none⟩

/-- What the lock says of `letter`. -/
def letterLock : Lock := ⟨letter.sha256, letter.bytes⟩

/-- The digest of the one byte of `letter`. -/
def letterSha256 (content : List Byte) : String := if content = [97] then letter.sha256 else ""

/-- A library that knows the digest and the URL of `letter`. -/
def letterLib : StandardLib where
  sha256Hex text := if text = "a" then letter.sha256 else ""
  urlsplit _ := .ok ⟨"https", some "files.pythonhosted.org", none, none, "", ""⟩
  dumps _ := ""

/-- A cache without a name. -/
def emptyCache : Cache := ⟨fun _ => none, fun _ => [], 0, nofun⟩

/-- From the directory to the end of `verify` of the partial file. -/
def downloads (p : ℕ) : List (ℕ × BundleEvent) :=
  List.replicate 2 (p, .proceed) ++ [(p, .receive [97]), (p, .flush 1), (p, .receive [])] ++
    List.replicate 7 (p, .proceed)

/-- Both calls find nothing; the first publishes and is over before the second creates its partial
    file. -/
def race : List (ℕ × BundleEvent) :=
  [(0, .call letter false), (1, .call letter false), (0, .proceed), (1, .proceed), (0, .proceed),
    (1, .proceed)] ++ downloads 0 ++ List.replicate 2 (0, .proceed) ++ downloads 1 ++
    List.replicate 8 (1, .proceed)

theorem acquire_publishes_race :
    ∃ s, run (interleave (acquireStep letterSha256 letterLock letterLib)) (Bundle.start emptyCache)
        race = some s ∧
      (s.procs 0).pc = .returned [97] ∧ (s.procs 1).pc = .returned [97] ∧
      (s.procs 0).removed = [.file 0] ∧ (s.procs 1).removed = [.file 1] ∧
      Holds letterSha256 letterLock s.shared .path [97] := by
  have hends : (run (interleave (acquireStep letterSha256 letterLock letterLib))
      (Bundle.start emptyCache) race).map (fun s => ((s.procs 0).pc, (s.procs 1).pc,
        (s.procs 0).removed, (s.procs 1).removed)) =
      some (.returned [97], .returned [97], [.file 0], [.file 1]) := by
    decide
  obtain ⟨s, hrun, hs⟩ := Option.map_eq_some_iff.1 hends
  simp only [Prod.mk.injEq] at hs
  obtain ⟨hfirst, hsecond, hremoved, hremoved'⟩ := hs
  refine ⟨s, hrun, hfirst, hsecond, hremoved, hremoved', ?_⟩
  exact (acquire_publishes ⟨race, hrun⟩).2.2.2.2 1 [97] hsecond

end Compliance

end AstroPassport
