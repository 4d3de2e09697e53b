import Mathlib.Logic.Function.Basic
import Mathlib.Order.Nat
import Mathlib.Tactic.Common

set_option autoImplicit false

/-! # A directory of files

Names stand for files, and several names may stand for one file: what is written is written to the
file. Creating a file gives it a number no name has led to, so a new file is nobody else's; a name
is only given to a file when it is free. An operation keeps what a name leads to unless it removes
that name or writes to that file (`Keeps`).

A name may also be a symbolic link, which some of the questions about a name follow and others do
not (`resolve`, `isSymlink`, `isFile`). The operations are those a program has for publishing a file
safely: exclusive creation, hard links, which fail when the name is taken, and taking a name away.
Each has one lemma that says when it succeeds and what it leaves. `Keeps` is reflexive and
transitive, and every operation has it for the names and files that it does not touch, so that a
property of one file is carried through whatever others do elsewhere in the directory. -/

namespace AstroPassport

/-- What a name stands for: a file, a symbolic link to a file or to none, a directory. -/
inductive DirEntry where
  | file (inode : ℕ)
  | symlink (target : Option ℕ)
  | directory
  deriving DecidableEq

/-- The file an entry leads to. -/
def DirEntry.inode? : DirEntry → Option ℕ
  | .file i => some i
  | .symlink target => target
  | .directory => none

/-- Entries under names `ν`, and the contents of the files; `fresh` and every number after it are of
    no file. -/
structure FileSystem (ν α : Type) where
  entries : ν → Option DirEntry
  contents : ℕ → List α
  fresh : ℕ
  bounded : ∀ name e i, entries name = some e → e.inode? = some i → i < fresh

namespace FileSystem

variable {ν α : Type} (fs : FileSystem ν α)

/-! ## Looking at a name -/

/-- The file under a name. -/
def resolve (name : ν) : Option ℕ := (fs.entries name).bind DirEntry.inode?

/-- `Path.exists`: not a link to nothing. -/
def pathExists (name : ν) : Bool :=
  match fs.entries name with
  | none => false
  | some (.symlink none) => false
  | some _ => true

/-- `Path.is_symlink`. -/
def isSymlink (name : ν) : Bool :=
  match fs.entries name with
  | some (.symlink _) => true
  | _ => false

/-- `Path.is_file`. -/
def isFile (name : ν) : Bool := (fs.resolve name).isSome

/-- The contents of the regular file under a name. -/
def read? (name : ν) : Option (List α) :=
  match fs.entries name with
  | some (.file i) => some (fs.contents i)
  | _ => none

/-! ## Operations -/

/-- Append to a file. -/
def write (i : ℕ) (bytes : List α) : FileSystem ν α :=
  { fs with contents := Function.update fs.contents i (fs.contents i ++ bytes) }

/-- A new empty file, under no name yet. -/
def allocate : FileSystem ν α where
  entries := fs.entries
  contents := Function.update fs.contents fs.fresh []
  fresh := fs.fresh + 1
  bounded name e i hname hi := Nat.lt_succ_of_lt (fs.bounded name e i hname hi)

section Names

variable [DecidableEq ν]

/-- A name is given to an entry, or taken away. -/
def setEntry (name : ν) (entry : Option DirEntry)
    (h : ∀ e i, entry = some e → e.inode? = some i → i < fs.fresh) : FileSystem ν α where
  entries := Function.update fs.entries name entry
  contents := fs.contents
  fresh := fs.fresh
  bounded n e i hn hi := by
    by_cases hname : n = name
    · subst hname
      rw [Function.update_self] at hn
      exact h e i hn hi
    · rw [Function.update_of_ne hname] at hn
      exact fs.bounded n e i hn hi

/-- `open` with mode `x`: a new file, when the name is free. -/
def createExclusive (name : ν) : Option (ℕ × FileSystem ν α) :=
  if fs.entries name = none then
    some (fs.fresh, fs.allocate.setEntry name (some (.file fs.fresh)) fun e i he hi => by
      cases he
      cases hi
      exact Nat.lt_succ_self _)
  else none

/-- What `hardlink` raises. -/
inductive LinkError where
  | fileNotFound
  | fileExists
  deriving DecidableEq

/-- A second name for what stands under `src`, when that name is free. -/
def hardlink (src dst : ν) : Except LinkError (FileSystem ν α) :=
  match h : fs.entries src with
  | none => .error .fileNotFound
  | some e =>
    if (fs.entries dst).isSome then .error .fileExists
    else .ok (fs.setEntry dst (some e) fun e' i he hi => fs.bounded src e' i (h.trans he) hi)

/-- Take a name away, and say what it stood for. -/
def unlink (name : ν) : Option (DirEntry × FileSystem ν α) :=
  (fs.entries name).map fun e => (e, fs.setEntry name none nofun)

end Names

/-! ## What an operation keeps -/

/-- What a name stands for it goes on standing for, with the same contents. -/
structure Keeps (fs fs' : FileSystem ν α) (name : ν) : Prop where
  entry : ∀ e, fs.entries name = some e → fs'.entries name = some e
  contents : ∀ i, fs.resolve name = some i → fs'.contents i = fs.contents i

namespace Keeps

variable {fs} {fs' fs'' : FileSystem ν α} {name : ν}

theorem refl (fs : FileSystem ν α) (name : ν) : fs.Keeps fs name :=
  ⟨fun _ h => h, fun _ _ => rfl⟩

theorem resolve (h : fs.Keeps fs' name) {i : ℕ} (hi : fs.resolve name = some i) :
    fs'.resolve name = some i := by
  obtain ⟨e, he, hi⟩ := Option.bind_eq_some_iff.1 hi
  exact Option.bind_eq_some_iff.2 ⟨e, h.entry e he, hi⟩

theorem trans (h : fs.Keeps fs' name) (h' : fs'.Keeps fs'' name) : fs.Keeps fs'' name := by
  refine ⟨fun e he => h'.entry e (h.entry e he), fun i hi => ?_⟩
  rw [h'.contents i (h.resolve hi), h.contents i hi]

theorem read? (h : fs.Keeps fs' name) {c : List α} (hc : fs.read? name = some c) :
    fs'.read? name = some c := by
  unfold FileSystem.read? at hc ⊢
  split at hc
  · next i he =>
      rw [h.entry _ he, ← hc]
      exact congrArg some (h.contents i (Option.bind_eq_some_iff.2 ⟨_, he, rfl⟩))
  · cases hc

end Keeps

variable {fs} {fs' : FileSystem ν α} {name n : ν} {i : ℕ}

theorem lt_fresh (h : fs.resolve name = some i) : i < fs.fresh := by
  obtain ⟨e, he, hi⟩ := Option.bind_eq_some_iff.1 h
  exact fs.bounded name e i he hi

theorem entries_ne_none_of_pathExists (h : fs.pathExists name = true) : fs.entries name ≠ none := by
  intro hnone
  rw [pathExists, hnone] at h
  cases h

theorem entries_ne_none_of_isSymlink (h : fs.isSymlink name = true) : fs.entries name ≠ none := by
  intro hnone
  rw [isSymlink, hnone] at h
  cases h

/-- A file that is written to is not the one the name leads to. -/
theorem keeps_write {bytes : List α} (h : fs.resolve name ≠ some i) :
    fs.Keeps (fs.write i bytes) name := by
  refine ⟨fun e he => he, fun j hj => ?_⟩
  have hne : j ≠ i := by
    intro heq
    exact h (heq ▸ hj)
  exact Function.update_of_ne hne _ _

theorem keeps_allocate : fs.Keeps fs.allocate name := by
  refine ⟨fun e he => he, fun j hj => ?_⟩
  exact Function.update_of_ne (lt_fresh hj).ne _ _

variable [DecidableEq ν]

theorem keeps_setEntry {entry : Option DirEntry}
    {h : ∀ e i, entry = some e → e.inode? = some i → i < fs.fresh}
    (hn : name ≠ n ∨ fs.entries n = none) : fs.Keeps (fs.setEntry n entry h) name := by
  refine ⟨fun e he => ?_, fun _ _ => rfl⟩
  have hne : name ≠ n := by
    intro heq
    subst heq
    rcases hn with hn | hn
    · exact hn rfl
    · rw [hn] at he
      cases he
  exact (Function.update_of_ne hne _ _).trans he

/-- A new file takes a free name. -/
theorem createExclusive_eq_some (h : fs.createExclusive n = some (i, fs')) :
    fs.entries n = none ∧ i = fs.fresh ∧ fs'.entries n = some (.file i) ∧
      (∀ name, name ≠ n → fs'.entries name = fs.entries name) ∧ fs'.fresh = fs.fresh + 1 ∧
      ∀ name, fs.Keeps fs' name := by
  unfold createExclusive at h
  split_ifs at h with hfree
  cases h
  refine ⟨hfree, rfl, Function.update_self .., fun name hne => Function.update_of_ne hne .., rfl,
    fun name => keeps_allocate.trans ?_⟩
  exact keeps_setEntry (.inr hfree)

/-- A link takes a free name. -/
theorem hardlink_eq_ok {src dst : ν} (h : fs.hardlink src dst = .ok fs') :
    fs.entries dst = none ∧ fs'.entries dst = fs.entries src ∧ fs'.contents = fs.contents ∧
      fs'.fresh = fs.fresh ∧ ∀ name, fs.Keeps fs' name := by
  unfold hardlink at h
  split at h
  · cases h
  · next e he =>
      split_ifs at h with hdst
      cases h
      rw [Option.not_isSome_iff_eq_none] at hdst
      exact ⟨hdst, (Function.update_self ..).trans he.symm, rfl, rfl,
        fun name => keeps_setEntry (.inr hdst)⟩

theorem hardlink_eq_fileExists {src dst : ν} (h : fs.hardlink src dst = .error .fileExists) :
    fs.entries dst ≠ none := by
  unfold hardlink at h
  split at h
  · cases h
  · split_ifs at h with hdst
    exact Option.isSome_iff_ne_none.1 hdst

/-- What is taken away is one name. -/
theorem unlink_eq_some {e : DirEntry} (h : fs.unlink n = some (e, fs')) :
    fs.entries n = some e ∧ fs'.fresh = fs.fresh ∧
      ∀ name, name ≠ n → fs'.entries name = fs.entries name ∧ fs.Keeps fs' name := by
  obtain ⟨e, he, heq⟩ := Option.map_eq_some_iff.1 h
  cases heq
  exact ⟨he, rfl, fun name hname =>
    ⟨Function.update_of_ne hname .., keeps_setEntry (.inl hname)⟩⟩

end FileSystem

end AstroPassport
