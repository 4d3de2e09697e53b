import AstroPassport.Compliance.Validate
import AstroPassport.Lib.FileSystem
import AstroPassport.Lib.Interleave
import AstroPassport.Lib.Unicode

set_option autoImplicit false

/-! # Publication of a locked source

`acquire` and `verify` in `compliance/bundle.py`. The calls for one digest share two names of the
cache directory: a call downloads into a partial file that it creates exclusively, verifies it,
links it to the final name, and takes the partial name away. Every look at the directory, every read
and every write is a step of its own, any number of calls take their steps in any order, and a call
may fail at any step or be killed between two of them.

A call is a program counter with the data it has at that point (`Pc`), and `verify`, which is run
twice by a call, is a small machine inside it. The directory itself is the general one of the file
system library, whose names stand for files and whose files keep their bytes when a name goes. What
the network sends, how much of it a read returns and whether an operation of the system fails is the
choice of the event, so that a run of the system is any list of pairs of a call and an event. -/

namespace AstroPassport

namespace Compliance

/-- `cache / digest` and `cache / (digest + ".part")`. -/
inductive CacheName where
  | path
  | temporary
  deriving DecidableEq

/-- The cache directory: its names, and the bytes of its files. -/
abbrev Cache := FileSystem CacheName Byte

/-- What `checked` returns of an entry, but for the URL. -/
structure Lock where
  digest : String
  size : ℤ

/-- `stream.read(1024 * 1024)`. -/
def blockSize : ℕ := 1024 * 1024

/-! ## `verify` -/

/-- Where a run of `verify` is: before one of its looks at the path, or between two reads, with the
    file it opened and what it has read and hashed. -/
inductive Verify where
  | isSymlink
  | isFile
  | stat
  | openFile
  | read (inode : ℕ) (seen : List Byte)
  deriving DecidableEq

/-- What a step of `verify` leads to: another step, or the end with the bytes of the file or
    without. -/
inductive VerifyTurn where
  | next (v : Verify)
  | accepted (content : List Byte)
  | rejected

section

variable (sha256 : List Byte → String) (lock : Lock)

/-- One step of `verify`. -/
def verifyStep (fs : Cache) (name : CacheName) : Verify → VerifyTurn
  | .isSymlink => if fs.isSymlink name then .rejected else .next .isFile
  | .isFile => if fs.isFile name then .next .stat else .rejected
  | .stat =>
    match fs.resolve name with
    | none => .rejected
    | some i => if (fs.contents i).length ≠ lock.size then .rejected else .next .openFile
  | .openFile =>
    match fs.resolve name with
    | none => .rejected
    | some i => .next (.read i [])
  | .read i seen =>
    let block := ((fs.contents i).drop seen.length).take blockSize
    if block ≠ [] then .next (.read i (seen ++ block))
    else if sha256 seen ≠ lock.digest then .rejected
    else .accepted seen

end

/-! ## `acquire` -/

/-- How a call ends after its `finally`; it returns after `verify` accepted some content. -/
inductive Outcome where
  | returns (content : List Byte)
  | raises
  deriving DecidableEq

/-- Where a call is. The partial file it created stands beside, and for a download what was received
    of it and what of that is not yet written. A call is stranded when it raised because it could
    not take its partial name away. -/
inductive Pc where
  | idle
  | pathExists (offline : Bool)
  | pathIsSymlink (offline : Bool)
  | verifyPath (v : Verify)
  | mkdir
  | openTemporary
  | download (inode count : ℕ) (pending : List Byte)
  | close (inode : ℕ) (pending : List Byte) (raising : Bool)
  | verifyTemporary (inode : ℕ) (v : Verify)
  | hardlink (inode : ℕ) (content : List Byte)
  | verifyPublished (inode : ℕ) (v : Verify)
  | unlink (inode : ℕ) (outcome : Outcome)
  | returned (content : List Byte)
  | raised
  | stranded
  | killed
  deriving DecidableEq

/-- After the `finally`. -/
def Outcome.pc : Outcome → Pc
  | .returns content => .returned content
  | .raises => .raised

/-- A call, with the partial files it created and what it removed so far. -/
structure Call where
  pc : Pc
  created : List ℕ
  removed : List DirEntry

/-- A call at another point of the program. -/
def Call.goto (c : Call) (pc : Pc) : Call := { c with pc := pc }

/-- What happens to a call: it begins, takes its next step, receives a block (an empty one at the
    end), writes some of what it buffers, fails in its next step, is killed. -/
inductive BundleEvent where
  | call (entry : Artifact) (offline : Bool)
  | proceed
  | receive (block : List Byte)
  | flush (n : ℕ)
  | fail
  | kill

section

variable (sha256 : List Byte → String) (lock : Lock)

/-- The next step of a call. -/
def proceed (fs : Cache) (c : Call) : Option (Cache × Call) :=
  match c.pc with
  | .pathExists offline =>
    some (fs, c.goto
      (if fs.pathExists .path then .verifyPath .isSymlink else .pathIsSymlink offline))
  | .pathIsSymlink offline =>
    some (fs, c.goto
      (if fs.isSymlink .path then .verifyPath .isSymlink
      else if offline then .raised else .mkdir))
  | .verifyPath v =>
    some (fs, c.goto
      (match verifyStep sha256 lock fs .path v with
      | .next v => .verifyPath v
      | .accepted content => .returned content
      | .rejected => .raised))
  | .mkdir => some (fs, c.goto .openTemporary)
  | .openTemporary =>
    match fs.createExclusive .temporary with
    | none => some (fs, c.goto .raised)
    | some (i, fs) => some (fs, ⟨.download i 0 [], c.created ++ [i], c.removed⟩)
  | .close i pending raising =>
    some (fs.write i pending, c.goto
      (if raising then .unlink i .raises else .verifyTemporary i .isSymlink))
  | .verifyTemporary i v =>
    some (fs, c.goto
      (match verifyStep sha256 lock fs .temporary v with
      | .next v => .verifyTemporary i v
      | .accepted content => .hardlink i content
      | .rejected => .unlink i .raises))
  | .hardlink i content =>
    match fs.hardlink .temporary .path with
    | .ok fs => some (fs, c.goto (.unlink i (.returns content)))
    | .error .fileExists => some (fs, c.goto (.verifyPublished i .isSymlink))
    | .error .fileNotFound => some (fs, c.goto (.unlink i .raises))
  | .verifyPublished i v =>
    some (fs, c.goto
      (match verifyStep sha256 lock fs .path v with
      | .next v => .verifyPublished i v
      | .accepted content => .unlink i (.returns content)
      | .rejected => .unlink i .raises))
  | .unlink _ outcome =>
    match fs.unlink .temporary with
    | none => some (fs, c.goto .raised)
    | some (e, fs) => some (fs, ⟨outcome.pc, c.created, c.removed ++ [e]⟩)
  | _ => none

/-- A block of the response. -/
def receive (fs : Cache) (c : Call) (block : List Byte) : Option (Cache × Call) :=
  match c.pc with
  | .download i count pending =>
    some (fs, c.goto
      (if block = [] then .close i pending false
      else if lock.size < (count + block.length : ℕ) then .close i pending true
      else .download i (count + block.length) (pending ++ block)))
  | _ => none

/-- Some of the buffer reaches the file. -/
def flush (fs : Cache) (c : Call) (n : ℕ) : Option (Cache × Call) :=
  match c.pc with
  | .download i count pending =>
    some (fs.write i (pending.take n), c.goto (.download i count (pending.drop n)))
  | .close i pending raising =>
    some (fs.write i (pending.take n), c.goto (.close i (pending.drop n) raising))
  | _ => none

/-- An exception in the next step. -/
def fail (fs : Cache) (c : Call) : Option (Cache × Call) :=
  match c.pc with
  | .pathExists _ => some (fs, c.goto .raised)
  | .pathIsSymlink _ => some (fs, c.goto .raised)
  | .verifyPath _ => some (fs, c.goto .raised)
  | .mkdir => some (fs, c.goto .raised)
  | .openTemporary => some (fs, c.goto .raised)
  | .download i _ pending => some (fs, c.goto (.close i pending true))
  | .close i _ _ => some (fs, c.goto (.unlink i .raises))
  | .verifyTemporary i _ => some (fs, c.goto (.unlink i .raises))
  | .hardlink i _ => some (fs, c.goto (.unlink i .raises))
  | .verifyPublished i _ => some (fs, c.goto (.unlink i .raises))
  | .unlink _ _ => some (fs, c.goto .stranded)
  | _ => none

/-- The process is gone; a call that is not running cannot be killed. -/
def kill (fs : Cache) (c : Call) : Option (Cache × Call) :=
  match c.pc with
  | .idle => none
  | .returned _ => none
  | .raised => none
  | .stranded => none
  | .killed => none
  | _ => some (fs, c.goto .killed)

variable (lib : StandardLib)

/-- A call for an entry; one whose entry is accepted is a call of this system when it is for this
    digest and size. -/
def begin (fs : Cache) (c : Call) (entry : Artifact) (offline : Bool) : Option (Cache × Call) :=
  match c.pc with
  | .idle =>
    match checked lib entry with
    | .error _ => some (fs, c.goto .raised)
    | .ok (digest, _, size) =>
      if digest = lock.digest ∧ size = lock.size then some (fs, c.goto (.pathExists offline))
      else none
  | _ => none

/-- One step of one call. -/
def acquireStep (fs : Cache) (c : Call) : BundleEvent → Option (Cache × Call)
  | .call entry offline => begin lock lib fs c entry offline
  | .proceed => proceed sha256 lock fs c
  | .receive block => receive lock fs c block
  | .flush n => flush fs c n
  | .fail => fail fs c
  | .kill => kill fs c

/-- Before any call. -/
def Bundle.start (fs : Cache) : Concurrent Cache Call := ⟨fs, fun _ => ⟨.idle, [], []⟩⟩

end

end Compliance

end AstroPassport
