import Mathlib.Data.Fintype.Basic
import Mathlib.Logic.Function.Basic
import Wsddn.Machine.Basic

/-!
# The PID file protocol (`pid_file.h`)

Any number of processes run `PidFile::open` and `~PidFile` on one path.  The unit of interleaving
is the system call: `open` with `O_CREAT`, the try-lock, `fstat` of the descriptor, `stat` of the
path, truncation, the write, the `remove` of the destructor and the closing of the descriptor.
What the kernel decides is part of the event: the inode of a file that has to be created (it may
be one that was used before, as long as no descriptor refers to it), how much of a write is done,
whether a call fails.  A process may die between any two calls.

The lock is an exclusive lock on the file, released when its holder closes the descriptor or dies.
A forked child has a copy of the `PidFile` object, with the PID that made the lock in it: this is
what the comparison with `getpid()` in the destructor is for.

Only the system calls with an effect on the path, the lock or the content of the file are kept:
`createMissingDirs`, `changeMode` and `changeOwner` can only fail here (`Event.raise`).
-/

namespace Wsddn

namespace PidFile

/-- Where a process is.  `i` is the inode that its descriptor refers to. -/
inductive Proc (n : ℕ) (I : Type*) where
  /-- Not in `open`, and without a `PidFile`. -/
  | idle
  /-- At the head of the loop of `open`. -/
  | opening
  | opened (i : I)
  | locked (i : I)
  /-- `fstat` has told the inode. -/
  | checked (i : I)
  /-- `stat` of the path has told the same inode: `initFile` comes next. -/
  | verified (i : I)
  | truncated (i : I)
  /-- With a `PidFile`; `locker` is its `m_lockingProcess`. -/
  | holding (i : I) (locker : Fin n)
  /-- About to close the descriptor, and then to go round the loop again or not. -/
  | closing (i : I) (again : Bool)
  deriving DecidableEq

/-- The inode that the descriptor of a process refers to. -/
def Proc.fd {n : ℕ} {I : Type*} : Proc n I → Option I
  | .idle | .opening => none
  | .opened i | .locked i | .checked i | .verified i | .truncated i | .holding i _
  | .closing i _ => some i

/-- The file system around the path, and the processes.  A process is named by its PID. -/
structure State (n : ℕ) (I : Type*) where
  /-- The inode that the path names. -/
  path : Option I
  lock : I → Option (Fin n)
  content : I → List Char
  proc : Fin n → Proc n I

/-- The system calls, and what the kernel decides about them. -/
inductive Event (n : ℕ) (I : Type*) where
  /-- `PidFile::open` is called. -/
  | start (p : Fin n)
  /-- `open` with `O_CREAT`; `i` is the inode if the file has to be created. -/
  | open (p : Fin n) (i : I)
  | tryLock (p : Fin n)
  | fstat (p : Fin n)
  /-- `stat` of the path, which may fail even if the path exists. -/
  | stat (p : Fin n) (ok : Bool)
  | truncate (p : Fin n)
  /-- `k` bytes are written. -/
  | write (p : Fin n) (k : ℕ)
  /-- A system call of `open` fails and `open` is left by an exception. -/
  | raise (p : Fin n)
  /-- The process with the PID file forks. -/
  | fork (p q : Fin n)
  /-- The destructor, up to the closing of the descriptor; `ok` tells if the removal works. -/
  | destroy (p : Fin n) (ok : Bool)
  | close (p : Fin n)
  /-- The process dies.  Its PID may be used again. -/
  | crash (p : Fin n)
  deriving DecidableEq

/-- What is written to the file: the PID in decimal and a newline. -/
def pidText {n : ℕ} (p : Fin n) : List Char := (Nat.repr p.val).toList ++ ['\n']

variable {n : ℕ} {I : Type*} [DecidableEq I]

namespace State

/-- Process `p` goes on to `x`. -/
def goto (s : State n I) (p : Fin n) (x : Proc n I) : State n I :=
  { s with proc := Function.update s.proc p x }

/-- The kernel drops the lock of `p` on `i`, if there is one. -/
def release (s : State n I) (p : Fin n) (i : I) : State n I :=
  { s with lock := Function.update s.lock i (if s.lock i = some p then none else s.lock i) }

/-- The file gets another text. -/
def setContent (s : State n I) (i : I) (text : List Char) : State n I :=
  { s with content := Function.update s.content i text }

/-- One system call. -/
def step (s : State n I) : Event n I → Option (State n I)
  | .start p =>
    match s.proc p with
    | .idle => some (s.goto p .opening)
    | _ => none
  | .open p i =>
    match s.proc p, s.path with
    | .opening, some j => some (s.goto p (.opened j))
    | .opening, none =>
      if ∀ q, (s.proc q).fd ≠ some i then
        some { (s.goto p (.opened i)).setContent i [] with path := some i }
      else none
    | _, _ => none
  | .tryLock p =>
    match s.proc p with
    | .opened i =>
      match s.lock i with
      | none => some { s.goto p (.locked i) with lock := Function.update s.lock i (some p) }
      | some _ => some (s.goto p (.closing i false))
    | _ => none
  | .fstat p =>
    match s.proc p with
    | .locked i => some (s.goto p (.checked i))
    | _ => none
  | .stat p ok =>
    match s.proc p with
    | .checked i =>
      if ok = true ∧ s.path = some i then some (s.goto p (.verified i))
      else some (s.goto p (.closing i true))
    | _ => none
  | .truncate p =>
    match s.proc p with
    | .verified i => some ((s.goto p (.truncated i)).setContent i [])
    | _ => none
  | .write p k =>
    match s.proc p with
    | .truncated i =>
      if (pidText p).length < k then none
      else
        let t := s.setContent i ((pidText p).take k ++ (s.content i).drop k)
        -- A partial write raises.
        if k = (pidText p).length then some (t.goto p (.holding i p))
        else some (t.goto p (.closing i false))
    | _ => none
  | .raise p =>
    match s.proc p with
    | .opening => some (s.goto p .idle)
    | .opened i | .locked i | .verified i | .truncated i => some (s.goto p (.closing i false))
    | _ => none
  | .fork p q =>
    match s.proc p, s.proc q with
    | .holding i l, .idle => if l = p then some (s.goto q (.holding i l)) else none
    | _, _ => none
  | .destroy p ok =>
    match s.proc p with
    | .holding i l =>
      if p ≠ l then some (s.goto p (.closing i false))
      else some { s.goto p (.closing i false) with path := if ok = true then none else s.path }
    | _ => none
  | .close p =>
    match s.proc p with
    | .closing i again => some ((s.goto p (if again = true then .opening else .idle)).release p i)
    | _ => none
  | .crash p =>
    match (s.proc p).fd with
    | some i => some ((s.goto p .idle).release p i)
    | none => some (s.goto p .idle)

/-- Process `p` holds the PID file: it has the `PidFile` that its own call of `open` returned. -/
def Holds (s : State n I) (p : Fin n) : Prop := ∃ i, s.proc p = .holding i p

end State

/-- The processes at work.  At first nobody holds anything, and the path may name a file that was
left behind, with any content. -/
def pidFiles (n : ℕ) (I : Type*) [DecidableEq I] : Machine (State n I) (Event n I) where
  init s := (∀ p, s.proc p = .idle) ∧ ∀ i, s.lock i = none
  step := State.step

end PidFile

end Wsddn
