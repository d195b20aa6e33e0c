/-
Waiting for the files of an exposure.

What one poll meets with is given: the instant it starts at, what the file system answers
while the poll globs, how long it takes to look at each file, and when it looks at the clock
again.  Whether time passes between any two of these, and how much, is left open.  Nothing is
assumed of how the answers to one poll go with those to the next, or those of a glob with
those of a stat: files come and go, grow and are renamed at any moment.

A file is known by its path.  The sensor it is counted for is read off its name, and two
files may be counted for one sensor.
-/
import Mathlib.Data.Rat.Defs
import DonutServer.Lib.OrderedDict
import DonutServer.Lib.Timeline
import DonutServer.SensorFiles

namespace DonutServer.Trigger

open PyText

/-! ### One poll

`poll_once` globs the directory and then looks at each file it has found, first for its
sidecar and then for its size.  A file without a sidecar, or one that is gone when it is
stat'ed, is left out without a word; of two files for one sensor the one that was found last
is kept.
-/

/-- `sensor_of` -/
def sensorOf (path : String) : String :=
  let name := baseName path
  match swWildcards name.toList with
  | some (a, b, c) =>
      if isDecimal a ∧ isDecimal b ∧ isDecimal c then
        String.ofList ['R', a, b, '_', 'S', 'W', c]
      else name
  | none => name

/-- The path of a file's sidecar. -/
def sidecarOf (path : String) : String := dropSuffix path ".fits" ++ ".json"

/-- The size of a file, and when it was that size. -/
abbrev Stat := Observation Nat ℚ

/-- What a poll comes by, and what is found when the directory is globbed once more to return
its files. -/
structure Poll where
  polledAt : ℚ
  tree : Glob.FileTree
  /-- `os.path.exists(path)` -/
  pathExists : String → Bool
  /-- `os.path.getsize(path)`, and when it was asked; nothing where it raises. -/
  getsize : String → Option Stat
  checkedAt : ℚ
  again : Glob.FileTree

/-- The files a poll finds, in the order it finds them. -/
def Poll.paths (directory : String) (p : Poll) : List String :=
  Glob.glob p.tree (joinPath directory swPattern)

/-- The size a file counts with, if it does. -/
def Poll.counted (p : Poll) (path : String) : Option Stat :=
  if p.pathExists (sidecarOf path) then p.getsize path else none

/-- A turn of the loop of `poll_once`. -/
def Poll.addTo (p : Poll) (found : OrderedDict String Nat) (path : String) :
    OrderedDict String Nat :=
  match p.counted path with
  | some stat => found.set (sensorOf path) stat.value
  | none => found

/-- `poll_once` -/
def pollOnce (directory : String) (p : Poll) : OrderedDict String Nat :=
  (p.paths directory).foldl p.addTo .empty

/-! ### The loop

The window is kept as the instant it was opened at, which is dated back to the poll before
the first match: that poll already held every size.  A poll that finds anything else forgets
it.  When the window has lasted, the directory is globbed again, and what that finds is
returned.
-/

inductive WaitError
  | valueError (text : String)
  | timeoutError (timeout : ℚ) (directory : String) (count : Nat) (missing : Int)
      (saw : List String)
  deriving DecidableEq

/-- What the loop remembers of the polls before. -/
structure Watch where
  previous : Option (OrderedDict String Nat)
  previousAt : ℚ
  completeAt : Option ℚ

/-- What a poll leads to. -/
inductive Verdict
  | goesOn (w : Watch)
  | returns (paths : List String) (completeAt : ℚ)
  | raises (error : WaitError)

/-- What the parameters of a call come to. -/
structure Waiting where
  directory : String
  timeout : ℚ
  settleTime : ℚ
  deadline : ℚ

/-- The end of an iteration: the deadline is looked at, and another poll follows. -/
def Waiting.next (q : Waiting) (p : Poll) (completeAt : Option ℚ) : Verdict :=
  let found := pollOnce q.directory p
  if q.deadline ≤ p.checkedAt then
    .raises (.timeoutError q.timeout q.directory found.size (expectedSensors - found.size)
      (sortedTexts found.keys))
  else .goesOn ⟨some found, p.polledAt, completeAt⟩

/-- An iteration. -/
def Waiting.poll (q : Waiting) (w : Watch) (p : Poll) : Verdict :=
  let found := pollOnce q.directory p
  if found.size = expectedSensors && w.previous.any found.same then
    -- The first match dates the window back to the poll before.
    let completeAt := w.completeAt.getD w.previousAt
    if q.settleTime ≤ p.polledAt - completeAt then
      .returns (sortedPaths p.again q.directory) completeAt
    else q.next p (some completeAt)
  else q.next p none

/-- The loop, on the polls it makes; nothing while it is still polling. -/
def Waiting.loop (q : Waiting) :
    Watch → List Poll → Option (Except WaitError (List String × ℚ))
  | _, [] => none
  | w, p :: rest =>
      match q.poll w p with
      | .goesOn w' => q.loop w' rest
      | .returns paths completeAt => some (.ok (paths, completeAt))
      | .raises error => some (.error error)

/-- `wait_for_exposure`, with what the clock shows before its loop. -/
def waitForExposure (directory : String) (timeout interval settleTime : ℚ)
    (startedAt previousAt : ℚ) (polls : List Poll) :
    Option (Except WaitError (List String × ℚ)) :=
  if settleTime ≤ 0 then some (.error (.valueError "settle_time must be > 0"))
  else if interval ≤ 0 then some (.error (.valueError "interval must be > 0"))
  else
    (Waiting.mk directory timeout settleTime (startedAt + timeout)).loop
      ⟨none, previousAt, none⟩ polls

end DonutServer.Trigger
