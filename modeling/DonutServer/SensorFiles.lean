/-
The files of the eight corner sensors, as an exposure's directory names them.

`trigger.py` and `daq.py` look for the same pattern, each under a name of its own, and both
join it to the directory they were given and hand the whole to `glob`.  So the directory is
part of the pattern.  `sortedPaths` is what they find; `ownPaths` is what the directory they
were given holds, and the two are the same wherever its path has no character that a pattern
would take for another (`literal_of_plain`).
-/
import Mathlib.Data.List.Sort
import DonutServer.Lib.Glob

namespace DonutServer

open Glob

/-- `EXPECTED_SENSORS`. -/
def expectedSensors : Nat := 8

/-- `SW_GLOB`, or `SW_PATTERN`. -/
def swPattern : String := "*_R??_SW?.fits"

/-- What stands for the three wildcards of a name that ends in `_R??_SW?.fits`. -/
def swWildcards (name : List Char) : Option (Char × Char × Char) :=
  match name.rtake 13 with
  | ['_', 'R', a, b, '_', 'S', 'W', c, '.', 'f', 'i', 't', 's'] => some (a, b, c)
  | _ => none

/-- `sorted`, of texts. -/
def sortedTexts (l : List String) : List String := l.insertionSort (· ≤ ·)

/-- `sorted(glob.glob(os.path.join(directory, SW_PATTERN)))` -/
def sortedPaths (tree : FileTree) (directory : String) : List String :=
  sortedTexts (glob tree (PyText.joinPath directory swPattern))

/-! ### The directory's own files

A directory whose path has a `*`, a `?` or a `[` in it is not looked up.  Every directory
that its path matches is searched instead, which need not be one and need not be the one it
names: nothing but `d1` matches `d[1]`.
-/

/-- The files of the pattern that the directory itself lists, sorted. -/
def ownPaths (tree : FileTree) (directory : String) : List String :=
  sortedTexts ((glob1 tree false (dirOf directory) swPattern).map
    (PyText.joinPath (dirOf directory)))

/-- What is found under the directory's path, read as a pattern, are its own files. -/
def Literal (tree : FileTree) (directory : String) : Prop :=
  sortedPaths tree directory = ownPaths tree directory

instance (tree : FileTree) (directory : String) : Decidable (Literal tree directory) :=
  inferInstanceAs (Decidable (_ = _))

theorem literal_of_plain {tree : FileTree} {directory : String}
    (h : hasMagic directory = false) : Literal tree directory :=
  congrArg sortedTexts (glob_plain h (by decide) (by decide))

end DonutServer
