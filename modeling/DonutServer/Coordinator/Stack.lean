/-
What a coordinator takes from outside its own source.

The stack's values are never looked into: a config is made, overridden and handed
to a task, a calib or a catalog is read from somewhere and kept.  `Stack` names
their types and `Env` the calls the coordinator makes, each a function of its
inputs that may raise, together with the environment variables, which do not change
while the process lives.

That one and the same call may also fail at one time and not at another is not in
`Env`: the process has faults of its own for that.
-/
import DonutServer.Lib.PyText
import DonutServer.Lib.OrderedDict
import DonutServer.Commands

namespace DonutServer

/-! ### Exceptions

An exception is told by its type and its text, which is all that any of them becomes part of: a
reply, or a line of the log.
-/

/-- The type of an exception.  The first three are the coordinator's own. -/
inductive ExnClass
  | configOverrideError
  | calibTimeError
  | calibConfigError
  | runtimeError
  | valueError
  | other (name : String)
  deriving DecidableEq

/-- `type(exc).__name__`. -/
def ExnClass.name : ExnClass → String
  | .configOverrideError => "ConfigOverrideError"
  | .calibTimeError => "CalibTimeError"
  | .calibConfigError => "CalibConfigError"
  | .runtimeError => "RuntimeError"
  | .valueError => "ValueError"
  | .other name => name

/-- An exception and its `str`. -/
structure Exn where
  cls : ExnClass
  text : String
  deriving DecidableEq

/-- `RuntimeError(message)`, which is what the coordinator raises where it has no type of its
own. -/
def Exn.runtime (text : String) : Exn := ⟨.runtimeError, text⟩

/-- `f"{type(exc).__name__}: {exc}"`. -/
def Exn.described (x : Exn) : String := s!"{x.cls.name}: {x.text}"

/-! ### The stack's types

None of these is opened by the coordinator, so none of them has a constructor here: a config is got
from `Env`, changed by `Env` and handed on.  What the coordinator does look at, the ids of a
dataset and the names of a config's connections, is in the records below.
-/

/-- The types whose values the coordinator passes around.  A `Number` is what a config
field holds, a `Calib` one calibration object, a `Row` one source of the reference
catalog, a `Timespan` an instant, and a `Raw` one sensor's exposure. -/
structure Stack where
  Config : Type
  Number : Type
  Code : Type
  Task : Type
  Calib : Type
  Row : Type
  Timespan : Type
  Raw : Type

/-- The raws of one job, by the name each arrived under. -/
abbrev Exposures (S : Stack) := OrderedDict String S.Raw

/-- A call that `ConfigOverrides` remembers until `applyTo`. -/
inductive ConfigCall (S : Stack)
  | addValueOverride (field value : String)
  | addPythonOverride (code : S.Code)

/-- The names of a config's connections. -/
structure Connections where
  inputs : Finset String
  prerequisiteInputs : Finset String
  outputs : Finset String

/-- A data id, its instrument apart. -/
structure DataId where
  detector : Nat
  physicalFilter : Option String
  deriving DecidableEq

/-- What a registry says of a dataset it found. -/
structure DatasetRef where
  id : Nat
  datasetType : String
  dataId : DataId
  deriving DecidableEq

/-! ### The calls out of the process

A call that raises gives an exception and no value, and the coordinator's own code decides what
becomes of it: some are caught and reworded, some are left to fail the command.  What a call reads
of the outside is in the `Env` it is a field of, so that two calls under one `Env` with one
argument come to the same.
-/

structure Env (S : Stack) where
  /-- `os.environ.get`. -/
  environ : String → Option String
  /-- `repr` of a float. -/
  reprFloat : ℚ → String
  -- The task's config.
  freshConfig : Except Exn S.Config
  setDoSelectionOutput : S.Config → S.Config
  compile : String → String → Except Exn S.Code
  applyTo : List (ConfigCall S) → S.Config → Except Exn S.Config
  connections : S.Config → Except Exn Connections
  hangTimeout : S.Config → Option S.Number
  unitTimeout : S.Config → Option S.Number
  positive : S.Number → Bool
  atMost : S.Number → S.Number → Bool
  reprNumber : S.Number → String
  makeTask : S.Config → Except Exn S.Task
  saveToString : S.Config → Except Exn String
  -- The reference catalog.
  /-- The half-open id ranges of a circle about a boresight. -/
  envelope : ℚ → ℚ → Except Exn (List (Nat × Nat))
  /-- `fits.getdata`: the rows of a file. -/
  getData : String → Except Exn (List S.Row)
  /-- The level-7 index of the place a row is at. -/
  lookupId : S.Row → Nat
  /-- Filling a catalog of the shared schema, which raises for a column it lacks. -/
  fillCatalog : List S.Row → Except Exn Unit
  -- Calibs as files.
  /-- The names of what globbing `*.fits` in a directory finds, in the order of their paths. -/
  listFiles : String → List String
  isDir : String → Bool
  pathExists : String → Bool
  readPtc : String → Except Exn (String × S.Calib)
  readCalib : String → Except Exn S.Calib
  -- Calibs from a repo.
  openButler : String → Except Exn Unit
  queryInfo : List String → Except Exn (List String)
  parseTime : String → Except Exn S.Timespan
  reprTimespan : S.Timespan → String
  findDataset : String → DataId → List String → S.Timespan → Except Exn (Option DatasetRef)
  getDataset : DatasetRef → Except Exn S.Calib
  -- Making the output directory, and the first use of pyarrow.
  makedirs : String → Except Exn Unit
  warmUpParquet : Except Exn Unit
  dimensionUniverse : Except Exn Unit
  -- The raws of a job.
  decodeExposure : Bytes → Bytes → Except Exn S.Raw
  physicalLabel : S.Raw → Except Exn String
  bandLabel : S.Raw → Except Exn String
  visitId : S.Raw → Nat
  /-- `getDetector().getId()`, all that a coordinator asks of a raw's own detector. -/
  detectorId : S.Raw → Nat
  detectorName : S.Raw → String
  dayObs : S.Raw → Except Exn Int
  groupId : S.Raw → Except Exn String
  /-- The half-open id ranges of a raw's padded box. -/
  boxEnvelope : S.Raw → Except Exn (List (Nat × Nat))

variable {S : Stack}

/-- `os.environ.get(name) or default`, with an empty value taken for none. -/
def Env.environOr (env : Env S) (name default : String) : String :=
  match env.environ name with
  | none => default
  | some v => if v = "" then default else v

/-- A variable that has to be set, and what is raised when it is not. -/
def Env.required (env : Env S) (name complaint : String) : Except Exn String :=
  match env.environ name with
  | none => .error (.runtime complaint)
  | some v => if v = "" then .error (.runtime complaint) else .ok v

end DonutServer
