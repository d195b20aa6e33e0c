/-
What crosses the pipe between the front-end and a coordinator.

One command goes down and one reply comes back; nothing on the pipe names the
command a reply belongs to.  A prepare's reply carries the key of the entry it
installed, and a job replays that key with its push or ingest, so the key is part
of the vocabulary of both sides.
-/
import Mathlib.Data.Finset.Sort
import Mathlib.Data.Rat.Defs
import DonutServer.Protocol

namespace DonutServer

abbrev JobId := String

/-! ### Prepare

A prepare says everything that a job's config is made of, so whatever a coordinator caches goes by
something that can be computed from it.  The key is the composite of what can tell two configs
apart.
-/

/-- One entry of `config_overrides`: a `-c` assignment or a `-C` file. -/
inductive Override
  | value (field value : String)
  | python (name : Option String) (text : String)
  deriving DecidableEq, Repr

/-- What an entry contributes to a cache key. -/
inductive KeyEntry
  | value (field value : String)
  | python (name text : String)
  deriving DecidableEq, Repr

/-- `entry.get("name") or "<override>"`. -/
def Override.fileName (name : Option String) : String :=
  match name with
  | none => "<override>"
  | some n => if n = "" then "<override>" else n

def Override.keyEntry : Override → KeyEntry
  | .value field v => .value field v
  | .python name text => .python (fileName name) text

/-- Order-sensitive identity of an override list. -/
def overrideKey (spec : List Override) : List KeyEntry := spec.map Override.keyEntry

/-- A prepare, as `POST /prepare` sends it.  The boresight is finite: `_required_float`
refuses anything else. -/
structure PrepareCommand where
  physicalFilter : String
  boresightRa : ℚ
  boresightDec : ℚ
  calibTime : String
  configOverrides : List Override
  deriving DecidableEq, Repr

/-- The composite cache key for one prepare. -/
structure PrepareKey where
  task : List KeyEntry
  physicalFilter : String
  refcat : Finset Nat
  calibTime : String
  deriving DecidableEq

/-! ### Every other command

A job refers to its prepare by the key alone.  A command without one runs under whatever config is
live, as a job of an old client may.
-/

inductive Command
  | prepare (args : PrepareCommand)
  | resolve (directory : String)
  | push (jobId : JobId) (layout : List PartLayout) (numWorkers : Option Int)
      (preparedKey : Option PrepareKey)
  | ingest (jobId : JobId) (directory : String) (numWorkers : Option Int)
      (preparedKey : Option PrepareKey)
  | shutdown
  | other (cmd : String)
  deriving DecidableEq

/-- `command.get("cmd")`. -/
def Command.cmd : Command → String
  | .prepare _ => "prepare"
  | .resolve _ => "resolve"
  | .push .. => "push"
  | .ingest .. => "ingest"
  | .shutdown => "shutdown"
  | .other cmd => cmd

/-- The key a push or an ingest carries. -/
def Command.preparedKey : Command → Option PrepareKey
  | .push _ _ _ key => key
  | .ingest _ _ _ key => key
  | _ => none

/-! ### Replies

Only what the front-end looks at has a field here.  A failure carries its text, and the tag that
decides between a 400 and a 500.
-/

/-- The tag that lets the front-end answer 400 for an operator's mistake. -/
inductive ErrorKind
  | configOverride
  | calibTime
  deriving DecidableEq, Repr

/-- What resolving an exposure directory reports. -/
structure Exposure where
  visit : Option Int
  physicalFilter : String
  boresightRa : ℚ
  boresightDec : ℚ
  calibTime : String
  imgtype : String
  detectors : List Nat
  deriving DecidableEq, Repr

/-- What a job sends back: its table, and the rest of its report, which the
front-end stores and never looks into. -/
structure JobOutput where
  tableParquet : Bytes
  report : Bytes
  deriving DecidableEq, Repr

/-- What a prepare reports of the work it did, durations apart. -/
structure PrepareTimings where
  taskReused : Bool
  nOverrides : Nat
  refcatReused : Bool
  nLevel5Files : Nat
  nLevel7Shards : Nat
  nRows : Nat
  nShardsLoaded : Nat
  nShardsReused : Nat
  boresight : ℚ × ℚ
  detectorReused : Bool
  filterReused : Bool
  backend : String
  nDetectors : Nat
  nIntrinsicZernikes : Nat
  physicalFilter : String
  calibTime : String
  deriving DecidableEq, Repr

/-- A message from the child. -/
inductive Msg
  | hello
  | fatal (error : String)
  | prepared (timings : PrepareTimings) (configDump : String) (preparedKey : PrepareKey)
  | resolved (result : Exposure)
  | ran (result : JobOutput)
  | ack
  | failed (error : String) (kind : Option ErrorKind)
  deriving DecidableEq

/-- `resp.get("ok")`. -/
def Msg.ok : Msg → Bool
  | .fatal _ => false
  | .failed _ _ => false
  | _ => true

/-- `resp.get("error", default)`. -/
def Msg.errorOr (default : String) : Msg → String
  | .fatal error => error
  | .failed error _ => error
  | _ => default

/-- `resp.get("config_dump")`. -/
def Msg.configDump : Msg → Option String
  | .prepared _ dump _ => some dump
  | _ => none

end DonutServer
