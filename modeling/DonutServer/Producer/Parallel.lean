/-
One exposure, eight detectors at a time.

The push path lays a blob out before any pixel is read: the images at offsets known from
the camera, the metadata behind them once its size is known, the framing last.  Ingest
lays out the images alone.  Both give each detector a slot of one shared block and let
forked workers fill the slots, in whatever order they happen to run; `encodedBlob` falls
back to the serial encoder when that cannot be done, and ingest does not.
-/
import DonutServer.Wire.InPlace
import DonutServer.Producer.OneFile

namespace DonutServer.Producer

open PyText

variable {A : Afw}

/-! ### The source

The files of an exposure, each under its detector's number.  The numbers are sorted wherever an
order is needed, so that nothing goes by the order in which the files were found.
-/

/-- An exposure's files, each under its detector's number: `resolve_exposure_dir` takes the
key and the handle's number from the same header. -/
structure RawSource (A : Afw) where
  handles : OrderedDict Nat (RawHandle A)
  keyed : ∀ entry ∈ handles.entries, entry.2.detectorNum = entry.1

/-- `sorted(source.handles)`, each with its handle. -/
def RawSource.sorted (source : RawSource A) : List (Nat × RawHandle A) :=
  source.handles.entries.insertionSort fun a b => a.1 ≤ b.1

/-- What an encoder raises. -/
inductive EncodeError
  | parallelEncodeUnavailable (message : String)
  | raised (exc : Exn)
  | packing (error : PackError)

/-! ### The serial encoder

One file after the other, and two parts for each.
-/

/-- The two parts of each exposure, under the name of its own detector. -/
def rawParts (env : CameraEnv A) (load : RawHandle A → Except Exn (Exposure A)) :
    List (Nat × RawHandle A) → OrderedDict String Bytes → Except Exn (OrderedDict String Bytes)
  | [], parts => .ok parts
  | entry :: rest, parts => do
      let exp ← load entry.2
      let name ← exp.detectorName env
      let encoded ← encodeExposure env exp
      rawParts env load rest
        ((parts.set (partName name imgSuffix) encoded.1).set (partName name metaSuffix) encoded.2)

def buildRawParts (env : CameraEnv A) (load : RawHandle A → Except Exn (Exposure A))
    (source : RawSource A) : Except Exn (OrderedDict String Bytes) :=
  rawParts env load source.sorted OrderedDict.empty

/-! ### The machine

What a run may meet: settings of its environment, memory that may not be there and holds anything
when it is handed out, and workers that run in some order or not at all.  All of it is arbitrary.
-/

/-- Why the results of a pool never came. -/
inductive PoolFailure
  | timeoutError
  | failed (text : String)

def PoolFailure.message : PoolFailure → String
  | .timeoutError => "a worker did not return within 120s; assuming one died " ++
      "without reporting (OOM killer, segfault, or external kill)"
  | .failed text => s!"fork pool failed: {text}"

/-- What the machine does: what is set in its environment, what its shared memory has room
for and holds when it is handed out, and in what order the workers of a pool run. -/
structure Host where
  /-- `DONUT_SERVER_SERIAL_ENCODE` is set. -/
  serialEncode : Bool
  /-- What `_assert_single_threaded_blas` finds wrong. -/
  hotThreadPools : Option String
  shmFreeBytes : Option Nat
  /-- `SharedMemory(create=True, size=size)`, or the text of the `OSError`. -/
  sharedMemory : Nat → Except String Bytes
  sharedMemory_size : ∀ size block, sharedMemory size = .ok block → size ≤ block.length
  poolFailure : Option PoolFailure
  schedule : {α : Type} → List α → List α
  schedule_perm : ∀ {α : Type} (l : List α), (schedule l).Perm l
  /-- What a fresh array holds. -/
  scratch : Nat → Nat → Pixel

/-- `f"{n / 1024 / 1024:.0f}"` -/
def megabytes (n : Nat) : String :=
  let whole := n / 2 ^ 20
  let rest := n % 2 ^ 20
  let up := 2 ^ 20 < 2 * rest ∨ 2 * rest = 2 ^ 20 ∧ whole % 2 = 1
  toString (if up then whole + 1 else whole)

/-- A shared block of at least `size` bytes. -/
def Host.allocate (host : Host) (size : Nat) : Except EncodeError Bytes :=
  match host.shmFreeBytes.filter (· < size) with
  | some free =>
      .error (.parallelEncodeUnavailable (s!"/dev/shm has {megabytes free} MB free but this " ++
        s!"exposure needs {megabytes size} MB"))
  | none =>
      match host.sharedMemory size with
      | .error text => .error (.parallelEncodeUnavailable s!"cannot create shared block: {text}")
      | .ok block => .ok block

/-! ### Slots and workers

A worker is forked with the tasks it may find, and writes through a view of the shared block.  It
shares nothing else with the parent, so what it leaves is its slot and what it returns; an
exception is returned like a value, and raised by the parent.
-/

/-- What a worker finds under its detector's number: the handle and the slot. -/
structure Task (A : Afw) where
  detId : Nat
  handle : RawHandle A
  offset : Nat
  byteCount : Nat
  shape : Nat × Nat

/-- One detector's pixels blitted through a view of the block. -/
def fillSlot (env : CameraEnv A) (scratch : Nat → Nat → Pixel) (task : Task A) (block : Bytes) :
    Except Exn (Bytes × Assembled A) :=
  let expected := imageSize task.shape
  if expected ≠ task.byteCount then
    .error (.runtime (s!"detector {task.detId} slot is {task.byteCount} bytes but its shape " ++
      s!"{reprShape task.shape} needs {expected}"))
  else if block.length < task.offset + expected then
    .error env.bufferTooSmall
  else do
    let target := imageOf task.shape (block.drop task.offset)
    let a ← assembleImage env scratch task.handle (some target)
    .ok (Buffer.write block task.offset (imageBytes a.array), a)

/-- A worker of the push path: its pixels go into the block, and its metadata pickle is
returned.  An exception is returned as a value; what a worker that failed left in its slot
is never read. -/
def encodeOne (env : CameraEnv A) (scratch : Nat → Nat → Pixel) (task : Task A) (block : Bytes) :
    Bytes × Except String Bytes :=
  match fillSlot env scratch task block with
  | .error exc => (block, .error exc.described)
  | .ok (block, a) =>
      let pickled := do
        let stub ← buildStub env task.handle a.bbox a.detector
        encodeMeta env stub (some a.bbox)
      (block, pickled.mapError Exn.described)

/-- A worker of ingest: it returns nothing. -/
def assembleOne (env : CameraEnv A) (scratch : Nat → Nat → Pixel) (task : Task A)
    (block : Bytes) : Bytes × Except String Unit :=
  match fillSlot env scratch task block with
  | .error exc => (block, .error exc.described)
  | .ok (block, _) => (block, .ok ())

/-- The tasks run in the order given, and what each one reported. -/
def runWorkers {β : Type} (worker : Task A → Bytes → Bytes × Except String β) :
    List (Task A) → Bytes → Bytes × List (Nat × Except String β)
  | [], block => (block, [])
  | task :: rest, block =>
      let done := worker task block
      let others := runWorkers worker rest done.1
      (others.1, (task.detId, done.2) :: others.2)

/-- `min(n_workers or len(det_ids), len(det_ids))`: no more workers than detectors. -/
def workerCount (nWorkers : Option Int) (count : Nat) : Int :=
  match nWorkers with
  | none => count
  | some n => if n = 0 then count else min n count

/-- What each task reported, in the order of the tasks. -/
def inTaskOrder {β : Type} (results : List (Nat × Except String β)) (tasks : List (Task A)) :
    List (Nat × Except String β) :=
  let reported := OrderedDict.empty.update results
  tasks.filterMap fun task => (reported.get? task.detId).map fun result => (task.detId, result)

def failures {β : Type} : List (Nat × Except String β) → List String
  | [] => []
  | (detId, .error text) :: rest => s!"detector {detId}: {text}" :: failures rest
  | (_, .ok _) :: rest => failures rest

def returned {β : Type} : List (Nat × Except String β) → List β
  | [] => []
  | (_, .error _) :: rest => returned rest
  | (_, .ok value) :: rest => value :: returned rest

/-- The block after every worker has returned, and what they returned. -/
def fanOut {β : Type} (host : Host) (worker : Task A → Bytes → Bytes × Except String β)
    (tasks : List (Task A)) (nWorkers : Option Int) (block : Bytes) :
    Except EncodeError (Bytes × List β) :=
  if workerCount nWorkers tasks.length < 1 then
    .error (.raised ⟨.valueError, "Number of processes must be at least 1"⟩)
  else
    match host.poolFailure with
    | some failure => .error (.parallelEncodeUnavailable failure.message)
    | none =>
        let done := runWorkers worker (host.schedule tasks) block
        let results := inTaskOrder done.2 tasks
        if failures results ≠ [] then
          .error (.parallelEncodeUnavailable ("; ".intercalate (failures results)))
        else
          .ok (done.1, returned results)

/-! ### Laying out

The offsets are chosen before anything is read, from the shapes the camera gives.
-/

/-- Parts placed one behind the other so far, and where the next one goes. -/
structure Laid (κ : Type) where
  sizes : OrderedDict κ Nat
  offsets : OrderedDict κ Nat
  cursor : Nat

def Laid.nothing (κ : Type) : Laid κ := ⟨OrderedDict.empty, OrderedDict.empty, 0⟩

def layParts {κ : Type} [DecidableEq κ] : Laid κ → List (κ × Nat) → Laid κ
  | laid, [] => laid
  | laid, (part, size) :: rest =>
      layParts ⟨laid.sizes.set part size, laid.offsets.set part laid.cursor, laid.cursor + size⟩
        rest

/-- `offsets[part]` -/
def Laid.offsetOf {κ : Type} [DecidableEq κ] (laid : Laid κ) (part : κ) : Nat :=
  (laid.offsets.get? part).getD 0

/-- `_image_shape(camera[handle.detector_num])` -/
def imageShape (env : CameraEnv A) (handle : RawHandle A) : Except Exn (Nat × Nat) := do
  let detector ← env.camera handle.detectorNum
  .ok (env.calcRawCcdBBox detector).shape

/-- One detector of the source: its number and handle, the name its header gives it, and
the shape its image will have. -/
structure Sensor (A : Afw) where
  detId : Nat
  handle : RawHandle A
  name : String
  shape : Nat × Nat

def Sensor.imgPart (s : Sensor A) : String := partName s.name imgSuffix

def Sensor.metaPart (s : Sensor A) : String := partName s.name metaSuffix

/-- The names are read off all the headers first, then the shapes off the camera. -/
def readSensors (env : CameraEnv A) (source : RawSource A) : Except Exn (List (Sensor A)) := do
  let names ← source.sorted.mapM fun entry => detectorName env entry.2.header
  let shapes ← source.sorted.mapM fun entry => imageShape env entry.2
  .ok ((source.sorted.zip (names.zip shapes)).map fun s => ⟨s.1.1, s.1.2, s.2.1, s.2.2⟩)

/-- The slots of the images, `dataStart` bytes into the block. -/
def imageTasks (dataStart : Nat) (images : Laid String) (sensors : List (Sensor A)) :
    List (Task A) :=
  sensors.map fun s =>
    ⟨s.detId, s.handle, dataStart + images.offsetOf s.imgPart, imageSize s.shape, s.shape⟩

/-! ### The push path

Whatever is told as `ParallelEncodeUnavailable` makes the encoder fall back to the serial one: no
room for the block, a pool that broke, metadata that turned out too large, or a worker that raised.
What is wrong with a file is then raised by the serial encoder.
-/

def expectedSensors : Nat := 8

/-- Room for the metadata, whose size is not known when the block is created. -/
def metaAllowance : Nat := expectedSensors * 4 * 1024 * 1024

/-- The layout finished, and the framing and the metadata written around the images. -/
def finishBlob (sensors : List (Sensor A)) (images : Laid String) (metas : List Bytes)
    (blockSize : Nat) (block : Bytes) : Except EncodeError (Bytes × Nat) :=
  let metaParts := (sensors.zip metas).map fun s => (s.1.metaPart, s.2)
  let laid := layParts images (metaParts.map fun part => (part.1, part.2.length))
  match buildFraming laid.sizes (some laid.offsets) with
  | .error e => .error (.packing e)
  | .ok f =>
      if blockSize < f.totalSize then
        .error (.parallelEncodeUnavailable
          (s!"metadata came to {f.totalSize - blockSize} bytes more than the " ++
            s!"{metaAllowance} byte allowance"))
      else
        .ok (Buffer.writeAll (Buffer.write block 0 f.framing) (f.pieces metaParts), f.totalSize)

/-- Everything once the sensors are known: the block, and how much of it is the blob. -/
def encodeSensors (env : CameraEnv A) (host : Host) (sensors : List (Sensor A))
    (nWorkers : Option Int) : Except EncodeError (Bytes × Nat) := do
  let images := layParts (Laid.nothing String)
    (sensors.map fun s => (s.imgPart, imageSize s.shape))
  let descriptors ←
    (descriptorRegionSize (sensors.flatMap fun s => [s.imgPart, s.metaPart])).mapError
      EncodeError.packing
  let blockSize := headerSize + descriptors + images.cursor + metaAllowance
  let block ← host.allocate blockSize
  let tasks := imageTasks (headerSize + descriptors) images sensors
  let filled ← fanOut host (encodeOne env host.scratch) tasks nWorkers block
  finishBlob sensors images filled.2 blockSize filled.1

def buildPartsParallel (env : CameraEnv A) (host : Host) (source : RawSource A)
    (nWorkers : Option Int) : Except EncodeError (Bytes × Nat) :=
  if host.serialEncode then
    .error (.parallelEncodeUnavailable "DONUT_SERVER_SERIAL_ENCODE is set")
  else if source.sorted = [] then
    .error (.parallelEncodeUnavailable "no detectors to encode")
  else
    match host.hotThreadPools with
    | some text => .error (.parallelEncodeUnavailable text)
    | none =>
        match readSensors env source with
        | .error exc => .error (.raised exc)
        | .ok sensors => encodeSensors env host sensors nWorkers

/-- The push body of a source. -/
def encodedBlob (env : CameraEnv A) (host : Host) (source : RawSource A)
    (nWorkers : Option Int) : Except EncodeError Bytes :=
  match buildPartsParallel env host source nWorkers with
  | .ok (block, total) => .ok (block.take total)
  | .error (.parallelEncodeUnavailable _) =>
      match buildRawParts env (loadRaw env host.scratch) source with
      | .error exc => .error (.raised exc)
      | .ok parts => (packBlob parts).mapError EncodeError.packing
  | .error e => .error e

/-! ### The ingest path

Here nothing is framed, and nothing is fallen back to: what fails is raised.
-/

/-- One exposure that is a view of its slot. -/
def wrapSlot (env : CameraEnv A) (block : Bytes) (handle : RawHandle A) (offset : Nat) :
    Except Exn (String × Exposure A) := do
  let camera ← env.camera handle.detectorNum
  let detector := env.makeUpdatedDetector camera
  let bbox := env.calcRawCcdBBox detector
  let stub ← buildStub env handle bbox detector
  if block.length < offset + imageSize bbox.shape then
    .error env.bufferTooSmall
  else
    let array := imageOf bbox.shape (block.drop offset)
    .ok (detector.name, { exposureF A bbox with image := array }.withInfo stub.info)

/-- The slots of an ingest, back to back: no framing and no descriptors. -/
def ingestSlots (shapes : List ((Nat × RawHandle A) × (Nat × Nat))) : Laid Nat :=
  layParts (Laid.nothing Nat) (shapes.map fun s => (s.1.1, imageSize s.2))

def ingestTasks (slots : Laid Nat) (shapes : List ((Nat × RawHandle A) × (Nat × Nat))) :
    List (Task A) :=
  shapes.map fun s => ⟨s.1.1, s.1.2, slots.offsetOf s.1.1, imageSize s.2, s.2⟩

def ingestedExposures (env : CameraEnv A) (host : Host) (source : RawSource A)
    (nWorkers : Option Int) : Except EncodeError (OrderedDict String (Exposure A)) :=
  if source.sorted = [] then
    .error (.parallelEncodeUnavailable "no detectors to assemble")
  else
    match host.hotThreadPools with
    | some text => .error (.parallelEncodeUnavailable text)
    | none => do
        let shapes ← (source.sorted.mapM fun entry => imageShape env entry.2).mapError
          EncodeError.raised
        let slots := ingestSlots (source.sorted.zip shapes)
        let tasks := ingestTasks slots (source.sorted.zip shapes)
        let block ← host.allocate slots.cursor
        let filled ← fanOut host (assembleOne env host.scratch) tasks nWorkers block
        let wrapped ← (tasks.mapM fun task =>
          wrapSlot env filled.1 task.handle task.offset).mapError EncodeError.raised
        .ok (OrderedDict.empty.update wrapped)

/-! ### The coordinator's end

What the push path sends is read in place: the parts are slices of the block, grouped by sensor and
decoded one sensor after the other.
-/

/-- What `reconstruct_exposures` raises. -/
inductive RebuildError
  | protocol (error : ParseError)
  | raised (exc : Exn)

/-- One exposure a sensor, read in place out of the shared block. -/
def reconstructExposures (env : CameraEnv A) (view : Bytes) (layout : List PartLayout) :
    Except RebuildError (OrderedDict String (Exposure A)) :=
  let parts := OrderedDict.empty.update
    (layout.map fun part => (part.name, slice view part.offset part.byteCount))
  match splitParts parts with
  | .error e => .error (.protocol e)
  | .ok sensors =>
      match sensors.entries.mapM fun entry =>
          (decodeExposure env entry.2.1 entry.2.2).map fun exp => (entry.1, exp) with
      | .error exc => .error (.raised exc)
      | .ok exposures => .ok (OrderedDict.empty.update exposures)

end DonutServer.Producer
