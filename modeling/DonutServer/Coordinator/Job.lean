/-
What a coordinator makes of each command.

`body` is what stands in the `try` of a command's arm, up to the message it is about
to send, and `failure` the message its `except` sends instead.  A job reads the live
config and writes none of it; all it leaves behind is the table that waits to be
written once the reply is out.
-/
import DonutServer.Wire.Pack
import DonutServer.Coordinator.Prepare
import DonutServer.Flight.State

namespace DonutServer

open Effect

variable {S : Stack} (env : Env S)

/-! ### Jobs

A push and an ingest differ in where the raws come from and in nothing else.  Everything is looked
up and checked in the source's order, for the first check that fails is the one that is told.
-/

/-- The bytes of each part, read in place out of the block. -/
def readParts (block : Bytes) (layout : List PartLayout) : OrderedDict String Bytes :=
  OrderedDict.empty.update
    (layout.map fun part => (part.name, slice block part.offset part.byteCount))

/-- A blob that does not split into sensors is a `ProtocolError`. -/
def splitSensors (parts : OrderedDict String Bytes) :
    Except Exn (OrderedDict String (Bytes × Bytes)) :=
  match splitParts parts with
  | .ok sensors => .ok sensors
  | .error (.protocolError message) => .error ⟨.other "ProtocolError", message⟩
  | .error .unicodeDecodeError => .error ⟨.other "UnicodeDecodeError", ""⟩

/-- One exposure a sensor, under the name its parts came under. -/
def decodeSensors (sensors : OrderedDict String (Bytes × Bytes)) : Except Exn (Exposures S) := do
  let decoded ← sensors.entries.mapM fun e => do
    pure (e.1, ← env.decodeExposure e.2.1 e.2.2)
  pure (OrderedDict.empty.update decoded)

/-- `reconstruct_exposures`. -/
def reconstructExposures (layout : List PartLayout) : Code S (Exposures S) := do
  let p ← get
  external (do decodeSensors env (← splitSensors (readParts p.world.block layout)))

/-- `require_task`. -/
def requireTask : Code S S.Task := do
  let p ← get
  match p.task with
  | none =>
      throw (.runtime ("no task configured: /prepare has not run on this coordinator since it " ++
        "started (or its last prepare failed)"))
  | some task => pure task

/-- What `run_job` raises for raws of another filter than the flats. -/
def wrongFilter (raws : String) (loaded : Option String) : Exn :=
  let was := match loaded with
    | none => "None"
    | some f => PyText.reprText f
  .runtime (s!"raws are physical_filter {PyText.reprText raws} but prepare loaded {was}" ++
    " -- the flats would be wrong")

/-- How a sorted set of ids prints. -/
def reprSortedIds (ids : Finset Nat) : String :=
  "[" ++ ", ".intercalate ((sortedIds ids).map toString) ++ "]"

/-- What `build_quantum_context` raises for raws outside the shards that were loaded. -/
def notCovered (uncovered : Finset Nat) : Exn :=
  .runtime ("refcat shards loaded at prepare do not cover these raws: missing " ++
    s!"level-5 shard(s) {reprSortedIds uncovered}. The " ++
    "boresight given to prepare does not match the raws.")

/-- What `build_quantum_context` raises for raws of more than one visit, or of none. -/
def multipleVisits (visits : Finset Nat) : Exn :=
  .runtime s!"raws span multiple visits: {reprSortedIds visits}"

/-- `next(iter(exposures.values()))`. -/
def sampleOf (exposures : Exposures S) : Except Exn S.Raw :=
  match exposures.entries.head? with
  | some e => .ok e.2
  | none => .error ⟨.other "StopIteration", ""⟩

/-- `shard_ids_for_exposures`. -/
def shardIdsForExposures (exposures : Exposures S) : Except Exn (Finset Nat) := do
  let ranges ← exposures.entries.mapM fun e => env.boxEnvelope e.2
  pure (ranges.flatMap rangeSetIds).toFinset

/-- The names that no calibs were loaded under. -/
def missingCalibs (exposures : Exposures S) (calib : CalibSet S) : Finset String :=
  exposures.keys.toFinset \ calib.detector.ptcByName.keys.toFinset

/-- `visit_ids`. -/
def visitIds (exposures : Exposures S) : Finset Nat :=
  (exposures.entries.map fun e => env.visitId e.2).toFinset

/-- A calib by the name its exposure came under. -/
def calibOf (calibs : OrderedDict String S.Calib) (name : String) : Except Exn S.Calib :=
  match calibs.get? name with
  | some calib => .ok calib
  | none => .error ⟨.other "KeyError", PyText.reprText name⟩

/-- What all the data ids of a quantum share. -/
structure VisitInfo where
  visit : Nat
  physicalFilter : String
  band : String
  dayObs : Int
  group : String

/-- The entries of one exposure: its calibs are looked up by the name it came under, and
put under the id of its own detector. -/
def detectorInputs (calib : CalibSet S) (v : VisitInfo) (e : String × S.Raw) :
    Except Exn (List (QuantumInput S)) := do
  let det := env.detectorId e.2
  let ptc ← calibOf calib.detector.ptcByName e.1
  let linearizer ← calibOf calib.detector.linearizerByName e.1
  let crosstalk ← calibOf calib.detector.crosstalkByName e.1
  let flat ← calibOf calib.filtered.flatByName e.1
  let filtered := InputId.filtered det v.physicalFilter v.band
  let intrinsicZernikes := (calib.filtered.intrinsicZernikesByName.get? e.1).toList.map fun iz =>
    QuantumInput.mk "intrinsicZernikes" filtered (.calib iz)
  pure ([⟨"raws", .raw v.visit det v.dayObs v.group v.physicalFilter v.band, .raw e.2⟩,
    ⟨"ptc", .detector det, .calib ptc⟩, ⟨"linearizer", .detector det, .calib linearizer⟩,
    ⟨"crosstalk", .detector det, .calib crosstalk⟩, ⟨"flat", filtered, .calib flat⟩] ++
    intrinsicZernikes)

/-- `sorted(exposures)`, with the exposures. -/
def sortedExposures (exposures : Exposures S) : List (String × S.Raw) :=
  exposures.entries.insertionSort fun e e' => e.1 ≤ e'.1

/-- The inputs of a quantum over these shards. -/
def quantumInputs (shards : Children S) (exposures : Exposures S) (calib : CalibSet S)
    (v : VisitInfo) : Except Exn (List (QuantumInput S)) := do
  let refCat := shards.entries.map fun e => QuantumInput.mk "refCat" (.htm7 e.1) (.catalog e.2)
  let perDetector ← (sortedExposures exposures).mapM (detectorInputs env calib v)
  pure (refCat ++ perDetector.flatten)

/-- What the data ids take from the sample. -/
def visitInfo (sample : S.Raw) : Except Exn VisitInfo := do
  let physicalFilter ← env.physicalLabel sample
  let band ← env.bandLabel sample
  let dayObs ← env.dayObs sample
  let group ← env.groupId sample
  pure ⟨env.visitId sample, physicalFilter, band, dayObs, group⟩

/-- `build_quantum_context`.  Each thing it asks of the stack may fail. -/
def buildQuantumContext (exposures : Exposures S) (calib : CalibSet S) :
    Code S (QuantumBundle S) := do
  let _ ← requireTask
  fault
  evaluate (if missingCalibs exposures calib ≠ ∅ then
      .error (.runtime
        s!"no calibs loaded for detector(s): {reprSorted (missingCalibs exposures calib)}")
    else .ok ())
  evaluate (if (visitIds env exposures).card ≠ 1 then
      .error (multipleVisits (visitIds env exposures))
    else .ok ())
  let sample ← evaluate (sampleOf exposures)
  let v ← external (visitInfo env sample)
  let needed ← external (shardIdsForExposures env exposures)
  let p ← get
  let store := p.stores p.refcatStore
  evaluate (if needed \ store.shardIds ≠ ∅ then .error (notCovered (needed \ store.shardIds))
    else .ok ())
  let inputs ← external (quantumInputs env store.shards exposures calib v)
  fault
  pure ⟨v.visit, inputs⟩

/-- `run_job` up to where it runs the task. -/
def beforeQuantum (exposures : Exposures S) : Code S (S.Task × QuantumBundle S) := do
  let sample ← evaluate (sampleOf exposures)
  let physicalFilter ← external (env.physicalLabel sample)
  let p ← get
  match p.calibStore with
  | none => throw (wrongFilter physicalFilter none)
  | some (loaded, calib) =>
      evaluate (if loaded ≠ physicalFilter then .error (wrongFilter physicalFilter (some loaded))
        else .ok ())
      let bundle ← buildQuantumContext env exposures calib
      let task ← requireTask
      pure (task, bundle)

/-- `run_job`. -/
def runJob (jobId : JobId) (exposures : Exposures S) (numWorkers : Option Int) :
    Code S JobOutput := do
  let (task, bundle) ← beforeQuantum env exposures
  let p ← get
  let result ← external (p.world.quantum task bundle numWorkers)
  modify fun p => { p with deferred := some jobId }
  pure result

/-- `run_push`. -/
def runPush (jobId : JobId) (layout : List PartLayout) (numWorkers : Option Int) :
    Code S JobOutput := do
  let exposures ← reconstructExposures env layout
  runJob env jobId exposures numWorkers

/-- `run_ingest`; the block of the exposures is unlinked on the way out. -/
def runIngest (jobId : JobId) (directory : String) (numWorkers : Option Int) :
    Code S JobOutput := do
  let p ← get
  let exposures ← external (p.world.raws directory numWorkers)
  let result ← runJob env jobId exposures numWorkers
  fault
  pure result

/-! ### The arms of the command loop

An arm is tried as a whole, and whatever it raises becomes a message of the kind that goes with its
command.  The one thing outside the `try` is the work put off, which follows the reply and cannot
change it any more.
-/

/-- The entry a job was prepared with, activated if it names one. -/
def activateFor : Option PrepareKey → Code S Unit
  | none => pure ()
  | some key => do
      let _ ← ensurePreparedForPush env key
      pure ()

/-- The `try` of a command's arm, up to the message it sends. -/
def body : Command → Code S Msg
  | .prepare c => do
      let (key, timings) ← ensurePrepared env c
      let p ← get
      pure (.prepared timings p.taskDump key)
  | .resolve directory => do
      let p ← get
      let exposure ← external (p.world.headers directory)
      pure (.resolved exposure)
  | .push jobId layout numWorkers key => do
      activateFor env key
      let result ← runPush env jobId layout numWorkers
      pure (.ran result)
  | .ingest jobId directory numWorkers key => do
      activateFor env key
      let result ← runIngest env jobId directory numWorkers
      pure (.ran result)
  | .shutdown => pure .ack
  | .other cmd => pure (.failed s!"unknown cmd {PyText.reprText cmd}" none)

/-- The tag of a prepare's failure. -/
def Exn.kind (exc : Exn) : Option ErrorKind :=
  match exc.cls with
  | .configOverrideError => some .configOverride
  | .calibTimeError => some .calibTime
  | _ => none

/-- The `except` of a command's arm. -/
def failure : Command → Exn → Msg
  | .prepare _, exc => .failed exc.text exc.kind
  | .resolve _, exc => .failed exc.described none
  | _, exc => .failed exc.text none

/-- `_run_deferred`.  Collecting the last job's cycles comes first, outside any `try`;
what goes wrong with a table is swallowed. -/
def runDeferred : Code S Unit := do
  let p ← get
  modify fun p => { p with deferred := none }
  fault
  match p.deferred with
  | none => pure ()
  | some _ =>
      tryCatch fault fun _ => pure ()
      tryCatch fault fun _ => pure ()

/-- What a command puts off until after its reply. -/
def defers : Command → Bool
  | .push .. => true
  | .ingest .. => true
  | _ => false

/-! ### As a child of a flight

A flight sees a process that is sent a command, answers it and is then ready for the next.
`coordinatorProgram` is the coordinator in that form: the message that `attempt` computes, and the
globals once the work put off is done.
-/

/-- The commands whose arm is one `try`. -/
def tried : Command → Bool
  | .shutdown => false
  | .other _ => false
  | _ => true

theorem tried_of_ne {command : Command} (hshutdown : command ≠ .shutdown)
    (hother : ∀ cmd, command ≠ .other cmd) : tried command = true := by
  cases command with
  | shutdown => exact absurd rfl hshutdown
  | other cmd => exact absurd rfl (hother cmd)
  | prepare c => rfl
  | resolve directory => rfl
  | push jobId layout numWorkers key => rfl
  | ingest jobId directory numWorkers key => rfl

/-- The message a command is answered with, and what it leaves.  In a `try` the last
fault is one of the sending itself, which fails before anything is written. -/
def attempt (command : Command) (p : Process S) : Msg × Process S :=
  match (do
      let msg ← body env command
      if tried command then fault
      pure msg).outcome p with
  | (.ok msg, q) => (msg, q)
  | (.error exc, q) => (failure command exc, q)

/-- What is left once the work put off is done. -/
def settle (command : Command) (g : Globals S) : Globals S :=
  if defers command then { g with deferred := none } else g

/-- A coordinator process, as the flight sees it. -/
def coordinatorProgram : ChildProgram (Globals S) (World S) where
  start := .fresh
  run world command mem :=
    let r := attempt env command ⟨mem, world⟩
    (r.1, settle command r.2.toGlobals)

/-! ### What a command leaves

A job reads the config and writes none of it.  `ReadsOnly` says that of code, and the rules below
derive it along the code's construction; with it a command leaves what its prepare or its
activation leaves.
-/

/-- The globals are what they were, but for the table that waits. -/
def Reads (p q : Process S) : Prop :=
  ∃ deferred world, q = { p with deferred := deferred, world := world }

theorem Reads.refl (p : Process S) : Reads p p := ⟨_, _, rfl⟩

/-- Where only the world is another, the globals are what they were. -/
theorem Reads.world (p : Process S) (w : World S) : Reads p { p with world := w } := ⟨_, _, rfl⟩

theorem Reads.trans {p q r : Process S} (h : Reads p q) (h' : Reads q r) : Reads p r := by
  obtain ⟨_, _, rfl⟩ := h
  obtain ⟨_, _, rfl⟩ := h'
  exact ⟨_, _, rfl⟩

/-- Code that only reads the config. -/
def ReadsOnly {α : Type} (m : Code S α) : Prop :=
  ∀ p, Ends m p (fun _ q => Reads p q) (fun _ q => Reads p q)

namespace ReadsOnly

variable {α β : Type}

theorem pure (a : α) : ReadsOnly (Pure.pure a : Code S α) := Within.pure Reads.refl a

theorem throw (exc : Exn) : ReadsOnly (MonadExcept.throw exc : Code S α) :=
  Within.throw Reads.refl exc

theorem get : ReadsOnly (MonadState.get : Code S (Process S)) := Within.get Reads.refl

theorem bind {m : Code S α} {f : α → Code S β} (hm : ReadsOnly m) (hf : ∀ a, ReadsOnly (f a)) :
    ReadsOnly (m >>= f) := Within.bind (R := Reads) (fun _ _ _ => Reads.trans) hm hf

theorem tryCatch {m : Code S α} {f : Exn → Code S α} (hm : ReadsOnly m)
    (hf : ∀ exc, ReadsOnly (f exc)) : ReadsOnly (MonadExcept.tryCatch m f) :=
  Within.tryCatch (R := Reads) (fun _ _ _ => Reads.trans) hm hf

theorem external (x : Except Exn α) : ReadsOnly (DonutServer.external x : Code S α) := by
  intro p
  exact ends_external (fun _ w _ => Reads.world p w) (fun _ w => Reads.world p w)

theorem evaluate (x : Except Exn α) : ReadsOnly (DonutServer.evaluate x : Code S α) :=
  Within.ofExcept Reads.refl x

theorem fault : ReadsOnly (DonutServer.fault : Code S Unit) := by
  intro p
  refine fault_ends.mono ?_ ?_
  · intro _ _ h
    obtain ⟨w, rfl⟩ := h
    exact Reads.world p w
  · intro _ _ h
    obtain ⟨w, rfl⟩ := h
    exact Reads.world p w

theorem defer (deferred : Option JobId) :
    ReadsOnly (modify fun p => { p with deferred := deferred } : Code S PUnit) :=
  fun _ => ⟨_, _, rfl⟩

end ReadsOnly

variable {env : Env S}

theorem requireTask_readsOnly : ReadsOnly (requireTask : Code S S.Task) := by
  unfold requireTask
  refine .bind .get fun p => ?_
  split
  · exact .throw _
  · exact .pure _

theorem buildQuantumContext_readsOnly {exposures : Exposures S} {calib : CalibSet S} :
    ReadsOnly (buildQuantumContext env exposures calib) := by
  unfold buildQuantumContext
  refine .bind requireTask_readsOnly fun _ => .bind .fault fun _ => .bind (.evaluate _) fun _ => ?_
  refine .bind (.evaluate _) fun _ => .bind (.evaluate _) fun _ => .bind (.external _) fun _ => ?_
  refine .bind (.external _) fun _ => .bind .get fun _ => .bind (.evaluate _) fun _ => ?_
  exact .bind (.external _) fun _ => .bind .fault fun _ => .pure _

theorem beforeQuantum_readsOnly {exposures : Exposures S} :
    ReadsOnly (beforeQuantum env exposures) := by
  unfold beforeQuantum
  refine .bind (.evaluate _) fun _ => .bind (.external _) fun _ => .bind .get fun p => ?_
  split
  · exact .throw _
  · exact .bind (.evaluate _) fun _ => .bind buildQuantumContext_readsOnly fun _ =>
      .bind requireTask_readsOnly fun _ => .pure _

theorem runJob_readsOnly {jobId : JobId} {exposures : Exposures S} {numWorkers : Option Int} :
    ReadsOnly (runJob env jobId exposures numWorkers) := by
  unfold runJob
  exact .bind beforeQuantum_readsOnly fun _ => .bind .get fun _ => .bind (.external _) fun _ =>
    .bind (.defer _) fun _ => .pure _

theorem runPush_readsOnly {jobId : JobId} {layout : List PartLayout} {numWorkers : Option Int} :
    ReadsOnly (runPush env jobId layout numWorkers) := by
  unfold runPush reconstructExposures
  exact .bind (.bind .get fun _ => .external _) fun _ => runJob_readsOnly

theorem runIngest_readsOnly {jobId : JobId} {directory : String} {numWorkers : Option Int} :
    ReadsOnly (runIngest env jobId directory numWorkers) := by
  unfold runIngest
  exact .bind .get fun _ => .bind (.external _) fun _ => .bind runJob_readsOnly fun _ =>
    .bind .fault fun _ => .pure _

/-- **The rule for a command.**  What its prepare or its activation leaves, and reading the
config keeps, it leaves. -/
theorem body_ends {p : Process S} {command : Command} {P : Process S → Prop}
    (hp : (∀ c, command ≠ .prepare c) → defers command = false → P p)
    (hreads : ∀ q t, P q → Reads q t → P t)
    (hprepare : ∀ c, command = .prepare c →
      Ends (ensurePrepared env c) p (fun _ q => P q) (fun _ q => P q))
    (hpush : ∀ jobId layout numWorkers key, command = .push jobId layout numWorkers key →
      Ends (activateFor env key) p (fun _ q => P q) (fun _ q => P q))
    (hingest : ∀ jobId directory numWorkers key, command = .ingest jobId directory numWorkers key →
      Ends (activateFor env key) p (fun _ q => P q) (fun _ q => P q)) :
    Ends (body env command) p (fun _ q => P q) (fun _ q => P q) := by
  have hrest : ∀ {α : Type} (m : Code S α), ReadsOnly m → ∀ q, P q →
      Ends m q (fun _ t => P t) (fun _ t => P t) := by
    intro α m hm q hq
    exact (hm q).mono (fun _ t ht => hreads q t hq ht) fun _ t ht => hreads q t hq ht
  cases command with
  | prepare c =>
      refine Ends.bind (hprepare c rfl) fun _ q hq => ?_
      exact hrest _ (.bind .get fun _ => .pure _) q hq
  | resolve directory =>
      have hhere : P p := hp (by simp) rfl
      exact hrest _ (.bind .get fun _ => .bind (.external _) fun _ => .pure _) p hhere
  | push jobId layout numWorkers key =>
      refine Ends.bind (hpush jobId layout numWorkers key rfl) fun _ q hq => ?_
      exact hrest _ (.bind runPush_readsOnly fun _ => .pure _) q hq
  | ingest jobId directory numWorkers key =>
      refine Ends.bind (hingest jobId directory numWorkers key rfl) fun _ q hq => ?_
      exact hrest _ (.bind runIngest_readsOnly fun _ => .pure _) q hq
  | shutdown => exact hp (by simp) rfl
  | other cmd => exact hp (by simp) rfl

/-- A body followed by the fault of sending, as `attempt` runs it. -/
theorem attempt_of_ends {p : Process S} {command : Command} {Q : Msg → Process S → Prop}
    {E : Exn → Process S → Prop} {P : Msg → Process S → Prop}
    (h : Ends (body env command) p Q E)
    (hok : ∀ msg q w, Q msg q → P msg { q with world := w })
    (hlost : ∀ msg exc q w, Q msg q → P (failure command exc) { q with world := w })
    (herror : ∀ exc q, E exc q → P (failure command exc) q) :
    P (attempt env command p).1 (attempt env command p).2 := by
  have hall : Ends (do
      let msg ← body env command
      if tried command then fault
      pure msg) p P (fun exc q => P (failure command exc) q) := by
    rw [ends_bind]
    refine h.mono ?_ herror
    intro msg q hq
    dsimp only
    split
    · rw [ends_bind]
      refine fault_ends.mono ?_ ?_
      · intro _ _ hc
        obtain ⟨w, rfl⟩ := hc
        exact hok msg q w hq
      · intro exc _ hc
        obtain ⟨w, rfl⟩ := hc
        exact hlost msg exc q w hq
    · exact hok msg q q.world hq
  unfold attempt
  unfold Ends at hall
  split <;> rename_i heq <;> rw [heq] at hall <;> exact hall

end DonutServer
