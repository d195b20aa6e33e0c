/-
Workers that fill slots of one block, and layouts that place parts one behind the other.

A worker that returns has written its image at its slot and nowhere else, whatever the
block held (`fillSlot_ok`), so a pool of workers leaves each image in its slot in whatever
order they ran (`fanOut_fills`).  `layParts` gives every part the range right behind the
one before (`layParts_entries`).
-/
import DonutServer.Producer.Parallel

namespace DonutServer.Producer

variable {A : Afw} {env : CameraEnv A}

/-! ### One file loaded

Whatever an array held when it was handed out, a file whose amplifiers tile the CCD loads as the
same image.  So a loaded file is what it gives into an array of zeros, and stands for what it gives
into any other.
-/

/-- A fresh array that happens to be zero. -/
def blank : Nat → Nat → Pixel := fun _ _ => 0

/-- What one file gives: the image, and the stub built for it. -/
structure Loaded (A : Afw) where
  assembled : Assembled A
  stub : Exposure A

def loaded (env : CameraEnv A) (handle : RawHandle A) : Except Exn (Loaded A) := do
  let a ← assembleImage env blank handle none
  let stub ← buildStub env handle a.bbox a.detector
  .ok ⟨a, stub⟩

/-- The box, name, bytes, pickle and exposure of a loaded file. -/
def Loaded.bbox (l : Loaded A) : Box := l.assembled.bbox

def Loaded.name (l : Loaded A) : String := l.assembled.detector.name

def Loaded.img (l : Loaded A) : Bytes := imageBytes l.assembled.array

def Loaded.pickle (env : CameraEnv A) (p : Pixel) (l : Loaded A) : Bytes :=
  env.dumps ⟨onePixel A l.bbox p l.stub.info, l.bbox⟩

def Loaded.exposure (l : Loaded A) : Exposure A := l.assembled.exposure l.stub.info

theorem loaded_ok {handle : RawHandle A} {l : Loaded A} :
    loaded env handle = .ok l ↔ assembleImage env blank handle none = .ok l.assembled ∧
      buildStub env handle l.bbox l.assembled.detector = .ok l.stub := by
  unfold loaded
  constructor
  · intro h
    obtain ⟨a, ha, h⟩ := Except.bind_eq_ok.mp h
    obtain ⟨stub, hstub, h⟩ := Except.bind_eq_ok.mp h
    rw [← Except.ok.inj h]
    exact ⟨ha, hstub⟩
  · intro h
    exact Except.bind_eq_ok.mpr ⟨_, h.1, Except.bind_eq_ok.mpr ⟨_, h.2, rfl⟩⟩

/-- An image is as many bytes as its box asks for. -/
theorem Loaded.length_img {handle : RawHandle A} {l : Loaded A}
    (h : loaded env handle = .ok l) : l.img.length = imageSize l.bbox.shape := by
  unfold Loaded.img
  rw [length_imageBytes, assembleImage_shape (loaded_ok.mp h).1]
  rfl

/-! ### One worker

A worker has a task and a block, and writes at most into the slot of its task.  For those that
return it is known what they wrote, and for all of them that they left everything else alone.
-/

/-- **A worker's slot**: it is filled exactly when the file assembles to the slot's shape. -/
theorem fillSlot_ok {task : Task A} (hsound : task.handle.Sound env)
    (scratch : Nat → Nat → Pixel) {block block' : Bytes} {a : Assembled A} :
    fillSlot env scratch task block = .ok (block', a) ↔
      imageSize task.shape = task.byteCount ∧ task.offset + task.byteCount ≤ block.length ∧
        assembleImage env blank task.handle none = .ok a ∧ task.shape = a.bbox.shape ∧
        block' = Buffer.write block task.offset (imageBytes a.array) := by
  unfold fillSlot
  by_cases hsize : imageSize task.shape = task.byteCount
  · by_cases hroom : task.offset + task.byteCount ≤ block.length
    · rw [if_neg (not_not.mpr hsize), if_neg (by omega)]
      constructor
      · intro h
        obtain ⟨a', ha', h⟩ := Except.bind_eq_ok.mp h
        obtain ⟨hblock, rfl⟩ := Prod.mk.inj (Except.ok.inj h)
        obtain ⟨hshape, ha⟩ := (assembleImage_given hsound scratch blank _ a').mp ha'
        exact ⟨hsize, hroom, ha, hshape, hblock.symm⟩
      · intro h
        obtain ⟨-, -, ha, hshape, rfl⟩ := h
        refine Except.bind_eq_ok.mpr ⟨a, ?_, rfl⟩
        exact (assembleImage_given hsound scratch blank _ a).mpr ⟨hshape, ha⟩
    · rw [if_neg (not_not.mpr hsize), if_pos (by omega)]
      exact ⟨nofun, fun h => absurd h.2.1 hroom⟩
  · rw [if_pos hsize]
    exact ⟨nofun, fun h => absurd h.1 hsize⟩

/-- A task whose file loads and fits its slot. -/
structure Task.Fits (env : CameraEnv A) (task : Task A) (l : Loaded A) : Prop where
  loads : loaded env task.handle = .ok l
  size : imageSize task.shape = task.byteCount
  shape : task.shape = l.bbox.shape

theorem Task.Fits.byteCount {task : Task A} {l : Loaded A} (h : task.Fits env l) :
    l.img.length = task.byteCount := by
  rw [Loaded.length_img h.loads, ← h.shape, h.size]

/-- What a worker of the push path does with a task that fits. -/
theorem encodeOne_fits {task : Task A} (hsound : task.handle.Sound env)
    (scratch : Nat → Nat → Pixel) {l : Loaded A} (h : task.Fits env l) {block : Bytes}
    (hroom : task.offset + task.byteCount ≤ block.length) :
    encodeOne env scratch task block =
      (Buffer.write block task.offset l.img, .ok (l.pickle env 0)) := by
  obtain ⟨ha, hstub⟩ := loaded_ok.mp h.loads
  have hfill := (fillSlot_ok hsound scratch).mpr ⟨h.size, hroom, ha, h.shape, rfl⟩
  have hpickle := encodeMeta_stub hstub
  unfold encodeOne
  rw [hfill]
  dsimp only
  rw [show l.assembled.bbox = l.bbox from rfl, hstub]
  dsimp only [bind, Except.bind]
  rw [hpickle]
  rfl

/-- A worker of the push path that returns had a task that fits. -/
theorem encodeOne_returns {task : Task A} (hsound : task.handle.Sound env)
    {scratch : Nat → Nat → Pixel} {block value : Bytes}
    (h : (encodeOne env scratch task block).2 = .ok value) : ∃ l, task.Fits env l := by
  unfold encodeOne at h
  cases hfill : fillSlot env scratch task block with
  | error exc =>
      rw [hfill] at h
      exact absurd h nofun
  | ok filled =>
      rw [hfill] at h
      obtain ⟨hsize, -, ha, hshape, -⟩ := (fillSlot_ok hsound scratch).mp hfill
      dsimp only at h
      cases hstub : buildStub env task.handle filled.2.bbox filled.2.detector with
      | error exc =>
          rw [hstub] at h
          exact absurd h nofun
      | ok stub => exact ⟨⟨filled.2, stub⟩, loaded_ok.mpr ⟨ha, hstub⟩, hsize, hshape⟩

/-- A worker of ingest whose file assembles to its slot's shape. -/
theorem assembleOne_fits {task : Task A} (hsound : task.handle.Sound env)
    (scratch : Nat → Nat → Pixel) {a : Assembled A}
    (ha : assembleImage env blank task.handle none = .ok a)
    (hsize : imageSize task.shape = task.byteCount) (hshape : task.shape = a.bbox.shape)
    {block : Bytes} (hroom : task.offset + task.byteCount ≤ block.length) :
    assembleOne env scratch task block =
      (Buffer.write block task.offset (imageBytes a.array), .ok ()) := by
  unfold assembleOne
  rw [(fillSlot_ok hsound scratch).mpr ⟨hsize, hroom, ha, hshape, rfl⟩]

/-- A worker of ingest that returns had a file that assembles to its slot's shape. -/
theorem assembleOne_returns {task : Task A} (hsound : task.handle.Sound env)
    {scratch : Nat → Nat → Pixel} {block : Bytes}
    (h : (assembleOne env scratch task block).2 = .ok ()) :
    ∃ a, assembleImage env blank task.handle none = .ok a ∧
      imageSize task.shape = task.byteCount ∧ task.shape = a.bbox.shape := by
  unfold assembleOne at h
  cases hfill : fillSlot env scratch task block with
  | error exc =>
      rw [hfill] at h
      exact absurd h nofun
  | ok filled =>
      obtain ⟨hsize, -, ha, hshape, -⟩ := (fillSlot_ok hsound scratch).mp hfill
      exact ⟨filled.2, ha, hsize, hshape⟩

/-! ### A pool of workers

The workers of a pool share the block, and the order in which they run is the machine's.  Since the
slots are apart the order makes no difference to the block, and the results are brought back into
the order of the tasks.
-/

section Pool

variable {β : Type} {worker : Task A → Bytes → Bytes × Except String β} {host : Host}

/-- Workers that each write one piece leave all the pieces. -/
theorem runWorkers_fills {piece : Task A → Bytes} {value : Task A → β} {tasks : List (Task A)} :
    ∀ block : Bytes,
      (∀ task ∈ tasks, ∀ b : Bytes, block.length ≤ b.length →
        worker task b = (Buffer.write b task.offset (piece task), .ok (value task))) →
      (∀ task ∈ tasks, task.offset + (piece task).length ≤ block.length) →
      runWorkers worker tasks block =
        (Buffer.writeAll block (tasks.map fun task => (task.offset, piece task)),
          tasks.map fun task => (task.detId, .ok (value task))) := by
  induction tasks with
  | nil =>
      intro block _ _
      rfl
  | cons task rest ih =>
      intro block hworker hroom
      have hlength := Buffer.length_write (hroom task (List.mem_cons_self ..))
      have hrest := ih (Buffer.write block task.offset (piece task))
        (fun t ht b hb => hworker t (List.mem_cons_of_mem _ ht) b (hlength ▸ hb))
        (fun t ht => hlength ▸ hroom t (List.mem_cons_of_mem _ ht))
      unfold runWorkers
      dsimp only
      rw [hworker task (List.mem_cons_self ..) block (Nat.le_refl _), hrest]
      rfl

/-- Every task is run, on some block, and what it reported is among the results. -/
theorem runWorkers_reports (worker : Task A → Bytes → Bytes × Except String β)
    (tasks : List (Task A)) : ∀ block : Bytes,
      (runWorkers worker tasks block).2.map Prod.fst = tasks.map Task.detId ∧
        ∀ task ∈ tasks, ∃ b, (task.detId, (worker task b).2) ∈ (runWorkers worker tasks block).2 := by
  induction tasks with
  | nil =>
      intro block
      exact ⟨rfl, fun task htask => absurd htask List.not_mem_nil⟩
  | cons head rest ih =>
      intro block
      obtain ⟨hids, hreports⟩ := ih (worker head block).1
      unfold runWorkers
      refine ⟨congrArg (head.detId :: ·) hids, ?_⟩
      intro task htask
      rcases List.mem_cons.mp htask with rfl | hrest
      · exact ⟨block, List.mem_cons_self ..⟩
      · obtain ⟨b, hb⟩ := hreports task hrest
        exact ⟨b, List.mem_cons_of_mem _ hb⟩

/-- The report of a task, looked up under its detector's number. -/
theorem mem_inTaskOrder {results : List (Nat × Except String β)} {tasks : List (Task A)}
    (hids : (results.map Prod.fst).Nodup) {task : Task A} (htask : task ∈ tasks)
    {result : Except String β} (hresult : (task.detId, result) ∈ results) :
    (task.detId, result) ∈ inTaskOrder results tasks := by
  have hnodup : ((OrderedDict.empty : OrderedDict Nat (Except String β)).keys ++
      results.map Prod.fst).Nodup := hids
  have hget : ((OrderedDict.empty : OrderedDict Nat (Except String β)).update results).get?
      task.detId = some result := by
    rw [OrderedDict.get?_eq_some, OrderedDict.entries_update hnodup]
    exact hresult
  exact List.mem_filterMap.mpr ⟨task, htask, by rw [hget]; rfl⟩

/-- When every task reports a value, that is what comes back. -/
theorem inTaskOrder_values {value : Task A → β} {tasks scheduled : List (Task A)}
    (hperm : scheduled.Perm tasks) (hids : (tasks.map Task.detId).Nodup) :
    inTaskOrder (scheduled.map fun task => (task.detId, Except.ok (ε := String) (value task)))
      tasks = tasks.map fun task => (task.detId, .ok (value task)) := by
  have hkeys : (scheduled.map fun task =>
      (task.detId, Except.ok (ε := String) (value task))).map Prod.fst =
        scheduled.map Task.detId := List.map_map
  have hnodup : ((OrderedDict.empty : OrderedDict Nat (Except String β)).keys ++
      (scheduled.map fun task => (task.detId, Except.ok (ε := String) (value task))).map
        Prod.fst).Nodup := by
    rw [hkeys]
    exact (hperm.map Task.detId).nodup_iff.mpr hids
  have hsome : ∀ task ∈ tasks, (((OrderedDict.empty.update (scheduled.map fun task =>
      (task.detId, Except.ok (ε := String) (value task)))).get? task.detId).map
        fun result => (task.detId, result)) = some (task.detId, .ok (value task)) := by
    intro task htask
    have hget : ((OrderedDict.empty.update (scheduled.map fun task =>
        (task.detId, Except.ok (ε := String) (value task)))).get? task.detId) =
          some (.ok (value task)) := by
      rw [OrderedDict.get?_eq_some, OrderedDict.entries_update hnodup]
      exact List.mem_map.mpr ⟨task, hperm.mem_iff.mpr htask, rfl⟩
    rw [hget]
    rfl
  exact (List.filterMap_congr hsome).trans (congrFun List.filterMap_eq_map' tasks)

theorem failures_values (l : List (Nat × β)) :
    failures (l.map fun r => (r.1, Except.ok (ε := String) r.2)) = [] ∧
      returned (l.map fun r => (r.1, Except.ok (ε := String) r.2)) = l.map Prod.snd := by
  induction l with
  | nil => exact ⟨rfl, rfl⟩
  | cons r rest ih => exact ⟨ih.1, congrArg (r.2 :: ·) ih.2⟩

/-- No failure means that every result is a value. -/
theorem value_of_failures {results : List (Nat × Except String β)} (h : failures results = [])
    {detId : Nat} {result : Except String β} (hmem : (detId, result) ∈ results) :
    ∃ value, result = .ok value := by
  induction results with
  | nil => exact absurd hmem List.not_mem_nil
  | cons head rest ih =>
      obtain ⟨id, reported⟩ := head
      cases reported with
      | error text => exact absurd h (List.cons_ne_nil _ _)
      | ok value =>
          rcases List.mem_cons.mp hmem with heq | hrest
          · exact ⟨value, (Prod.mk.inj heq).2⟩
          · exact ih h hrest

/-- The machine lets a pool of workers run. -/
structure Host.RunsPool (host : Host) (nWorkers : Option Int) (count : Nat) : Prop where
  workers : 1 ≤ workerCount nWorkers count
  pool : host.poolFailure = none

/-- **A pool whose workers each fill their slot** fills them all, in any order. -/
theorem fanOut_fills {tasks : List (Task A)} {nWorkers : Option Int} {block : Bytes}
    (piece : Task A → Bytes) (value : Task A → β) (hhost : host.RunsPool nWorkers tasks.length)
    (hids : (tasks.map Task.detId).Nodup)
    (hworker : ∀ task ∈ tasks, ∀ b : Bytes, block.length ≤ b.length →
      worker task b = (Buffer.write b task.offset (piece task), .ok (value task)))
    (hroom : ∀ task ∈ tasks, task.offset + (piece task).length ≤ block.length) :
    fanOut host worker tasks nWorkers block =
      .ok (Buffer.writeAll block ((host.schedule tasks).map fun task =>
        (task.offset, piece task)), tasks.map value) := by
  have hperm := host.schedule_perm tasks
  have hrun : runWorkers worker (host.schedule tasks) block = _ :=
    runWorkers_fills block (fun task htask => hworker task (hperm.mem_iff.mp htask))
      fun task htask => hroom task (hperm.mem_iff.mp htask)
  have hcount := hhost.workers
  unfold fanOut
  rw [if_neg (by omega), hhost.pool]
  dsimp only
  rw [hrun]
  dsimp only
  rw [inTaskOrder_values hperm hids]
  obtain ⟨hfailures, hreturned⟩ := failures_values (tasks.map fun task => (task.detId, value task))
  rw [List.map_map] at hfailures hreturned
  rw [List.map_map] at hreturned
  have hfailures' : failures (tasks.map fun task =>
      (task.detId, Except.ok (ε := String) (value task))) = [] := hfailures
  have hreturned' : returned (tasks.map fun task =>
      (task.detId, Except.ok (ε := String) (value task))) = tasks.map value := hreturned
  rw [hfailures', hreturned', if_neg (not_not.mpr rfl)]

/-- A pool that returns had workers that all did. -/
theorem fanOut_returns {tasks : List (Task A)} {nWorkers : Option Int} {block : Bytes}
    {filled : Bytes × List β} (hids : (tasks.map Task.detId).Nodup)
    (h : fanOut host worker tasks nWorkers block = .ok filled) :
    host.RunsPool nWorkers tasks.length ∧
      ∀ task ∈ tasks, ∃ b value, (worker task b).2 = .ok value := by
  unfold fanOut at h
  by_cases hcount : workerCount nWorkers tasks.length < 1
  · rw [if_pos hcount] at h
    exact absurd h nofun
  · rw [if_neg hcount] at h
    cases hpool : host.poolFailure with
    | some failure =>
        rw [hpool] at h
        exact absurd h nofun
    | none =>
        rw [hpool] at h
        dsimp only at h
        refine ⟨⟨by omega, hpool⟩, ?_⟩
        intro task htask
        by_cases hfailures : failures (inTaskOrder
            (runWorkers worker (host.schedule tasks) block).2 tasks) = []
        · have hperm := host.schedule_perm tasks
          obtain ⟨hkeys, hreports⟩ := runWorkers_reports worker (host.schedule tasks) block
          have hnodup : ((runWorkers worker (host.schedule tasks) block).2.map Prod.fst).Nodup := by
            rw [hkeys]
            exact (hperm.map Task.detId).nodup_iff.mpr hids
          obtain ⟨b, hb⟩ := hreports task (hperm.mem_iff.mpr htask)
          obtain ⟨value, hvalue⟩ :=
            value_of_failures hfailures (mem_inTaskOrder hnodup htask hb)
          exact ⟨b, value, hvalue⟩
        · rw [if_pos hfailures] at h
          exact absurd h nofun

end Pool

end DonutServer.Producer
