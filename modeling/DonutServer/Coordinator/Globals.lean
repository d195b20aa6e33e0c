/-
What a coordinator process holds between two commands.

The live config is spread over module globals: the task and its dump, the calibs, the
refcat store and the key they belong to.  Beside them stand the caches that `prepare`
switches between.  A `RefCatStore` is an object that entries share and that `ensure`
changes in place, so stores are kept by number.

A `Process` is the globals together with what is outside the process while it handles
one command: the shared block, the files it may read, and the faults that lie ahead.
-/
import DonutServer.Lib.Effect
import DonutServer.Coordinator.Calibs
import DonutServer.Coordinator.Config

namespace DonutServer

/-! ### The caches and what they hold

An entry of the prepared cache is a task with its dump, the store of its shards and what was
reported when it was made.  The live config shares its store with the entry it was activated from,
and goes on using it after that entry is evicted; that is why an entry has the number of a store
and the stores stand in a table of their own.
-/

/-- The catalogs of one level-5 parent, each its rows in order, by level-7 index. -/
abbrev Children (S : Stack) := OrderedDict Nat (List S.Row)

/-- `RefCatStore`. -/
structure RefCatStore (S : Stack) where
  shardIds : Finset Nat
  shards : Children S
  nRows : Nat

/-- `RefCatStore()`: no shards, and the key that no pointing has. -/
def RefCatStore.new {S : Stack} : RefCatStore S := ⟨∅, .empty, 0⟩

abbrev StoreId := Nat

/-- `PreparedEntry`. -/
structure PreparedEntry (S : Stack) where
  key : PrepareKey
  task : S.Task
  taskDump : String
  refcatStore : StoreId

/-- `PREPARED_CACHE_CAP`. -/
def preparedCacheCap : Nat := 3

/-- `CALIB_CACHE_CAP`. -/
def calibCacheCap : Nat := 2

/-- `SHARD_CACHE_CAP`. -/
def shardCacheCap : Nat := 24

/-- The module globals.  `universe` is set once it has been built, and `deferred` names
the job whose table waits to be written. -/
structure Globals (S : Stack) where
  universeBuilt : Bool
  preparedCache : OrderedDict PrepareKey (PreparedEntry S)
  detectorCalibCache : Option (CalibId × DetectorCalibs S)
  filterCalibCache : OrderedDict CalibId (FilterCalibs S)
  prepareCommands : OrderedDict PrepareKey PrepareCommand
  activeKey : Option PrepareKey
  calibStore : Option (String × CalibSet S)
  refcatStore : StoreId
  task : Option S.Task
  taskDump : String
  shardCache : OrderedDict Nat (Children S)
  stores : StoreId → RefCatStore S
  nextStore : StoreId
  deferred : Option JobId

/-- The globals of a process that was just started. -/
def Globals.fresh {S : Stack} : Globals S where
  universeBuilt := false
  preparedCache := .empty
  detectorCalibCache := none
  filterCalibCache := .empty
  prepareCommands := .empty
  activeKey := none
  calibStore := none
  refcatStore := 0
  task := none
  taskDump := ""
  shardCache := .empty
  stores := fun _ => .new
  nextStore := 1
  deferred := none

/-! ### What a task is run on

A quantum is put together in memory, with no butler behind it: each input is a data id and the
object under it.  Only that part of a bundle is kept here, because it is what the task can see.
-/

/-- The data id of a quantum's input, its instrument apart. -/
inductive InputId
  | raw (exposure detector : Nat) (dayObs : Int) (group physicalFilter band : String)
  | detector (detector : Nat)
  | filtered (detector : Nat) (physicalFilter band : String)
  | htm7 (index : Nat)
  deriving DecidableEq

/-- What a quantum's input holds. -/
inductive Dataset (S : Stack)
  | raw (exp : S.Raw)
  | calib (calib : S.Calib)
  | catalog (rows : List S.Row)

/-- One ref of a quantum's inputs, and the object put under it. -/
structure QuantumInput (S : Stack) where
  datasetType : String
  dataId : InputId
  obj : Dataset S

/-- The part of a `QuantumBundle` that a task is run on. -/
structure QuantumBundle (S : Stack) where
  visit : Nat
  inputs : List (QuantumInput S)

/-! ### A process on a command

The world is everything that a command cannot change and may yet find different the next time.  The
faults are a list that is used up call by call: at each call out of the process the next of them
decides whether the call is made or raises, whatever it would have given.  So a theorem that holds
for every list holds for failures at any place and in any number.
-/

/-- What is outside the process while it handles one command. -/
structure World (S : Stack) where
  faults : List (Option Exn)
  block : Bytes
  headers : String → Except Exn Exposure
  raws : String → Option Int → Except Exn (Exposures S)
  quantum : S.Task → QuantumBundle S → Option Int → Except Exn JobOutput

/-- A process on a command. -/
structure Process (S : Stack) extends Globals S where
  world : World S

/-- Code of the process. -/
abbrev Code (S : Stack) := Effect (Process S) Exn

variable {S : Stack}

/-- What a Python expression evaluates to, or raises. -/
def evaluate {α : Type} (x : Except Exn α) : Code S α := Effect.ofExcept x

/-- The next thing that goes wrong outside, if anything does. -/
def fault : Code S Unit := do
  let p ← get
  modify fun p => { p with world := { p.world with faults := p.world.faults.tail } }
  match p.world.faults.head? with
  | some (some exc) => throw exc
  | _ => pure ()

/-- A call out of the process. -/
def external {α : Type} (x : Except Exn α) : Code S α := do
  fault
  evaluate x

/-- A fault touches nothing but the world. -/
theorem fault_ends {p : Process S} :
    Effect.Ends (fault : Code S Unit) p (fun _ q => ∃ w, q = { p with world := w })
      (fun _ q => ∃ w, q = { p with world := w }) := by
  unfold fault
  rw [Effect.ends_bind, Effect.ends_get, Effect.ends_bind, Effect.ends_modify]
  split
  · exact ⟨_, rfl⟩
  · exact ⟨_, rfl⟩

/-- What a call out of the process leaves: the globals as they were. -/
theorem ends_external {α : Type} {x : Except Exn α} {p : Process S} {Q : α → Process S → Prop}
    {E : Exn → Process S → Prop}
    (hok : ∀ a w, x = .ok a → Q a { p with world := w })
    (herror : ∀ exc w, E exc { p with world := w }) : Effect.Ends (external x) p Q E := by
  unfold external evaluate
  rw [Effect.ends_bind]
  refine fault_ends.mono ?_ ?_
  · intro _ _ h
    obtain ⟨w, rfl⟩ := h
    rw [Effect.ends_ofExcept]
    exact ⟨fun a ha => hok a w ha, fun exc _ => herror exc w⟩
  · intro exc _ h
    obtain ⟨w, rfl⟩ := h
    exact herror exc w

/-- The world once the next fault has been met. -/
def World.faced (w : World S) : World S := { w with faults := w.faults.tail }

/-- What a call out of the process comes to. -/
theorem external_outcome {α : Type} (x : Except Exn α) (p : Process S) :
    (external x).outcome p =
      (match p.world.faults.head?.join with
        | some exc => .error exc
        | none => x, { p with world := p.world.faced }) := by
  unfold external fault evaluate
  rw [Effect.outcome_bind, Effect.outcome_bind, Effect.outcome_get]
  dsimp only
  rw [Effect.outcome_bind, Effect.outcome_modify]
  rcases hfaults : p.world.faults.head? with _ | _ | exc
  · rfl
  · rfl
  · rfl

/-- A call out of the process that returned. -/
theorem external_ok {α : Type} {x : Except Exn α} {p q : Process S} {a : α}
    (h : (external x).outcome p = (.ok a, q)) :
    x = .ok a ∧ q = { p with world := p.world.faced } := by
  rw [external_outcome] at h
  obtain ⟨hx, rfl⟩ := Prod.mk.inj h
  rcases hfault : p.world.faults.head?.join with _ | exc
  · rw [hfault] at hx
    exact ⟨hx, rfl⟩
  · rw [hfault] at hx
    exact absurd hx (by simp)

/-- What a call out of the process leaves, and that it tells the truth where nothing goes
wrong outside. -/
theorem ends_external_quiet {α : Type} {x : Except Exn α} {p : Process S}
    {Q : α → Process S → Prop} {E : Exn → Process S → Prop}
    (hok : ∀ a w, x = .ok a → (p.world.faults = [] → w.faults = []) → Q a { p with world := w })
    (herror : ∀ exc w, (p.world.faults = [] → w.faults = []) →
      (p.world.faults = [] → x = .error exc) → E exc { p with world := w }) :
    Effect.Ends (external x) p Q E := by
  have hquiet : p.world.faults = [] → p.world.faced.faults = [] := by
    intro h
    unfold World.faced
    rw [h, List.tail_nil]
  unfold Effect.Ends
  rw [external_outcome]
  rcases hfault : p.world.faults.head?.join with _ | exc
  · rcases x with exc | a
    · exact herror exc _ hquiet fun _ => rfl
    · exact hok a _ rfl hquiet
  · refine herror exc _ hquiet fun hnone => ?_
    rw [hnone] at hfault
    exact absurd hfault (by simp)

/-- Where nothing goes wrong outside, a call out of the process is its function. -/
theorem external_quiet {α : Type} (x : Except Exn α) {p : Process S} (h : p.world.faults = []) :
    (external x).outcome p = (x, p) := by
  have hfaced : p.world.faced = p.world := by
    unfold World.faced
    rw [h, List.tail_nil, ← h]
  rw [external_outcome, hfaced, h]
  rfl

end DonutServer
