/-
Building a task from a list of overrides.

`build_task` starts from a fresh config every time and touches nothing else, so
what it gives depends on the overrides alone.  It does not even see all of those:
an override file without a name is compiled under the one name that also stands for
it in the cache key, so two lists with one key build one task.
-/
import Mathlib.Data.String.Basic
import DonutServer.Coordinator.Stack

namespace DonutServer

open PyText

variable {S : Stack} (env : Env S)

/-! ### Applying overrides

An override is either a piece of config file or a value for a dotted name, and `apply_overrides`
tells `ConfigOverrides` of each in turn.  The stack applies them later, all at once, so that an
error in any of them is an error of `applyTo`; it is caught there and told as the operator's.
-/

/-- The calls that `apply_overrides` makes on `ConfigOverrides` before `applyTo`. -/
def overrideCalls : List Override → Except Exn (List (ConfigCall S))
  | [] => pure []
  | .value field v :: rest => do
      let calls ← overrideCalls rest
      pure (.addValueOverride field v :: calls)
  | .python name text :: rest => do
      let code ← env.compile text (Override.fileName name)
      let calls ← overrideCalls rest
      pure (.addPythonOverride code :: calls)

/-- `apply_overrides`: whatever goes wrong is the operator's error. -/
def applyOverrides (config : S.Config) (spec : List Override) : Except Exn S.Config :=
  match (do env.applyTo (← overrideCalls env spec) config) with
  | .ok config => .ok config
  | .error exc => .error ⟨.configOverrideError, exc.described⟩

/-! ### Checking the result

A config that loads may still be one the coordinator cannot run.  It wires the quantum by hand, so
nothing may be asked for that it has no ref or payload for; and the watchdog for a unit that hangs
can only abort the whole process, so it has to come after the timeout of a unit.  Both are checked
when the task is built, where the operator still gets the message.
-/

/-- `WIRED_INPUTS`. -/
def wiredInputs : Finset String :=
  {"raws", "ptc", "linearizer", "crosstalk", "flat", "intrinsicZernikes", "refCat"}

/-- `WIRED_OUTPUTS`. -/
def wiredOutputs : Finset String := {"cornerResults", "detectorImages", "selectionOverlays"}

/-- How a sorted set of names prints. -/
def reprSorted (names : Finset String) : String := reprList (names.sort (· ≤ ·))

/-- `_check_connections`. -/
def checkConnections (config : S.Config) : Except Exn Unit := do
  let conns ← env.connections config
  let inputs := conns.inputs ∪ conns.prerequisiteInputs
  let extraOut := conns.outputs \ wiredOutputs
  let extraIn := inputs \ wiredInputs
  if extraOut ≠ ∅ then
    .error ⟨.configOverrideError,
      s!"this service cannot wire output connection(s) {reprSorted extraOut}: it builds a " ++
      s!"ref only for {reprSorted wiredOutputs}, so the task would fail on push " ++
      "with a KeyError. Supporting these needs per-detector output refs in " ++
      "build_quantum_context."⟩
  else if extraIn ≠ ∅ then
    .error ⟨.configOverrideError,
      s!"this service cannot supply input connection(s) {reprSorted extraIn}: no dataset " ++
      "payload is built for them, so the task would fail on push."⟩
  else pure ()

/-- `_check_timeouts`: a watchdog that would fire before a unit may time out. -/
def checkTimeouts (config : S.Config) : Except Exn Unit :=
  match env.hangTimeout config, env.unitTimeout config with
  | some hang, some unit =>
      if env.positive hang ∧ env.atMost hang unit then
        .error ⟨.configOverrideError,
          s!"hangTimeout={env.reprNumber hang} must exceed " ++
          s!"unitTimeout={env.reprNumber unit} (or be <= 0 to " ++
          "disable the watchdog): the watchdog can only abort the whole " ++
          "coordinator process, so a hangTimeout under the per-unit timeout " ++
          "turns every slow job into a coordinator restart."⟩
      else pure ()
  | _, _ => pure ()

/-- `build_task`: the task, and its config as loadable Python. -/
def buildTask (spec : List Override) : Except Exn (S.Task × String) := do
  let config ← env.freshConfig
  let config ← applyOverrides env (env.setDoSelectionOutput config) spec
  checkConnections env config
  checkTimeouts env config
  let task ← env.makeTask config
  let dump ← env.saveToString config
  pure (task, dump)

/-! ### What the key of an override list determines

The prepared cache goes by the key of the overrides and not by the overrides themselves.  What
makes that right is that the task is a function of the key: the calls an entry leads to are those
its key entry stands for, and nothing else of the entry is read.
-/

/-- The calls an entry leads to are those its key entry stands for. -/
theorem overrideCalls_congr {spec spec' : List Override}
    (h : overrideKey spec = overrideKey spec') :
    overrideCalls env spec = overrideCalls env spec' := by
  induction spec generalizing spec' with
  | nil =>
      cases spec' with
      | nil => rfl
      | cons entry rest => exact absurd h (by simp [overrideKey])
  | cons entry rest ih =>
      cases spec' with
      | nil => exact absurd h (by simp [overrideKey])
      | cons entry' rest' =>
          obtain ⟨hentry, hrest⟩ := List.cons.inj h
          have hcalls := ih hrest
          rcases entry with ⟨field, v⟩ | ⟨name, text⟩ <;>
            rcases entry' with ⟨field', v'⟩ | ⟨name', text'⟩
          · obtain ⟨rfl, rfl⟩ := KeyEntry.value.inj hentry
            unfold overrideCalls
            rw [hcalls]
          · exact KeyEntry.noConfusion hentry
          · exact KeyEntry.noConfusion hentry
          · obtain ⟨hname, htext⟩ := KeyEntry.python.inj hentry
            unfold overrideCalls
            rw [hcalls, hname, htext]

/-- **Two override lists with one key build one task.** -/
theorem buildTask_congr {spec spec' : List Override} (h : overrideKey spec = overrideKey spec') :
    buildTask env spec = buildTask env spec' := by
  unfold buildTask applyOverrides
  rw [overrideCalls_congr env h]

end DonutServer
