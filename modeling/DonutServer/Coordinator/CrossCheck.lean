/-
The checks a job makes before it runs its task.

`CrossChecked` is what those checks are for: all the raws are of the prepared filter and of
one visit, each came under its own detector's name, so that it is paired with its own
calibs, and every shard they need is loaded.  The checks themselves are `Admits`.  They ask
every raw for its visit and its shards, but only the first for its filter, and none for its
name; where the raws agree on the rest, the two come to the same.
-/
import DonutServer.Coordinator.Recertify

namespace DonutServer

open Effect

variable {S : Stack} {env : Env S} {g : Globals S} {exposures : Exposures S}

/-! ### What the checks are for

The task pairs each raw with calibs by name and with shards by position, and it takes one filter
and one visit for the whole job.  What can go wrong there goes wrong silently: a raw with another
detector's flat gives numbers like any other.  `CrossChecked` is what has to hold so that it
cannot.
-/

/-- Every raw is of the prepared filter, of one visit, under its own detector's name, and
covered by the shards that are loaded. -/
structure CrossChecked (env : Env S) (g : Globals S) (exposures : Exposures S) : Prop where
  filters : ∃ loaded calib, g.calibStore = some (loaded, calib) ∧
    ∀ e ∈ exposures.entries, env.physicalLabel e.2 = .ok loaded
  visits : ∃ visit, ∀ e ∈ exposures.entries, env.visitId e.2 = visit
  detectors : ∀ e ∈ exposures.entries, e.1 = env.detectorName e.2
  shards : ∀ e ∈ exposures.entries, ∃ ranges, env.boxEnvelope e.2 = .ok ranges ∧
    ∀ id ∈ rangeSetIds ranges, id ∈ (g.stores g.refcatStore).shardIds

/-- The task is run on nothing that is not cross-checked; a job on anything else fails. -/
def Guarded (env : Env S) (g : Globals S) (exposures : Exposures S) : Prop :=
  (∀ world result q, (beforeQuantum env exposures).outcome ⟨g, world⟩ = (.ok result, q) →
    CrossChecked env g exposures) ∧
  (¬ CrossChecked env g exposures → ∀ jobId numWorkers world, ∃ exc q,
    (runJob env jobId exposures numWorkers).outcome ⟨g, world⟩ = (.error exc, q))

/-! ### What the checks are

These are read off the code, check by check, in terms of the raws and of what is prepared.  A job
that passes them is run and a job that fails one is not; whether they suffice is the question after
that.
-/

/-- The checks that are made all pass, and every lookup finds what it looks for. -/
def Admits (env : Env S) (g : Globals S) (exposures : Exposures S) : Prop :=
  ∃ task sample loaded calib v needed inputs,
    g.task = some task ∧ sampleOf exposures = .ok sample ∧
    g.calibStore = some (loaded, calib) ∧ env.physicalLabel sample = .ok loaded ∧
    missingCalibs exposures calib = ∅ ∧ (visitIds env exposures).card = 1 ∧
    visitInfo env sample = .ok v ∧ shardIdsForExposures env exposures = .ok needed ∧
    needed \ (g.stores g.refcatStore).shardIds = ∅ ∧
    quantumInputs env (g.stores g.refcatStore).shards exposures calib v = .ok inputs

/-- All the raws have one filter. -/
def OneFilter (env : Env S) (exposures : Exposures S) : Prop :=
  ∀ e ∈ exposures.entries, ∀ e' ∈ exposures.entries,
    env.physicalLabel e.2 = env.physicalLabel e'.2

/-- Every raw came under its own detector's name. -/
def OwnNames (env : Env S) (exposures : Exposures S) : Prop :=
  ∀ e ∈ exposures.entries, e.1 = env.detectorName e.2

/-- An expression that evaluated had a value, and changed nothing. -/
theorem evaluate_ok {α : Type} {x : Except Exn α} {p q : Process S} {a : α}
    (h : (evaluate x).outcome p = (.ok a, q)) : x = .ok a ∧ q = p := by
  obtain ⟨hx, hq⟩ := Prod.mk.inj h
  exact ⟨hx, hq.symm⟩

/-- Where the next fault did not strike, only the faults that lie ahead have changed. -/
theorem fault_ok {p q : Process S} {u : Unit} (h : (fault : Code S Unit).outcome p = (.ok u, q)) :
    ∃ w, q = { p with world := w } := by
  have hends := (fault_ends (p := p)).of_ok h
  exact hends

/-- Where nothing goes wrong outside, no fault strikes. -/
theorem fault_quiet {p : Process S} (h : p.world.faults = []) :
    (fault : Code S Unit).outcome p = (.ok (), p) := by
  have hquiet := external_quiet (Except.ok () : Except Exn Unit) h
  obtain ⟨u, r, hfault, hrest⟩ := outcome_bind_ok.mp hquiet
  obtain ⟨-, rfl⟩ := evaluate_ok hrest
  exact hfault

/-- The task that was asked for is the one that is prepared. -/
theorem requireTask_ok {p q : Process S} {task : S.Task}
    (h : (requireTask : Code S S.Task).outcome p = (.ok task, q)) : p.task = some task ∧ q = p := by
  unfold requireTask at h
  rw [outcome_bind, outcome_get] at h
  dsimp only at h
  split at h
  · exact absurd (Prod.mk.inj h).1 (by simp)
  · rename_i task' htask
    obtain ⟨heq, rfl⟩ := Prod.mk.inj h
    exact ⟨htask.trans (congrArg some (Except.ok.inj heq)), rfl⟩

theorem requireTask_of_some {p : Process S} {task : S.Task} (h : p.task = some task) :
    (requireTask : Code S S.Task).outcome p = (.ok task, p) := by
  unfold requireTask
  rw [outcome_bind, outcome_get]
  dsimp only
  rw [h]
  rfl

/-- A check that passed. -/
theorem check_ok {c : Prop} [Decidable c] {exc : Exn} {u : Unit}
    (h : (if c then .error exc else .ok () : Except Exn Unit) = .ok u) : ¬ c := by
  split at h
  · exact absurd h (by simp)
  · assumption

/-! ### What gets as far as the task

Two lemmas, one for each direction.  A job that got there passed every check, whatever else
happened on the way; and a job that passes every check gets there, unless something outside goes
wrong.
-/

/-- **A quantum that was built passed every check.** -/
theorem buildQuantumContext_ok {calib : CalibSet S} {p q : Process S} {bundle : QuantumBundle S}
    (h : (buildQuantumContext env exposures calib).outcome p = (.ok bundle, q)) :
    ∃ sample v needed inputs, sampleOf exposures = .ok sample ∧
      missingCalibs exposures calib = ∅ ∧ (visitIds env exposures).card = 1 ∧
      visitInfo env sample = .ok v ∧ shardIdsForExposures env exposures = .ok needed ∧
      needed \ (p.stores p.refcatStore).shardIds = ∅ ∧
      quantumInputs env (p.stores p.refcatStore).shards exposures calib v = .ok inputs ∧
      ∃ w, q = { p with world := w } := by
  unfold buildQuantumContext at h
  rw [outcome_bind_ok] at h
  obtain ⟨task, t, hrun, h⟩ := h
  obtain ⟨-, rfl⟩ := requireTask_ok hrun
  rw [outcome_bind_ok] at h
  obtain ⟨_, t, hrun, h⟩ := h
  obtain ⟨w, rfl⟩ := fault_ok hrun
  rw [outcome_bind_ok] at h
  obtain ⟨_, t, hrun, h⟩ := h
  obtain ⟨hmissing, rfl⟩ := evaluate_ok hrun
  rw [outcome_bind_ok] at h
  obtain ⟨_, t, hrun, h⟩ := h
  obtain ⟨hvisits, rfl⟩ := evaluate_ok hrun
  rw [outcome_bind_ok] at h
  obtain ⟨sample, t, hrun, h⟩ := h
  obtain ⟨hsample, rfl⟩ := evaluate_ok hrun
  rw [outcome_bind_ok] at h
  obtain ⟨v, t, hrun, h⟩ := h
  obtain ⟨hv, rfl⟩ := external_ok hrun
  rw [outcome_bind_ok] at h
  obtain ⟨needed, t, hrun, h⟩ := h
  obtain ⟨hneeded, rfl⟩ := external_ok hrun
  rw [outcome_bind_ok] at h
  obtain ⟨r, t, hget, h⟩ := h
  obtain ⟨hr, rfl⟩ := Prod.mk.inj hget
  obtain rfl := Except.ok.inj hr
  rw [outcome_bind_ok] at h
  obtain ⟨_, t, hrun, h⟩ := h
  obtain ⟨hcovered, rfl⟩ := evaluate_ok hrun
  rw [outcome_bind_ok] at h
  obtain ⟨inputs, t, hrun, h⟩ := h
  obtain ⟨hinputs, rfl⟩ := external_ok hrun
  rw [outcome_bind_ok] at h
  obtain ⟨_, t, hrun, h⟩ := h
  obtain ⟨w', rfl⟩ := fault_ok hrun
  obtain ⟨-, rfl⟩ := Prod.mk.inj h
  exact ⟨sample, v, needed, inputs, hsample, not_not.mp (check_ok hmissing),
    not_not.mp (check_ok hvisits), hv, hneeded, not_not.mp (check_ok hcovered), hinputs, w', rfl⟩

/-- **What gets as far as the task is admitted.** -/
theorem beforeQuantum_admits {p q : Process S} {result : S.Task × QuantumBundle S}
    (h : (beforeQuantum env exposures).outcome p = (.ok result, q)) :
    Admits env p.toGlobals exposures := by
  unfold beforeQuantum at h
  rw [outcome_bind_ok] at h
  obtain ⟨sample, t, hrun, h⟩ := h
  obtain ⟨hsample, rfl⟩ := evaluate_ok hrun
  rw [outcome_bind_ok] at h
  obtain ⟨label, t, hrun, h⟩ := h
  obtain ⟨hlabel, rfl⟩ := external_ok hrun
  rw [outcome_bind_ok] at h
  obtain ⟨r, t, hget, h⟩ := h
  obtain ⟨hr, rfl⟩ := Prod.mk.inj hget
  obtain rfl := Except.ok.inj hr
  split at h
  · exact absurd (Prod.mk.inj h).1 (by simp)
  · rename_i loaded calib hstore
    rw [outcome_bind_ok] at h
    obtain ⟨_, t, hrun, h⟩ := h
    obtain ⟨hfilter, rfl⟩ := evaluate_ok hrun
    obtain rfl : loaded = label := not_not.mp (check_ok hfilter)
    rw [outcome_bind_ok] at h
    obtain ⟨bundle, t, hrun, h⟩ := h
    obtain ⟨sample', v, needed, inputs, hsample', hmissing, hvisits, hv, hneeded, hcovered,
      hinputs, w, rfl⟩ := buildQuantumContext_ok hrun
    obtain rfl : sample = sample' := Except.ok.inj (hsample.symm.trans hsample')
    rw [outcome_bind_ok] at h
    obtain ⟨task, t, hrun, -⟩ := h
    obtain ⟨htask, rfl⟩ := requireTask_ok hrun
    exact ⟨task, sample, loaded, calib, v, needed, inputs, htask, hsample, hstore, hlabel, hmissing,
      hvisits, hv, hneeded, hcovered, hinputs⟩

/-- And what is admitted gets there, if nothing goes wrong outside. -/
theorem Admits.beforeQuantum (h : Admits env g exposures) {w : World S} (hquiet : w.faults = []) :
    ∃ result, (beforeQuantum env exposures).outcome ⟨g, w⟩ = (.ok result, ⟨g, w⟩) := by
  obtain ⟨task, sample, loaded, calib, v, needed, inputs, htask, hsample, hstore, hlabel, hmissing,
    hvisits, hv, hneeded, hcovered, hinputs⟩ := h
  have hp : (⟨g, w⟩ : Process S).world.faults = [] := hquiet
  have hpass : ∀ {c : Prop} [Decidable c] (exc : Exn), ¬ c →
      (evaluate (if c then .error exc else .ok ()) : Code S Unit).outcome ⟨g, w⟩ =
        (.ok (), ⟨g, w⟩) := by
    intro c _ exc hc
    rw [if_neg hc]
    rfl
  have hcontext : (buildQuantumContext env exposures calib).outcome ⟨g, w⟩ =
      (.ok ⟨v.visit, inputs⟩, ⟨g, w⟩) := by
    unfold buildQuantumContext
    refine outcome_bind_ok.mpr ⟨task, _, requireTask_of_some htask, ?_⟩
    refine outcome_bind_ok.mpr ⟨(), _, fault_quiet hp, ?_⟩
    refine outcome_bind_ok.mpr ⟨(), _, hpass _ (not_not.mpr hmissing), ?_⟩
    refine outcome_bind_ok.mpr ⟨(), _, hpass _ (not_not.mpr hvisits), ?_⟩
    refine outcome_bind_ok.mpr ⟨sample, ⟨g, w⟩, congrArg (·, _) hsample, ?_⟩
    refine outcome_bind_ok.mpr ⟨v, ⟨g, w⟩, (external_quiet _ hp).trans (congrArg (·, _) hv), ?_⟩
    refine outcome_bind_ok.mpr
      ⟨needed, ⟨g, w⟩, (external_quiet _ hp).trans (congrArg (·, _) hneeded), ?_⟩
    refine outcome_bind_ok.mpr ⟨_, _, rfl, ?_⟩
    refine outcome_bind_ok.mpr ⟨(), _, hpass _ (not_not.mpr hcovered), ?_⟩
    refine outcome_bind_ok.mpr
      ⟨inputs, ⟨g, w⟩, (external_quiet _ hp).trans (congrArg (·, _) hinputs), ?_⟩
    refine outcome_bind_ok.mpr ⟨(), _, fault_quiet hp, ?_⟩
    rfl
  refine ⟨(task, ⟨v.visit, inputs⟩), ?_⟩
  unfold DonutServer.beforeQuantum
  refine outcome_bind_ok.mpr ⟨sample, ⟨g, w⟩, congrArg (·, _) hsample, ?_⟩
  refine outcome_bind_ok.mpr
    ⟨loaded, ⟨g, w⟩, (external_quiet _ hp).trans (congrArg (·, _) hlabel), ?_⟩
  refine outcome_bind_ok.mpr ⟨_, _, rfl, ?_⟩
  simp only [hstore]
  refine outcome_bind_ok.mpr ⟨(), _, hpass _ (not_not.mpr rfl), ?_⟩
  refine outcome_bind_ok.mpr ⟨_, _, hcontext, ?_⟩
  exact outcome_bind_ok.mpr ⟨task, _, requireTask_of_some htask, rfl⟩

/-- A job that returns had its task run. -/
theorem runJob_ok {jobId : JobId} {numWorkers : Option Int} {p q : Process S} {out : JobOutput}
    (h : (runJob env jobId exposures numWorkers).outcome p = (.ok out, q)) :
    ∃ result t, (beforeQuantum env exposures).outcome p = (.ok result, t) := by
  unfold runJob at h
  obtain ⟨result, t, hbefore, -⟩ := outcome_bind_ok.mp h
  exact ⟨result, t, hbefore⟩

/-! ### What the checks come to

The visits are compared across all the raws, and the shards are asked for all of them, so these two
parts of `CrossChecked` come with `Admits`.  The other two do not.  The filter is that of the first
raw, and a name is only ever looked up: it has to belong to some calibs, not to those of the raw it
came with.
-/

/-- Raws that are admitted have one visit, and the shards they need. -/
theorem Admits.covers (h : Admits env g exposures) :
    (∃ visit, ∀ e ∈ exposures.entries, env.visitId e.2 = visit) ∧
    ∀ e ∈ exposures.entries, ∃ ranges, env.boxEnvelope e.2 = .ok ranges ∧
      ∀ id ∈ rangeSetIds ranges, id ∈ (g.stores g.refcatStore).shardIds := by
  obtain ⟨task, sample, loaded, calib, v, needed, inputs, -, -, -, -, -, hvisits, -, hneeded,
    hcovered, -⟩ := h
  refine ⟨?_, ?_⟩
  · obtain ⟨visit, hvisit⟩ := Finset.card_eq_one.mp hvisits
    refine ⟨visit, fun e he => ?_⟩
    have hmem : env.visitId e.2 ∈ visitIds env exposures :=
      List.mem_toFinset.mpr (List.mem_map_of_mem he)
    rw [hvisit] at hmem
    exact Finset.mem_singleton.mp hmem
  · intro e he
    obtain ⟨ranges, hranges, hset⟩ := Except.bind_eq_ok.mp hneeded
    obtain ⟨pairs, hfst, rfl, hpairs⟩ := Except.mapM_eq_ok.mp hranges
    rw [← hfst] at he
    obtain ⟨pair, hpair, rfl⟩ := List.mem_map.mp he
    refine ⟨pair.2, hpairs pair hpair, fun id hid => ?_⟩
    by_contra hnot
    have hmem : id ∈ needed := by
      rw [← Except.ok.inj hset]
      exact List.mem_toFinset.mpr
        (List.mem_flatMap.mpr ⟨pair.2, List.mem_map_of_mem hpair, hid⟩)
    exact absurd (Finset.mem_sdiff.mpr ⟨hmem, hnot⟩) (by rw [hcovered]; exact Finset.notMem_empty _)

/-- **Raws that are admitted are cross-checked just where they agree on their filter and
came under their own names.** -/
theorem Admits.crossChecked_iff (h : Admits env g exposures) :
    CrossChecked env g exposures ↔ OneFilter env exposures ∧ OwnNames env exposures := by
  obtain ⟨hvisits, hshards⟩ := h.covers
  obtain ⟨_, sample, loaded, calib, _, _, _, -, hsample, hstore, hlabel, -⟩ := h
  constructor
  · intro hchecked
    obtain ⟨loaded', _, -, hfilters⟩ := hchecked.filters
    exact ⟨fun e he e' he' => (hfilters e he).trans (hfilters e' he').symm, hchecked.detectors⟩
  · intro hagree
    refine ⟨⟨loaded, calib, hstore, fun e he => ?_⟩, hvisits, hagree.2, hshards⟩
    unfold sampleOf at hsample
    split at hsample
    · rename_i first hfirst
      rw [hagree.1 e he first (List.mem_of_mem_head? hfirst), Except.ok.inj hsample]
      exact hlabel
    · exact absurd hsample (by simp)

/-- **The cross-checks hold just where the raws agree.**  The task is run on cross-checked
raws alone, and every other job fails, if and only if raws that pass the checks which are
made have one filter and came under their own detectors' names. -/
theorem cross_checks_exact (env : Env S) (g : Globals S) (exposures : Exposures S) :
    Guarded env g exposures ↔
      (Admits env g exposures → OneFilter env exposures ∧ OwnNames env exposures) := by
  have hquiet : ∃ w : World S, w.faults = [] :=
    ⟨⟨[], [], fun _ => .error (.runtime ""), fun _ _ => .ok .empty, fun _ _ _ => .ok ⟨[], []⟩⟩, rfl⟩
  constructor
  · intro hguarded hadmits
    obtain ⟨w, hw⟩ := hquiet
    obtain ⟨result, hrun⟩ := hadmits.beforeQuantum hw
    exact hadmits.crossChecked_iff.mp (hguarded.1 w result _ hrun)
  · intro hagree
    have hreached : ∀ world result q,
        (beforeQuantum env exposures).outcome ⟨g, world⟩ = (.ok result, q) →
          CrossChecked env g exposures := by
      intro world result q hrun
      have hadmits : Admits env g exposures := beforeQuantum_admits hrun
      exact hadmits.crossChecked_iff.mpr (hagree hadmits)
    refine ⟨hreached, ?_⟩
    intro hnot jobId numWorkers world
    rcases hrun : (runJob env jobId exposures numWorkers).outcome ⟨g, world⟩ with ⟨exc | out, q⟩
    · exact ⟨exc, q, rfl⟩
    · obtain ⟨result, t, hbefore⟩ := runJob_ok hrun
      exact absurd (hreached world result t hbefore) hnot

/-! ### Raws of two filters

The smallest job on which it shows: two detectors, of which the first has the prepared filter and
the second another.
-/

/-- The bench with two detectors, the second of which has seen another filter. -/
def mixedEnv : Env benchStack :=
  { benchEnv with
    listFiles := fun _ => ["ptc_191.fits", "ptc_192.fits"]
    readPtc := fun path =>
      .ok (if path = "/calib/ptc_191.fits" then "R00_SW0" else "R00_SW1", path)
    physicalLabel := fun raw => .ok (if raw = "R00_SW1" then "g_6" else "r_57")
    detectorId := fun raw => if raw = "R00_SW1" then 192 else 191 }

/-- One raw of each. -/
def mixedExposures : Exposures benchStack :=
  OrderedDict.empty.update [("R00_SW0", "R00_SW0"), ("R00_SW1", "R00_SW1")]

/-- After a prepare of the first one's filter, the task is run on both. -/
theorem cross_checks_mixed : ¬ ∀ (env : Env benchStack) (history : List (Moment benchStack))
    (exposures : Exposures benchStack), Guarded env (served history) exposures := by
  intro h
  have hguarded := h mixedEnv [⟨mixedEnv, benchWorld, .prepare (benchPrepare "r_57")⟩]
    mixedExposures
  obtain ⟨loaded, _, -, hfilters⟩ := (hguarded.1 benchWorld _ _ rfl).filters
  have hfirst := hfilters ("R00_SW0", "R00_SW0") (.head _)
  have hsecond := hfilters ("R00_SW1", "R00_SW1") (.tail _ (.head _))
  exact absurd (hfirst.trans hsecond.symm) (by decide)

end DonutServer
