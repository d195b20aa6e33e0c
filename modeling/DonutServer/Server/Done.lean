/-
A job that is DONE was computed as it was asked for.

What a job's record holds came through a shared block, a flight's pipe, a child's caches and
the table of jobs, and any number of other jobs went through all of them at the same time.
Nothing of that shows: it is what the task makes of the plain job, of the config the job's own
prepare asked for and of the raws in its own body or directory.
-/
import DonutServer.Server.Ledger

namespace DonutServer

open Function

variable {S : Stack} {n : Nat} {cfg : CoordSettings} {env : Env S} {W : World S → Prop}

namespace Server

variable {s s' : Server (Globals S) n}

/-! ### What an answer is worth

An answer travels from a child to a request that knows nothing of the child, and is taken for what
it is by position alone.  `Earns` says of each answer on its way what its request may take it for.
A child that makes an answer makes it of its own command, the config that command carries and the
caches it has filled so far; the caches are good by the coordinator's own theorem, the raws are
those of the body by `block_isolation`, and `MadeFor.earned` puts the three together.

The rest of the step lemma moves answers about: a step of a flight may hand one on to its caller,
and a command that is sent adds none.
-/

/-- What a child reads while it is at a command is its flight's block, and the rest of what
is outside is as `W` says. -/
def readsBlocks (W : World S → Prop) (s : Server (Globals S) n) (a : ServerAction (World S) n)
    (_ : Server (Globals S) n) : Prop :=
  ∀ i k world, a = .flight i (.answer k world) → world.block = s.blocks i ∧ W world

/-- Every child has cached what is good, and every answer on its way is worth what its
request takes it for. -/
structure Earns (env : Env S) (W : World S → Prop) (s : Server (Globals S) n) : Prop where
  memory : ∀ i, Flight.Hold (Cached env) (s.flights i)
  earned : ∀ c r progress, s.Incoming c r → s.At c progress → progress.Earned env W r.msg

/-- The raws are read off the body, whatever else is in the block. -/
theorem Holds.exposures {block body : Bytes} {layout : List PartLayout}
    (h : Holds block body body.length) (hparse : parseLayout body = .ok layout) :
    bodyExposures env block layout = bodyExposures env body layout := by
  have hparts : readParts block layout = readParts body layout := by
    unfold readParts
    congr 1
    refine List.map_congr_left fun part hpart => ?_
    rw [h.slice (parseLayout_within hparse part hpart)]
  unfold bodyExposures
  rw [hparts]

/-- **What a child makes of a command** is worth what the request that sent it takes it for. -/
theorem MadeFor.earned {a : ServerAction (World S) n} {c : CallId} {r : Sent} {i : FlightId n}
    {k : ChildId} {world : World S} {command : Command} {progress : Progress n}
    (h : MadeFor (coordinatorProgram env) s a c r i k world command) (hrefs : env.RefsIdentify)
    (hmem : Cached env ((s.flights i).children k).mem) (hinsulated : s.Insulated)
    (hblock : world.block = s.blocks i) (hworld : W world) (hc : s.At c progress) :
    progress.Earned env W r.msg := by
  obtain ⟨progress', hc', hsent⟩ := h.sent
  obtain rfl : progress' = progress :=
    congrArg Handler.progress (Option.some.inj (hc'.symm.trans hc))
  have hmsg : r.msg = (attempt env command ⟨((s.flights i).children k).mem, world⟩).1 := h.msg
  rw [hmsg]
  cases progress' with
  | preparing j jobId prepare sub =>
      obtain ⟨-, rfl⟩ := Prod.mk.inj (Option.some.inj hsent)
      refine ⟨fun _ _ _ _ heq hok => ?_, fun run key hrun => absurd hrun (by simp [Progress.jobRun])⟩
      obtain ⟨-, -, rfl, -⟩ := Progress.preparing.inj heq
      exact attempt_prepare hrefs hmem hok
  | dispatched j request layout key =>
      obtain ⟨rfl, rfl⟩ := Prod.mk.inj (Option.some.inj hsent)
      refine ⟨fun _ _ _ _ heq => absurd heq (by simp), fun run key' hrun hkey hok => ?_⟩
      obtain rfl := Option.some.inj hrun
      obtain rfl : key = some key' := hkey
      obtain ⟨hholds, hframing⟩ : Holds (s.blocks j) request.body request.body.length ∧
          framing (n := n) request.body = .ok layout := hinsulated.kept c _ hc
      obtain ⟨out, exposures, hout, hraws, hkeyed⟩ := attempt_push hrefs hmem hok
      have hraws : bodyExposures env world.block layout = .ok exposures := hraws
      rw [hblock, hholds.exposures (framing_ok hframing)] at hraws
      exact ⟨out, hout, world, exposures, key', hworld, hraws, rfl, hkeyed⟩
  | ingesting j jobId directory numWorkers key sub =>
      obtain ⟨rfl, rfl⟩ := Prod.mk.inj (Option.some.inj hsent)
      refine ⟨fun _ _ _ _ heq => absurd heq (by simp), fun run key' hrun hkey hok => ?_⟩
      obtain rfl := Option.some.inj hrun
      obtain rfl : key = some key' := hkey
      obtain ⟨out, exposures, hout, hraws, hkeyed⟩ := attempt_ingest hrefs hmem hok
      exact ⟨out, hout, world, exposures, key', hworld, hraws, rfl, hkeyed⟩
  | resolving j request directory =>
      refine ⟨fun _ _ _ _ heq => absurd heq (by simp), fun run key hrun => ?_⟩
      exact absurd hrun (by simp [Progress.jobRun])
  | _ => exact absurd hsent (by simp [Progress.sent])

/-- Whatever a step does to a flight, its children hold what is good. -/
theorem holds_update {f : Flight (Globals S)} {i : FlightId n} {a : FlightAction (World S)}
    {e : Effects} (h : ∀ i, Flight.Hold (Cached env) (s.flights i)) (hrefs : env.RefsIdentify)
    (hstep : (s.flights i).next cfg (coordinatorProgram env) a = some (f, e)) (j : FlightId n) :
    Flight.Hold (Cached env) (update s.flights i f j) := by
  by_cases hj : j = i
  · subst hj
    rw [update_self]
    exact (h j).next (Flight.coordinator_preserves hrefs) hstep
  · rw [update_of_ne hj]
    exact h j

/-- A command that is sent is a step of the flight it is sent to. -/
theorem holds_send {t : Server (Globals S) n} {i : FlightId n} {c : CallId} {command : Command}
    (cfg : CoordSettings) (h : ∀ i, Flight.Hold (Cached env) (t.flights i))
    (hrefs : env.RefsIdentify) (j : FlightId n) :
    Flight.Hold (Cached env) ((t.sendCommand i c command).flights j) := by
  have hstep : (t.flights i).next cfg (coordinatorProgram env) (.call c command) =
      some (((t.flights i).call c command).1, ((t.flights i).call c command).2) := rfl
  exact holds_update h hrefs hstep j

/-- The step lemma. -/
theorem Earns.next {a : ServerAction (World S) n} (h : s.Earns env W) (hrefs : env.RefsIdentify)
    (hsound : s.Sound (coordinatorProgram env)) (hsound' : s'.Sound (coordinatorProgram env))
    (hawaited : s.Awaited) (hinsulated : s.Insulated) (hreads : readsBlocks W s a s')
    (hstep : s.next cfg (coordinatorProgram env) a = some s') : s'.Earns env W := by
  refine ⟨?_, ?_⟩
  · have hmemory : ∀ i, Flight.Hold (Cached env) (s.flights i) := h.memory
    have hm := next_moves hstep
    generalize s.running = q at hm
    cases hm with
    | resolve | prepare | prepareSubmitted | ingest | dispatched =>
        exact holds_send cfg hmemory hrefs
    | flight i b f e hcall hflight => exact holds_update hmemory hrefs hflight
    | _ => exact hmemory
  · intro c r progress hincoming hc
    obtain ⟨hsame, hwas⟩ := next_incoming hsound hsound' hawaited hstep hincoming
    have hc : s.At c progress := hsame.symm.trans hc
    rcases hwas with hbefore | ⟨i, k, world, command, hmade⟩
    · exact h.earned c r progress hbefore hc
    · obtain ⟨hblock, hworld⟩ := hreads i k world hmade.action
      exact hmade.earned hrefs (h.memory i k) hinsulated hblock hworld hc

/-! ### Whole runs

Three invariants run side by side here: that of the flights with their blocks, that of the answers,
and the ledger of the records.  Each step lemma uses what the others say of the same state, so the
run lemma carries all three at once.
-/

end Server

end DonutServer
