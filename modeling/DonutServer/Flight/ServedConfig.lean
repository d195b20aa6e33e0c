/-
The served config of a flight of coordinators.

What a coordinator would dump is the dump of its live task, and that is written by
every activation, a prepare's and a job's alike.  A prepare's reply carries it; a job's
does not.  So the front-end's snapshot describes the child in every run where no job
brings back another config than the live one and every prepare that changes the config
gets to say so.
-/
import DonutServer.Flight.Pairing
import DonutServer.Flight.Snapshot

namespace DonutServer

open Effect

variable {S : Stack} {env : Env S} {cfg : CoordSettings}

/-! ### Commands that switch the config unsaid

There are two ways for a coordinator to change its live config without telling: a job brings back
the config of an earlier prepare, and a prepare fails only when it comes to send its reply.  Both
are told from the command and from the state it is run in.
-/

/-- The overrides of `c` build a config that dumps otherwise than the live one. -/
def BuildsOther (env : Env S) (c : PrepareCommand) (g : Globals S) : Prop :=
  ∃ task dump, buildTask env c.configOverrides = .ok (task, dump) ∧ dump ≠ g.taskDump

/-- A job carries the key of a remembered prepare with another config than the live one,
and gets past `ensure_prepared_for_push`. -/
def BringsBack (env : Env S) (world : World S) (key : PrepareKey) (g : Globals S) : Prop :=
  (∃ c, g.prepareCommands.get? key = some c ∧ BuildsOther env c g) ∧
    ∃ entry q, (ensurePreparedForPush env key).outcome ⟨g, world⟩ = (.ok entry, q)

/-- A prepare makes another config live, and then its reply cannot be sent. -/
def Unsent (env : Env S) (world : World S) (c : PrepareCommand) (g : Globals S) : Prop :=
  BuildsOther env c g ∧ ∃ msg q exc r,
    (body env (.prepare c)).outcome ⟨g, world⟩ = (.ok msg, q) ∧ fault.outcome q = (.error exc, r)

/-- The command switches the live config, and no reply says so. -/
def Switches (env : Env S) (world : World S) (command : Command) (g : Globals S) : Prop :=
  match command with
  | .prepare c => Unsent env world c g
  | .push _ _ _ (some key) => BringsBack env world key g
  | .ingest _ _ _ (some key) => BringsBack env world key g
  | _ => False

/-! ### What the other commands do to it

Every other command either activates nothing, or activates the entry whose config is live already,
or is a prepare whose reply carries the dump.  The dump is written in one place, at the end of an
activation, and the lemmas go from there up to the command.
-/

theorem Reads.dump {p q : Process S} (h : Reads p q) : q.taskDump = p.taskDump := by
  obtain ⟨_, _, rfl⟩ := h
  rfl

theorem settle_dump {command : Command} {g : Globals S} :
    (settle command g).taskDump = g.taskDump := by
  unfold settle
  split <;> rfl

/-- A remembered prepare's overrides build the config its key brings back. -/
theorem Live.not_other {k : PrepareKey} {c c' : PrepareCommand} {g g' : Globals S}
    (hrefs : env.RefsIdentify) (hk : Keyed env k c) (hk' : Keyed env k c') (h : Live env c g')
    (hother : ¬ BuildsOther env c' g) : g'.taskDump = g.taskDump := by
  obtain ⟨task, hbuild, _⟩ := (h.congr hrefs hk hk').task
  by_contra hne
  exact hother ⟨task, _, hbuild, hne⟩

/-- The entry of a job that does not bring back another config leaves the dump alone. -/
theorem activateFor_dump {p : Process S} {key : Option PrepareKey} (hrefs : env.RefsIdentify)
    (hp : Cached env p.toGlobals)
    (hkey : ∀ k, key = some k → ¬ BringsBack env p.world k p.toGlobals) :
    Ends (activateFor env key) p (fun _ q => q.taskDump = p.taskDump)
      (fun _ q => q.taskDump = p.taskDump) := by
  unfold activateFor
  split
  · rfl
  · rename_i k
    rw [ends_bind]
    refine (ensurePreparedForPush_ends hrefs hp).traced.mono ?_ (fun _ _ h => h.1.dump)
    intro entry q hends
    obtain ⟨⟨_, _, c, hk, hlive⟩, hrun⟩ := hends
    have hknown : k ∈ p.prepareCommands.keys := by
      by_contra hunknown
      rw [ensurePreparedForPush_unknown hunknown] at hrun
      exact absurd (Prod.mk.inj hrun).1 (by simp)
    obtain ⟨c', hget⟩ := Option.ne_none_iff_exists'.mp (OrderedDict.get?_ne_none.mpr hknown)
    have hother : ¬ BuildsOther env c' p.toGlobals := by
      intro hother
      exact hkey k rfl ⟨⟨c', hget, hother⟩, entry, q, hrun⟩
    exact hlive.not_other hrefs hk (hp.commands.get? hget) hother

/-- A command that is no prepare and switches nothing leaves the dump alone. -/
theorem body_dump {p : Process S} {command : Command} (hrefs : env.RefsIdentify)
    (hp : Cached env p.toGlobals) (hother : ∀ c, command ≠ .prepare c)
    (hstays : ¬ Switches env p.world command p.toGlobals) :
    Ends (body env command) p (fun _ q => q.taskDump = p.taskDump)
      (fun _ q => q.taskDump = p.taskDump) := by
  refine body_ends (P := fun q => q.taskDump = p.taskDump) (fun _ _ => rfl)
    (fun _ _ hq ht => ht.dump.trans hq) ?_ ?_ ?_
  · intro c hc
    exact absurd hc (hother c)
  · intro _ _ _ key heq
    subst heq
    refine activateFor_dump hrefs hp ?_
    intro k heq
    subst heq
    exact hstays
  · intro _ _ _ key heq
    subst heq
    refine activateFor_dump hrefs hp ?_
    intro k heq
    subst heq
    exact hstays

theorem failure_not_ok (command : Command) (exc : Exn) : (failure command exc).ok = false := by
  cases command <;> rfl

/-- A prepare says what it left, or leaves what there was. -/
theorem prepare_accounts {p : Process S} {c : PrepareCommand} (hrefs : env.RefsIdentify)
    (hp : Cached env p.toGlobals) (hsent : ¬ Unsent env p.world c p.toGlobals) :
    (attempt env (.prepare c) p).2.taskDump = p.taskDump ∨
      (attempt env (.prepare c) p).1.ok = true := by
  have hbody : Ends (body env (.prepare c)) p
      (fun msg q => msg.ok = true ∧ Live env c q.toGlobals) (fun _ q => q.taskDump = p.taskDump) := by
    show Ends (ensurePrepared env c >>= _) _ _ _
    rw [ends_bind]
    refine (ensurePrepared_ends hrefs hp).mono ?_ (fun _ _ h => h.2)
    exact fun _ _ h => ⟨rfl, h.2.2⟩
  rcases hrun : (body env (.prepare c)).outcome p with ⟨exc | msg, q⟩
  · have hattempt : attempt env (.prepare c) p = (failure (.prepare c) exc, q) := by
      simp only [attempt, outcome_bind, hrun]
    rw [hattempt]
    exact Or.inl (hbody.of_error hrun)
  · obtain ⟨hok, hlive⟩ := hbody.of_ok hrun
    rcases hfault : (fault : Code S Unit).outcome q with ⟨exc | _, r⟩
    · -- The reply could not be sent, so the config is the one that was live.
      have hattempt : attempt env (.prepare c) p = (failure (.prepare c) exc, r) := by
        simp only [attempt, outcome_bind, hrun, tried, if_true, hfault]
      obtain ⟨w, rfl⟩ := fault_ends.of_error hfault
      rw [hattempt]
      refine Or.inl ?_
      by_contra hne
      obtain ⟨task, hbuild, _⟩ := hlive.task
      exact hsent ⟨⟨task, _, hbuild, hne⟩, msg, q, exc, _, hrun, hfault⟩
    · have hattempt : attempt env (.prepare c) p = (msg, r) := by
        simp only [attempt, outcome_bind, hrun, tried, if_true, hfault]
        rfl
      rw [hattempt]
      exact Or.inr hok

/-- **A command that switches nothing unsaid accounts for what it does to the config.** -/
theorem coordinator_accounts {world : World S} {command : Command} {g : Globals S}
    (hrefs : env.RefsIdentify) (hg : Cached env g) (hstays : ¬ Switches env world command g) :
    (coordinatorProgram env).Accounts Globals.taskDump world command g := by
  have hsettled : ((coordinatorProgram env).run world command g).2.taskDump =
      (attempt env command ⟨g, world⟩).2.taskDump := settle_dump
  by_cases hprep : ∃ c, command = .prepare c
  · obtain ⟨c, rfl⟩ := hprep
    rcases prepare_accounts (p := ⟨g, world⟩) hrefs hg hstays with hsame | hok
    · exact Or.inl (hsettled.trans hsame)
    · exact Or.inr ⟨⟨c, rfl⟩, hok⟩
  · have hother : ∀ c, command ≠ .prepare c := fun c hc => hprep ⟨c, hc⟩
    refine Or.inl (hsettled.trans ?_)
    refine attempt_of_ends (P := fun _ q => q.taskDump = g.taskDump)
      (body_dump (p := ⟨g, world⟩) hrefs hg hother hstays) ?_ ?_ ?_
    · exact fun _ _ _ h => h
    · exact fun _ _ _ _ h => h
    · exact fun _ _ h => h

/-- **A good reply to a prepare carries the dump of the live config.** -/
theorem coordinator_reports : (coordinatorProgram env).Reports Globals.taskDump := by
  intro world c g
  have hbody : Ends (body env (.prepare c)) ⟨g, world⟩
      (fun msg q => msg.configDump = some q.taskDump) (fun _ _ => True) := by
    show Ends (ensurePrepared env c >>= _) _ _ _
    rw [ends_bind]
    exact .of_forall (fun _ _ => rfl) fun _ _ => trivial
  refine attempt_of_ends (P := fun msg q => msg.ok = true → msg.configDump = some q.taskDump)
    hbody ?_ ?_ ?_
  · exact fun _ _ _ h _ => h
  · intro msg exc q w _ hok
    rw [failure_not_ok] at hok
    exact absurd hok (by simp)
  · intro exc q _ hok
    rw [failure_not_ok] at hok
    exact absurd hok (by simp)

/-! ### Every run that switches nothing unsaid

With that the coordinator is a child program of the kind that the front-end was proved right
against, as far as its commands go, and what its caches hold is what a run of its commands keeps.
-/

namespace Flight

variable {f f' : Flight (Globals S)} {snap : ConfigSnapshot}

/-- Runs in which restarts are safe and no command switches the config unsaid. -/
def switchesNothing (env : Env S) (f : Flight (Globals S)) (a : FlightAction (World S))
    (f' : Flight (Globals S)) : Prop :=
  safeRestarts f a f' ∧ ∀ k world tag command, a = .answer k world →
    (f.children k).phase = .busy tag command → ¬ Switches env world command (f.children k).mem

/-- Every command keeps what the caches hold good. -/
theorem run_cached {world : World S} {command : Command} {g : Globals S} (hrefs : env.RefsIdentify)
    (hg : Cached env g) : Cached env ((coordinatorProgram env).run world command g).2 := by
  have hs : Session.Sound env ⟨g, [], g.prepareCommands.keys⟩ :=
    ⟨hg, fun _ h => absurd h List.not_mem_nil, fun _ => Iff.rfl⟩
  exact (hs.next hrefs (.handle command world)).cached

theorem coordinator_preserves (hrefs : env.RefsIdentify) :
    (coordinatorProgram env).Preserves (Cached env) :=
  ⟨cached_fresh, fun _ _ _ hg => run_cached hrefs hg⟩

theorem reach_accounted (hrefs : env.RefsIdentify)
    (h : (flightSystem cfg (coordinatorProgram env)).Reach (switchesNothing env) f) :
    (flightSystem cfg (coordinatorProgram env)).Reach
      (accounted (coordinatorProgram env) Globals.taskDump) f := by
  refine h.mono fun f a f' hr hok _ => ⟨hok.1, ?_⟩
  intro k world tag command ha hphase
  have hcached := reach_hold (coordinator_preserves hrefs) hr k
  exact coordinator_accounts hrefs hcached (hok.2 k world tag command ha hphase)

/-- READY and idle, a snapshot that is not stale is what the current child would dump. -/
def ServesLive (f : Flight (Globals S)) : Prop :=
  f.state = .ready → f.busy = false → ∀ snap k, f.configSnapshot = some snap →
    f.configIsStale snap = false → f.child = some k →
    snap.dump = (f.children k).mem.taskDump

/-- **The served config is the live one, in every run in which no command switches it
unsaid.** -/
theorem served_config_live (hrefs : env.RefsIdentify)
    (h : (flightSystem cfg (coordinatorProgram env)).Reach (switchesNothing env) f) :
    f.ServesLive := by
  intro hready hidle snap k hsnap hfresh hk
  have hmirrored := reach_mirrored coordinator_reports (reach_accounted hrefs h)
  have hgen : snap.generation = f.generation := by
    by_contra hne
    simp [configIsStale, hne] at hfresh
  rcases hmirrored.told hready snap k hsnap hgen hk with heq | hover
  · exact heq.symm
  · -- A caller who waits for a reply holds the lock.
    obtain ⟨c, command, k', tag, out, howner, _⟩ := hover
    simp [busy, FifoLock.locked, howner] at hidle

/-! ### Two runs of a bench

Both runs are of real coordinators, with a small observatory.  In the first a prepare is answered
and the snapshot is what the child would dump.  In the second two prepares are followed by a push
with the first one's key: the snapshot is the second's, the live config the first's, and nothing
says so.
-/

/-- The steps but an answer and an operator's restart. -/
def silentNext (cfg : CoordSettings) (prog : ChildProgram (Globals S) (World S))
    (f : Flight (Globals S)) : FlightAction (World S) → Option (Flight (Globals S))
  | .requestRestart _ => none
  | .answer _ _ => none
  | a => (f.next cfg prog a).map Prod.fst

theorem silent_reach {l : List (FlightAction (World S))}
    (h : (flightSystem cfg (coordinatorProgram env)).Reach (switchesNothing env) f)
    (hl : System.follow (silentNext cfg (coordinatorProgram env)) l f = some f') :
    (flightSystem cfg (coordinatorProgram env)).Reach (switchesNothing env) f' := by
  refine System.Reach.follow ?_ l h hl
  intro f a f' hstep
  have hmap : (f.next cfg (coordinatorProgram env) a).map Prod.fst = some f' := by
    cases a with
    | requestRestart _ | answer _ _ => exact absurd hstep (by simp [silentNext])
    | _ => exact hstep
  obtain ⟨⟨g, e⟩, hg, rfl⟩ := Option.map_eq_some_iff.mp hmap
  refine ⟨⟨e, hg⟩, ?_, ?_⟩
  · intro reason heq
    subst heq
    exact absurd hstep (by simp [silentNext])
  · intro k world tag command heq
    subst heq
    exact absurd hstep (by simp [silentNext])

/-- A flight of the bench is brought up and writes a prepare to its child. -/
def benchAsked : List (FlightAction (World benchStack)) :=
  [.resumeBringUp .startup, .runExecutor none, .runExecutor none, .resumeBringUp .startup,
    .boot 0 .hello, .runExecutor none, .resumeBringUp .startup,
    .call 0 (.prepare (benchPrepare "r_57")), .runExecutor none, .receive 0]

/-- The prepare of the bench, answered with nothing going wrong, is not left unsaid. -/
theorem bench_sent :
    ¬ Switches benchEnv benchWorld (.prepare (benchPrepare "r_57")) Globals.fresh := by
  intro h
  obtain ⟨_, msg, q, exc, r, hrun, hfault⟩ := h
  have hcalm : ((body benchEnv (.prepare (benchPrepare "r_57"))).outcome
      ⟨Globals.fresh, benchWorld⟩).2.world.faults.isEmpty = true := by decide +kernel
  rw [hrun] at hcalm
  have hnone : q.world.faults.head? = none := by
    rw [List.isEmpty_iff.mp hcalm]
    rfl
  have hok : (fault.outcome q).1 = .ok () := by
    simp only [fault, outcome_bind, outcome_get, outcome_modify, hnone]
    rfl
  rw [hfault] at hok
  exact absurd hok (by simp)

/-- The child of the bench answers its prepare. -/
theorem bench_answered {f f' : Flight (Globals benchStack)}
    (h : (flightSystem .standard (coordinatorProgram benchEnv)).Reach (switchesNothing benchEnv) f)
    {tag : Tag} (hphase : (f.children 0).phase = .busy tag (.prepare (benchPrepare "r_57")))
    (hmem : (f.children 0).mem = .fresh)
    (hstep : (f.next .standard (coordinatorProgram benchEnv) (.answer 0 benchWorld)).map Prod.fst =
      some f') :
    (flightSystem .standard (coordinatorProgram benchEnv)).Reach (switchesNothing benchEnv) f' := by
  obtain ⟨⟨g, e⟩, hg, rfl⟩ := Option.map_eq_some_iff.mp hstep
  refine .step h ⟨?_, ?_⟩ ⟨e, hg⟩
  · intro reason ha
    exact absurd ha (by simp)
  · intro k world tag' command ha hphase'
    obtain ⟨rfl, rfl⟩ := FlightAction.answer.inj ha
    obtain ⟨_, rfl⟩ := Phase.busy.inj (hphase.symm.trans hphase')
    rw [hmem]
    exact bench_sent

/-- The rest of the run, from the answer on. -/
def benchServed (f : Flight (Globals benchStack)) : Option (Flight (Globals benchStack)) :=
  ((f.next .standard (coordinatorProgram benchEnv) (.answer 0 benchWorld)).map Prod.fst).bind
    (System.follow (silentNext .standard (coordinatorProgram benchEnv))
      [.runExecutor none, .resumeCaller])

/-- After one prepare the snapshot is what the child would dump. -/
theorem served_config_live_prepared :
    ∃ f : Flight (Globals benchStack), f.state = .ready ∧ f.busy = false ∧
      f.configSnapshot.isSome = true ∧ f.ServesLive := by
  obtain ⟨f, hf⟩ : ∃ f, System.follow (silentNext .standard (coordinatorProgram benchEnv))
      benchAsked (Flight.started (coordinatorProgram benchEnv)) = some f := ⟨_, rfl⟩
  have hreach := silent_reach (.init rfl) hf
  obtain ⟨hphase, hmem⟩ : (f.children 0).phase = .busy 0 (.prepare (benchPrepare "r_57")) ∧
      (f.children 0).mem = .fresh := by
    obtain rfl := Option.some.inj hf
    exact ⟨rfl, rfl⟩
  have hrun : ((System.follow (silentNext .standard (coordinatorProgram benchEnv))
      benchAsked (Flight.started (coordinatorProgram benchEnv))).bind benchServed).any
      (fun f => f.state = .ready && !f.busy && f.configSnapshot.isSome) = true := by
    decide +kernel
  rw [hf, Option.bind_some] at hrun
  obtain ⟨f', hserved, hshape⟩ := Option.any_eq_true _ _ |>.mp hrun
  obtain ⟨g, hg, hf'⟩ := Option.bind_eq_some_iff.mp hserved
  simp only [Bool.and_eq_true, Bool.not_eq_true', decide_eq_true_eq] at hshape
  have hanswered := bench_answered hreach hphase hmem hg
  exact ⟨f', hshape.1.1, hshape.1.2, hshape.2,
    served_config_live benchEnv_refs (silent_reach hanswered hf')⟩

/-- One command on a flight of the bench, from its call to the end of the call. -/
def benchCommand (c : CallId) (command : Command) : List (FlightAction (World benchStack)) :=
  [.call c command, .runExecutor none, .receive 0, .answer 0 benchWorld, .runExecutor none,
    .resumeCaller]

/-- A prepare of the bench, with one override. -/
def benchOverride (physicalFilter : String) : PrepareCommand :=
  ⟨physicalFilter, 0, 0, "2026-07-14T05:42:02", [.value "magLimit" "20"]⟩

/-- Two prepares, and a push with the key of the first. -/
def benchBringsBack : List (FlightAction (World benchStack)) :=
  benchAsked ++ [.answer 0 benchWorld, .runExecutor none, .resumeCaller] ++
    benchCommand 1 (.prepare (benchOverride "r_57")) ++
    benchCommand 2 (.push "job" [] none (some (benchKey "r_57")))

/-- Whether the snapshot that is served is another child's dump, or another config's. -/
def misled (f : Flight (Globals S)) : Bool :=
  f.state = .ready && !f.busy &&
    match f.configSnapshot, f.child with
    | some snap, some k => !f.configIsStale snap && snap.dump ≠ (f.children k).mem.taskDump
    | _, _ => false

theorem misled_not_live (h : f.misled = true) : ¬ f.ServesLive := by
  intro hlive
  unfold misled at h
  split at h
  · rename_i snap k hsnap hk
    simp only [Bool.and_eq_true, Bool.not_eq_true', decide_eq_true_eq] at h
    obtain ⟨⟨hready, hidle⟩, hfresh, hne⟩ := h
    exact hne (hlive hready hidle snap k hsnap hfresh hk)
  · simp at h

/-- **A snapshot that is not stale and not live.**  A push brings back the config of the
first of two prepares, and the snapshot is the second's. -/
theorem served_config_switched :
    ∃ f : Flight (Globals benchStack),
      (flightSystem .standard (coordinatorProgram benchEnv)).Reach System.always f ∧
      ¬ f.ServesLive := by
  have hrun : (Flight.follow .standard (coordinatorProgram benchEnv) benchBringsBack
      (Flight.started (coordinatorProgram benchEnv))).any misled = true := by decide +kernel
  obtain ⟨f, hf, hmisled⟩ := Option.any_eq_true _ _ |>.mp hrun
  exact ⟨f, Flight.follow_reach hf, misled_not_live hmisled⟩

end Flight

end DonutServer
