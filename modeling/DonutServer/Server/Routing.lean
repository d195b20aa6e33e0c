/-
Which flight a job belongs to.

A route is written once, by the prepare that draws the job's id or by the first push or
ingest that finds none, and everything that is done for the job goes by it: where its
commands are sent, where its body is streamed, and whose loss fails it.
-/
import DonutServer.Flight.Calls
import DonutServer.Server.Links
import DonutServer.Server.Stranded

namespace DonutServer

open Function

variable {κ σ : Type} {n : Nat} {cfg : CoordSettings} {prog : ChildProgram κ σ}

/-! ### Commands and their jobs

A command that runs a job names it, and a request knows its job once it has been given one.
`Routed` is that all of these, and all the commands that were ever written, go by the table.
-/

/-- The command runs the job: a push or an ingest of it. -/
def Command.runs (jobId : JobId) : Command → Bool
  | .push j _ _ _ => j = jobId
  | .ingest j _ _ _ => j = jobId
  | _ => false

/-- The flight and the job a request is about, once it has been given the one. -/
def Progress.about : Progress n → Option (FlightId n × JobId)
  | .preparing i jobId _ _ => some (i, jobId)
  | .ingesting i jobId _ _ _ _ => some (i, jobId)
  | .queued i request => some (i, request.jobId)
  | .header i request _ => some (i, request.jobId)
  | .body i request _ => some (i, request.jobId)
  | .dispatched i request _ _ => some (i, request.jobId)
  | _ => none

namespace Server

variable {s s' : Server κ n} {c : CallId} {i : FlightId n}

/-- Commands and requests go by the routing table. -/
structure Routed (s : Server κ n) : Prop where
  numbered : ∀ i, (s.flights i).Numbered
  asked : ∀ i jobId, 0 < (s.flights i).asked (Command.runs jobId) → s.byJob jobId = some i
  about : ∀ c progress i jobId, s.At c progress → progress.about = some (i, jobId) →
    s.byJob jobId = some i

/-! ### What a step asks for

A step sends at most one command, to one flight, for the job of one request.  Everything else it
does to a flight asks for nothing, in the counting of `asked`.
-/

/-- What `f'` asks for beyond `f` is what `may` allows. -/
def Asks (may : JobId → Prop) (f f' : Flight κ) : Prop :=
  f.Numbered → f'.Numbered ∧
    ∀ jobId, ¬ may jobId → f'.asked (Command.runs jobId) ≤ f.asked (Command.runs jobId)

/-- Nothing has been asked for. -/
theorem Asks.refl {may : JobId → Prop} {f : Flight κ} : Asks may f f :=
  fun hn => ⟨hn, fun _ _ => Nat.le_refl _⟩

theorem Asks.call {may : JobId → Prop} {f : Flight κ} {command : Command}
    (h : ∀ jobId, command.runs jobId = true → may jobId) : Asks may f (f.call c command).1 := by
  refine fun hn => ⟨(Flight.call_asked (p := fun _ => false) _ hn).1, fun jobId hmay => ?_⟩
  have hasked := (Flight.call_asked (p := Command.runs jobId) (c := c) command hn).2
  rw [if_neg fun hruns => hmay (h jobId hruns)] at hasked
  exact hasked

theorem Asks.next (may : JobId → Prop) {f f' : Flight κ} {a : FlightAction σ} {e : Effects}
    (hcall : ∀ c command, a ≠ .call c command) (h : f.next cfg prog a = some (f', e)) :
    Asks may f f' := by
  have hno : ∀ jobId, f.NoMore (Command.runs jobId) f' :=
    fun jobId => Flight.next_noMore (fun _ => rfl) hcall h
  exact fun hn => ⟨(hno "").numbered hn, fun jobId _ => (hno jobId).asked hn⟩

/-- One flight is sent a command. -/
theorem Asks.sendCommand (may : JobId → Prop) {command : Command}
    (h : ∀ jobId, command.runs jobId = true → may jobId) (j : FlightId n) :
    Asks (fun jobId => j = i ∧ may jobId) (s.flights j) ((s.sendCommand i c command).flights j) := by
  by_cases hj : j = i
  · subst hj
    rw [show (s.sendCommand j c command).flights j = ((s.flights j).call c command).1 from
      update_self _ _ _]
    exact Asks.call fun jobId hruns => ⟨rfl, h jobId hruns⟩
  · rw [show (s.sendCommand i c command).flights j = s.flights j from update_of_ne hj _ _]
    exact Asks.refl

/-- A step keeps to the routes if it keeps them, and sends and starts nothing beside them. -/
theorem Routed.step {handler : Handler n} (h : s.Routed)
    (hroutes : ∀ jobId i, s.byJob jobId = some i → s'.byJob jobId = some i)
    (hasks : ∀ i, Asks (fun jobId => s'.byJob jobId = some i) (s.flights i) (s'.flights i))
    (hhandlers : s'.handlers = update s.handlers c (some handler))
    (hself : handler.reply = none → ∀ i jobId, handler.progress.about = some (i, jobId) →
      s'.byJob jobId = some i) : s'.Routed := by
  refine ⟨fun i => (hasks i (h.numbered i)).1, fun i jobId hpos => ?_, ?_⟩
  · by_contra hroute
    have hle := (hasks i (h.numbered i)).2 jobId hroute
    exact hroute (hroutes jobId i (h.asked i jobId (Nat.lt_of_lt_of_le hpos hle)))
  · intro c' progress i jobId hat habout
    by_cases hne : c' = c
    · subst hne
      have heq : handler = ⟨progress, none⟩ := by
        have hat : s'.handlers c' = some ⟨progress, none⟩ := hat
        rw [hhandlers, update_self] at hat
        exact Option.some.inj hat
      subst heq
      exact hself rfl i jobId habout
    · have hbefore : s.At c' progress := by
        have hat : s'.handlers c' = some ⟨progress, none⟩ := hat
        rw [hhandlers, update_of_ne hne] at hat
        exact hat
      exact hroutes jobId i (h.about c' progress i jobId hbefore habout)

/-- A request that is about what it was about, or is answered, sends nothing. -/
theorem Routed.stay {handler : Handler n} (h : s.Routed)
    (hsame : (s'.byJob, s'.flights) = (s.byJob, s.flights))
    (hhandlers : s'.handlers = update s.handlers c (some handler))
    (hself : handler.reply = none → handler.progress.about = none ∨
      ∃ progress, s.At c progress ∧ handler.progress.about = progress.about) : s'.Routed := by
  simp only [Prod.mk.injEq] at hsame
  obtain ⟨hroutes, hflights⟩ := hsame
  refine h.step ?_ ?_ hhandlers ?_
  · rw [hroutes]
    exact fun _ _ hr => hr
  · rw [hflights]
    exact fun _ => Asks.refl
  · intro hreply i jobId habout
    rcases hself hreply with hnone | ⟨progress, hat, heq⟩
    · exact absurd (hnone.symm.trans habout) (by simp)
    · rw [hroutes]
      exact h.about c progress i jobId hat (heq.symm.trans habout)

/-- A job that has a route keeps it. -/
theorem routed_byJob {jobId jobId' : JobId} {i : FlightId n} (h : s.byJob jobId' = some i) :
    (s.routed jobId).byJob jobId' = some i := by
  by_cases hj : jobId' = jobId
  · subst hj
    show update s.byJob jobId' _ jobId' = _
    rw [update_self]
    unfold forPush
    rw [h]
    rfl
  · exact (update_of_ne hj _ _).trans h

/-- A loss changes no route. -/
theorem noteLoss_byJob {loss : Option Loss} : (s.noteLoss i loss).byJob = s.byJob := by
  unfold noteLoss
  split <;> rfl

/-- A route, once written, is not written again. -/
theorem next_byJob {a : ServerAction σ n} {jobId : JobId} (h : s.byJob jobId = some i)
    (hstep : s.next cfg prog a = some s') : s'.byJob jobId = some i := by
  have hm := next_moves hstep
  generalize hr : s.running = r at hm
  have h₀ : Server.byJob { s with running := none } jobId = some i := h
  cases hm with
  | prepare c j _ uuid _ hroute | prepareSubmitted c j _ uuid _ hroute =>
      have hne : jobId ≠ uuid := by
        intro heq
        subst heq
        exact absurd (hroute.symm.trans h) (by simp)
      exact (update_of_ne hne _ _).trans h
  | ingest | pushQueued | pushBegun => exact routed_byJob h₀
  | flight => exact (congrFun noteLoss_byJob jobId).trans h
  | _ => exact h

/-- The step lemma. -/
theorem Routed.next {a : ServerAction σ n} (h : s.Routed) (hlinks : s.PushLinks)
    (hstep : s.next cfg prog a = some s') : s'.Routed := by
  have hm := next_moves hstep
  generalize hr : s.running = r at hm
  have h₀ : Routed { s with running := none } := ⟨h.numbered, h.asked, h.about⟩
  have hroutes : ∀ jobId i, s.byJob jobId = some i → s'.byJob jobId = some i :=
    fun jobId i hroute => next_byJob hroute hstep
  cases hm with
  | tick => exact ⟨h.numbered, h.asked, h.about⟩
  | guarded c | preparedSubmitted c => exact h₀.stay rfl rfl fun _ => Or.inl rfl
  | refused c | unresolved c | turnedDown c | invalid c | unprepared c | prepareFailed c
  | prepared c | uningested c | ingested c | overflow c | disconnect c
  | headerRefused c | layoutRefused c | layoutCrashed c | pushed c =>
      exact h₀.stay rfl rfl fun hreply => absurd hreply (by simp)
  | chunkHeader c _ _ _ _ _ _ hc | chunkBody c _ _ _ _ _ _ hc | headerAccepted c _ _ _ _ _ _ _ hc =>
      exact h₀.stay rfl rfl fun _ => Or.inr ⟨_, hc, rfl⟩
  | resolve c j request directory _ hc =>
      refine h₀.step hroutes (fun k => ?_) rfl fun _ _ _ habout => absurd habout (by simp [Progress.about])
      exact fun hn => (Asks.sendCommand (fun _ => False) (by simp [Command.runs]) k hn).imp_right
        fun hle jobId _ => hle jobId (by simp)
  | prepare c j command uuid hc | prepareSubmitted c j sub uuid hc =>
      refine h₀.step hroutes (fun k => ?_) rfl fun _ k jobId habout => ?_
      · exact fun hn => (Asks.sendCommand (fun _ => False) (by simp [Command.runs]) k hn).imp_right
          fun hle jobId _ => hle jobId (by simp)
      · obtain ⟨rfl, rfl⟩ := Prod.mk.inj (Option.some.inj habout)
        exact update_self _ _ _
  | ingest c jobId directory numWorkers record sub _ _ hc =>
      refine h₀.step hroutes (fun k => ?_) rfl fun _ k jobId' habout => ?_
      · refine fun hn => (Asks.sendCommand (fun j => j = jobId) ?_ k hn).imp_right ?_
        · intro j hruns
          exact (of_decide_eq_true hruns).symm
        · intro hle j hroute
          refine hle j ?_
          intro hx
          obtain ⟨rfl, rfl⟩ := hx
          exact hroute (update_self _ _ _)
      · obtain ⟨rfl, rfl⟩ := Prod.mk.inj (Option.some.inj habout)
        exact update_self _ _ _
  | pushQueued c request | pushBegun c request =>
      refine h₀.step hroutes (fun _ => Asks.refl) rfl fun _ k jobId habout => ?_
      obtain ⟨rfl, rfl⟩ := Prod.mk.inj (Option.some.inj habout)
      exact update_self _ _ _
  | pushGranted c i j request lock hlock hc =>
      have hi : (j, false) = (i, false) := Option.some.inj (hlinks.granted hlock hc)
      obtain rfl := (Prod.mk.inj hi).1
      exact h₀.stay rfl rfl fun _ => Or.inr ⟨_, hc, rfl⟩
  | dispatched c j request received layout key _ hc =>
      have hroute : s.byJob request.jobId = some j := h.about c _ j request.jobId hc rfl
      refine h₀.step hroutes (fun k => ?_) rfl fun _ k jobId habout => ?_
      · refine fun hn => (Asks.sendCommand (fun j => j = request.jobId) ?_ k hn).imp_right ?_
        · intro jobId hruns
          exact (of_decide_eq_true hruns).symm
        · intro hle jobId hno
          refine hle jobId ?_
          intro hx
          obtain ⟨rfl, rfl⟩ := hx
          exact hno hroute
      · obtain ⟨rfl, rfl⟩ := Prod.mk.inj (Option.some.inj habout)
        exact hroute
  | flight j a f e hcall hflight =>
      refine ⟨fun k => ?_, fun k jobId hpos => ?_, fun c progress k jobId hat habout => ?_⟩
      · show (update s.flights j f k).Numbered
        by_cases hk : k = j
        · subst hk
          rw [update_self]
          exact (Asks.next (fun _ => False) hcall hflight (h.numbered k)).1
        · rw [update_of_ne hk]
          exact h.numbered k
      · have hpos : 0 < (update s.flights j f k).asked (Command.runs jobId) := hpos
        refine hroutes jobId k (h.asked k jobId ?_)
        by_cases hk : k = j
        · subst hk
          rw [update_self] at hpos
          exact Nat.lt_of_lt_of_le hpos
            ((Asks.next (fun _ => False) hcall hflight (h.numbered k)).2 jobId (by simp))
        · rw [update_of_ne hk] at hpos
          exact hpos
      · refine hroutes jobId k (h.about c progress k jobId ?_ habout)
        exact (congrFun (noteLoss_handlers (s := { s with running := none }) j e.loss) c).symm.trans hat

/-- It is so in every run, whatever is asked of its steps. -/
theorem reach_routed {ok : Server κ n → ServerAction σ n → Server κ n → Prop}
    (h : (serverSystem n cfg prog).Reach ok s) : s.Routed := by
  refine h.invariant' ?_ fun s a s' hr hs _ hstep => hs.next (reach_pushLinks hr) hstep
  intro _ hc
  obtain ⟨_, _, rfl⟩ := hc
  refine ⟨fun _ => Flight.started_numbered, fun _ jobId hpos => ?_, fun c p _ _ hat => ?_⟩
  · have hpos : 0 < (Flight.started prog).asked (Command.runs jobId) := hpos
    rw [Flight.started_asked] at hpos
    exact absurd hpos (Nat.lt_irrefl 0)
  · exact absurd (show none = some _ from hat) (by simp)

/-! ### What a loss changes

The loss handler goes over the records of the flight's routes, and writes those that are RECEIVING
or COMPUTING.  That it leaves the other flights alone is read off the step; that it leaves other
jobs alone follows because a job has one route.
-/

/-- A record changes with a loss exactly if it is in progress. -/
theorem JobRecord.failed_ne {reason : String} {record : JobRecord} :
    record.failed reason ≠ record ↔ record.state.inProgress = true := by
  refine ⟨fun hne => ?_, fun hprogress heq => ?_⟩
  · by_contra hidle
    refine hne (if_neg ?_)
    intro h
    rcases h with hstate | hstate
    · exact hidle (by rw [hstate]; rfl)
    · exact hidle (by rw [hstate]; rfl)
  · have hover := JobRecord.failed_inProgress reason record
    rw [heq] at hover
    exact absurd (hover.symm.trans hprogress) (by simp)

/-- The loss handler fails the jobs of its flight that are in progress. -/
theorem failJobs_changes {loss : Loss} {jobId : JobId} :
    (s.failJobs i loss).jobs jobId ≠ s.jobs jobId ↔
      s.byJob jobId = some i ∧ ∃ record, s.jobs jobId = some record ∧ record.state.inProgress := by
  show (if s.byJob jobId = some i then (s.jobs jobId).map (JobRecord.failed loss.reason)
    else s.jobs jobId) ≠ s.jobs jobId ↔ _
  by_cases hroute : s.byJob jobId = some i
  · rw [if_pos hroute]
    refine ⟨fun hne => ⟨hroute, ?_⟩, fun ⟨_, record, hrecord, hprogress⟩ heq => ?_⟩
    · rcases hjob : s.jobs jobId with _ | record
      · rw [hjob] at hne
        exact absurd rfl hne
      · rw [hjob] at hne
        exact ⟨record, rfl, JobRecord.failed_ne.mp fun heq => hne (congrArg some heq)⟩
    · rw [hrecord] at heq
      exact JobRecord.failed_ne.mpr hprogress (Option.some.inj heq)
  · rw [if_neg hroute]
    exact ⟨fun hne => absurd rfl hne, fun h => absurd h.1 hroute⟩

/-- What a flight's step does to the server when it loses its child. -/
theorem next_loss {a : FlightAction σ} {f : Flight κ} {e : Effects} {loss : Loss}
    (hloss : (s.flights i).next cfg prog a = some (f, e) ∧ e.loss = some loss)
    (hstep : s.next cfg prog (.flight i a) = some s') :
    s'.jobs = (s.failJobs i loss).jobs ∧ s'.byJob = s.byJob ∧ s'.handlers = s.handlers ∧
      s'.flights = update s.flights i f := by
  obtain ⟨hflight, he⟩ := hloss
  have hrunning : s.running = none := by
    cases hr : s.running with
    | none => rfl
    | some r =>
        unfold next at hstep
        rw [hr] at hstep
        exact absurd hstep (by simp)
  unfold next at hstep
  rw [hrunning] at hstep
  have hm : s.stepFlight cfg prog i a = some s' := hstep
  unfold stepFlight at hm
  split at hm
  · exact absurd hm (by simp)
  · rw [hflight, Option.map_some] at hm
    obtain rfl := Option.some.inj hm
    rw [he]
    exact ⟨rfl, rfl, rfl, rfl⟩

/-- Over a whole run a route stays what it is. -/
theorem path_byJob {jobId : JobId} (h : (serverSystem n cfg prog).Path s s')
    (hroute : s.byJob jobId = some i) : s'.byJob jobId = some i := by
  induction h with
  | refl => exact hroute
  | tail _ hstep ih =>
      obtain ⟨a, hstep⟩ := hstep
      exact next_byJob ih hstep

/-- **Routing and loss isolation.**  In every state a run reaches: a route there is stays
for good; a command that runs a job, waiting or written, is with the flight of its route;
and when a flight loses its child, the records that change are the ones routed to it that
are in progress. -/
theorem routing_and_loss_isolation (h : (serverSystem n cfg prog).Reach System.always s) :
    (∀ s' jobId i, (serverSystem n cfg prog).Path s s' → s.byJob jobId = some i →
      s'.byJob jobId = some i) ∧
    (∀ c progress i command jobId, s.At c progress → progress.sent = some (i, command) →
      command.runs jobId = true → s.byJob jobId = some i) ∧
    (∀ i tag client child command jobId, (s.flights i).written tag = some (client, child, command) →
      command.runs jobId = true → s.byJob jobId = some i) ∧
    ∀ i a f e loss s', (s.flights i).next cfg prog a = some (f, e) ∧ e.loss = some loss →
      s.next cfg prog (.flight i a) = some s' →
      s'.byJob = s.byJob ∧ (∀ j, j ≠ i → s'.flights j = s.flights j) ∧
      ∀ jobId,
        (s'.jobs jobId ≠ s.jobs jobId ↔ s.byJob jobId = some i ∧
          ∃ record, s.jobs jobId = some record ∧ record.state.inProgress = true) ∧
        ∀ record, s.jobs jobId = some record → s'.jobs jobId ≠ s.jobs jobId →
          s'.jobs jobId = some (record.failed loss.reason) := by
  have hrouted := reach_routed h
  refine ⟨fun s' jobId i hpath hroute => path_byJob hpath hroute, ?_, ?_, ?_⟩
  · intro c progress i command jobId hat hsent hruns
    refine hrouted.about c progress i jobId hat ?_
    cases progress with
    | ingesting =>
        obtain ⟨rfl, rfl⟩ := Prod.mk.inj (Option.some.inj hsent)
        rw [← of_decide_eq_true hruns]
        rfl
    | dispatched =>
        obtain ⟨rfl, rfl⟩ := Prod.mk.inj (Option.some.inj hsent)
        rw [← of_decide_eq_true hruns]
        rfl
    | resolving | preparing =>
        obtain ⟨rfl, rfl⟩ := Prod.mk.inj (Option.some.inj hsent)
        exact absurd hruns (by simp [Command.runs])
    | _ => exact absurd hsent (by simp [Progress.sent])
  · intro i tag client child command jobId hwritten hruns
    have hwrote : (s.flights i).wrote (Command.runs jobId) tag = true := by
      unfold Flight.wrote
      rw [hwritten]
      exact hruns
    exact hrouted.asked i jobId (Flight.asked_pos (hrouted.numbered i) hwrote)
  · intro i a f e loss s' hloss hstep
    obtain ⟨hjobs, hroutes, _, hflights⟩ := next_loss hloss hstep
    refine ⟨hroutes, fun j hj => ?_, fun jobId => ⟨?_, fun record hrecord hne => ?_⟩⟩
    · rw [hflights]
      exact update_of_ne hj _ _
    · rw [hjobs]
      exact failJobs_changes
    · rw [hjobs] at hne ⊢
      obtain ⟨hroute, _⟩ := failJobs_changes.mp hne
      show (if s.byJob jobId = some i then (s.jobs jobId).map (JobRecord.failed loss.reason)
        else s.jobs jobId) = _
      rw [if_pos hroute, hrecord]
      rfl

/-- Each of two flights has prepared a job, and a push of each job has got past its header. -/
def benchReceivingTwo : List (ServerAction Msg 1) :=
  .tick :: bringUp spareFlight ++ preparedJob "first" ++
    [.prepare 1 { PrepareCommand.bench with physicalFilter := "g_6" } "second"] ++
    answered spareFlight 0 .benchPrepared "" ++
    [.push 2 ⟨"first", benchBlob, none⟩, .chunk 2 16 false, .resume "",
      .push 3 ⟨"second", benchBlob, none⟩, .chunk 3 16 false, .resume ""]

/-- Two jobs are being received, each by its own flight.  A loss of the first flight fails the
first job with the loss's reason, and leaves the second job and its flight as they are. -/
theorem routing_and_loss_isolation_two :
    ∃ (s s' : Server Unit 1) (record record' : JobRecord),
      s.jobs "first" = some record ∧ s.jobs "second" = some record' ∧
      record.state = .receiving ∧ record'.state = .receiving ∧
      s.next .standard .scripted (.flight 0 (.requestRestart "operator")) = some s' ∧
      s'.jobs "first" = some (record.failed "operator") ∧ s'.jobs "second" = some record' ∧
      s'.flights spareFlight = s.flights spareFlight := by
  obtain ⟨s, s', f, e, loss, record, record', hs, hstep, hflight, hloss, hreason, hrecord,
      hrecord', hstate, hroute, hstate', hroute'⟩ :
      ∃ (s s' : Server Unit 1) (f : Flight Unit) (e : Effects) (loss : Loss)
        (record record' : JobRecord),
        Server.follow .standard .scripted benchReceivingTwo
          (Server.started .scripted 1 fun _ => List.replicate 64 0) = some s ∧
        s.next .standard .scripted (.flight 0 (.requestRestart "operator")) = some s' ∧
        (s.flights 0).next .standard .scripted (.requestRestart "operator") = some (f, e) ∧
        e.loss = some loss ∧ loss.reason = "operator" ∧ s.jobs "first" = some record ∧
        s.jobs "second" = some record' ∧ record.state = .receiving ∧ s.byJob "first" = some 0 ∧
        record'.state = .receiving ∧ s.byJob "second" = some spareFlight :=
    ⟨_, _, _, _, _, _, _, rfl, rfl, rfl, rfl, rfl, rfl, rfl, rfl, rfl, rfl, rfl⟩
  obtain ⟨-, hflights, hjobs⟩ := (routing_and_loss_isolation (Server.follow_reach hs)).2.2.2 0 _ f e
    loss s' ⟨hflight, hloss⟩ hstep
  have hfailed : s'.jobs "first" ≠ s.jobs "first" :=
    (hjobs "first").1.mpr ⟨hroute, record, hrecord, by rw [hstate]; rfl⟩
  have hkept : s'.jobs "second" = s.jobs "second" := by
    by_contra hne
    have hother := ((hjobs "second").1.mp hne).1
    exact absurd (hroute'.symm.trans hother) (by decide)
  refine ⟨s, s', record, record', hrecord, hrecord', hstate, hstate', hstep, ?_, ?_,
    hflights spareFlight (by decide)⟩
  · rw [(hjobs "first").2 record hrecord hfailed, hreason]
  · rw [hkept, hrecord']

end Server

end DonutServer
