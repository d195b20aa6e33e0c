/-
Whole runs of a process that puts tables off.

`Handled` says what may be seen of a process from its hello on: it waits with nothing put
off, takes a command in, may complete a run of it, replies, and writes some of the files of
that run and no others.  Each step of the loop keeps to it, whatever fails, and the part of
it that passes over the pipe is what passes in the plain model.
-/
import DonutServer.Coordinator.Handover

namespace DonutServer

open Effect PyText

variable {S : Stack} {T : Type} {env : Env S}

namespace Desk

/-! ### Runs of the loop

A run may stop at any point, because a process can die at any point, so `Handled` is about what has
been seen and not about how it ends.  It is defined by the rounds of the loop, and each lemma below
adds one piece of a round in front of whatever is seen later; the induction is on the commands that
arrive.
-/

/-- What may be seen from here on of a process with this memory that has these commands
before it.  It may end anywhere, for a process can always die. -/
inductive Handled (env : Env S) : Globals S → List (Arrival S T) → List (Seen T) → Prop
  | stop {mem : Globals S} {incoming : List (Arrival S T)} : Handled env mem incoming []
  | waiting {mem : Globals S} {incoming : List (Arrival S T)} :
      Handled env mem incoming [.waits .empty]
  | unanswered {mem : Globals S} {a : Arrival S T} {rest : List (Arrival S T)}
      {handed : Handover T} : handed.Of a.command →
      Handled env mem (a :: rest) (.waits .empty :: .pipe (.received a.command) :: handed.seen)
  | answered {mem mem' : Globals S} {a : Arrival S T} {rest : List (Arrival S T)} {msg : Msg}
      {handed : Handover T} {writes : List (String × T)} {seen : List (Seen T)} :
      handed.Of a.command →
      (coordinatorProgram env).run a.world a.command mem = (msg, mem') →
      List.Sublist writes (placed (stampDir env) handed.named) →
      Handled env mem' (if a.command = .shutdown then [] else rest) seen →
      Handled env mem (a :: rest)
        ([.waits .empty, .pipe (.received a.command)] ++ handed.seen ++ [.pipe (.sent msg)] ++
          noted writes ++ seen)

/-- What is seen from here on, behind what was seen before, is as it may be. -/
def GoesOn (env : Env S) (d : Desk S T) (incoming : List (Arrival S T)) (t : Desk S T) : Prop :=
  ∃ seen, t.seen = d.seen ++ seen ∧ Handled env d.process.toGlobals incoming seen

/-- Waiting notes that it waits, and with what in `_DEFERRED`. -/
theorem await_ends {d : Desk S T} (hd : d.deferred = .empty) :
    Ends (await : Work S T Unit) d (fun _ t => t = { d with seen := d.seen ++ [.waits .empty] })
      (fun _ _ => False) := by
  unfold await note
  rw [ends_bind, ends_get, ends_modify, hd]

/-- Taking a command in notes the command, or raises. -/
theorem receive_ends (a : Arrival S T) (d : Desk S T) :
    Ends (receive a) d
      (fun _ t => t = { d with
        process := ⟨d.process.toGlobals, a.world⟩
        tables := a.tables
        seen := d.seen ++ [.pipe (.received a.command)] })
      (fun _ t => t.seen = d.seen) := by
  unfold receive
  rw [ends_bind, ends_onPipe]
  refine (receiveCommand_ends a.command a.world).mono ?_ ?_
  · intro _ s hs
    rw [ends_modify, hs]
    rfl
  · intro _ s hs
    show d.seen ++ s.events.map Seen.pipe = d.seen
    rw [hs]
    exact List.append_nil _

/-- Only a job's arm hands anything over. -/
theorem handed_eq_none {command : Command} {handed : Handover T} (h : handed.Of command)
    (hdefers : defers command = false) : handed = none := by
  cases handed with
  | none => rfl
  | some job =>
      have hjob := h job.1 job.2 rfl
      cases command with
      | push jobId layout numWorkers key => exact absurd hdefers (by simp [defers])
      | ingest jobId directory numWorkers key => exact absurd hdefers (by simp [defers])
      | prepare c => exact absurd hjob (by simp [Command.jobId?])
      | resolve directory => exact absurd hjob (by simp [Command.jobId?])
      | shutdown => exact absurd hjob (by simp [Command.jobId?])
      | other cmd => exact absurd hjob (by simp [Command.jobId?])

/-- The work put off, where there is any, as the plain model accounts for it. -/
theorem afterReply_ends {command : Command} {handed : Handover T} (hown : handed.Of command)
    {d : Desk S T} (hd : d.deferred = handed.deferred) :
    Ends (afterReply env command) d
      (fun _ t => (∃ writes, List.Sublist writes (placed (stampDir env) handed.named) ∧
          t.seen = d.seen ++ noted writes) ∧ t.deferred = .empty ∧
        t.process.toGlobals = settle command d.process.toGlobals)
      (fun _ t => t.seen = d.seen) := by
  unfold afterReply settle
  split
  · exact runDeferred_ends hd
  · rename_i hdefers
    rw [handed_eq_none hown (Bool.eq_false_iff.mpr hdefers)] at hd
    exact ⟨⟨[], List.nil_sublist _, (List.append_nil _).symm⟩, hd, rfl⟩

/-- `t` is `d` after it has waited and taken `a` in. -/
structure Took (d : Desk S T) (a : Arrival S T) (t : Desk S T) : Prop where
  seen : t.seen = d.seen ++ [.waits .empty, .pipe (.received a.command)]
  process : t.process = ⟨d.process.toGlobals, a.world⟩
  deferred : t.deferred = .empty

variable {d t u v : Desk S T} {a : Arrival S T} {rest : List (Arrival S T)} {handed : Handover T}

/-- It dies before it has replied. -/
theorem GoesOn.unanswered (ht : Took d a t) (hown : handed.Of a.command)
    (hu : u.seen = t.seen ++ handed.seen) : GoesOn env d (a :: rest) u := by
  refine ⟨_, ?_, .unanswered hown⟩
  rw [hu, ht.seen, List.append_assoc]
  rfl

/-- It dies with nothing handed over. -/
theorem GoesOn.silent (ht : Took d a t) (hu : u.seen = t.seen) : GoesOn env d (a :: rest) u := by
  have hnone : Handover.Of a.command (none : Handover T) := nofun
  exact GoesOn.unanswered ht hnone (hu.trans (List.append_nil _).symm)

/-- It replies, and writes what the arm has handed over. -/
theorem GoesOn.answered (ht : Took d a t) (hown : handed.Of a.command) (msg : Msg)
    (writes : List (String × T))
    (hrun : (coordinatorProgram env).run a.world a.command d.process.toGlobals =
      (msg, u.process.toGlobals))
    (hwrites : List.Sublist writes (placed (stampDir env) handed.named))
    (hu : u.seen = t.seen ++ handed.seen ++ [.pipe (.sent msg)] ++ noted writes)
    (hv : GoesOn env u (if a.command = .shutdown then [] else rest) v) :
    GoesOn env d (a :: rest) v := by
  obtain ⟨seen, hseen, hhandled⟩ := hv
  refine ⟨_, ?_, .answered hown hrun hwrites hhandled⟩
  rw [hseen, hu, ht.seen]
  simp only [List.append_assoc]

/-- It replies to a command that is no job's. -/
theorem GoesOn.acknowledged {msg : Msg} (ht : Took d a t)
    (hrun : (coordinatorProgram env).run a.world a.command d.process.toGlobals =
      (msg, u.process.toGlobals))
    (hu : u.seen = t.seen ++ [.pipe (.sent msg)])
    (hv : GoesOn env u (if a.command = .shutdown then [] else rest) v) :
    GoesOn env d (a :: rest) v := by
  have hnone : Handover.Of a.command (none : Handover T) := nofun
  refine GoesOn.answered ht hnone msg [] hrun (List.nil_sublist _) ?_ hv
  rw [hu]
  simp [Handover.seen, noted]

/-- The arm of a command that is tried, with the work it puts off, and what follows it. -/
theorem arm_ends (htried : tried a.command = true) (ht : Took d a t)
    (hshutdown : a.command ≠ .shutdown) {m : Work S T Unit}
    (hm : ∀ {u : Desk S T}, u.deferred = .empty →
      Ends m u (fun _ v => GoesOn env u rest v) (fun _ v => GoesOn env u rest v)) :
    Ends (do
      respond env a.command
      afterReply env a.command
      m) t (fun _ v => GoesOn env d (a :: rest) v) (fun _ v => GoesOn env d (a :: rest) v) := by
  rw [ends_bind]
  refine (respond_ends htried t).mono ?_ ?_
  · intro _ u hu
    obtain ⟨handed, hreplied⟩ := hu
    have hglobals := hreplied.globals
    have hseen := hreplied.seen
    rw [ht.process] at hglobals hseen
    rw [ends_bind]
    refine (afterReply_ends hreplied.own (hreplied.deferred ht.deferred)).mono ?_ ?_
    · intro _ v hv
      obtain ⟨⟨writes, hwrites, hvseen⟩, hvdeferred, hvglobals⟩ := hv
      have hrest : ∀ w, GoesOn env v rest w → GoesOn env d (a :: rest) w := by
        intro w hw
        refine GoesOn.answered ht hreplied.own _ writes (Prod.ext rfl ?_) hwrites
          (hvseen.trans (congrArg (· ++ noted writes) hseen)) ?_
        · rw [hvglobals, hglobals]
          rfl
        · rw [if_neg hshutdown]
          exact hw
      exact (hm hvdeferred).mono (fun _ w hw => hrest w hw) fun _ w hw => hrest w hw
    · -- Collecting the last job fails: the process dies, having written nothing.
      intro exc v hv
      refine GoesOn.answered
        (u := { v with process := ⟨settle a.command u.process.toGlobals, a.world⟩ }) ht
        hreplied.own _ [] (Prod.ext rfl ?_) (List.nil_sublist _)
        ((hv.trans hseen).trans (List.append_nil _).symm) ⟨[], (List.append_nil _).symm, .stop⟩
      rw [hglobals]
      rfl
  · intro exc u hu
    obtain ⟨handed, hown, hseen⟩ := hu
    exact GoesOn.unanswered ht hown hseen

/-- The command that ends the loop. -/
theorem shutdown_ends (hcommand : a.command = .shutdown) (ht : Took d a t) :
    Ends (onPipe (send .ack) : Work S T Unit) t (fun _ u => GoesOn env d (a :: rest) u)
      (fun _ u => GoesOn env d (a :: rest) u) := by
  refine (send_noted .ack t).mono ?_ fun _ u hu => .silent ht hu
  intro _ u hu
  obtain ⟨hseen, -, hglobals⟩ := hu
  refine GoesOn.acknowledged ht ?_ hseen ⟨[], (List.append_nil _).symm, .stop⟩
  rw [hcommand, hglobals, ht.process]
  rfl

/-- A command the loop does not know, and what follows it. -/
theorem other_ends {cmd : String} (hcommand : a.command = .other cmd) (ht : Took d a t)
    {m : Work S T Unit}
    (hm : ∀ {u : Desk S T}, u.deferred = .empty →
      Ends m u (fun _ v => GoesOn env u rest v) (fun _ v => GoesOn env u rest v)) :
    Ends (do
      onPipe (send (.failed s!"unknown cmd {reprText cmd}" none))
      m) t (fun _ v => GoesOn env d (a :: rest) v) (fun _ v => GoesOn env d (a :: rest) v) := by
  rw [ends_bind]
  refine (send_noted _ t).mono ?_ fun _ u hu => .silent ht hu
  intro _ u hu
  obtain ⟨hseen, hdeferred, hglobals⟩ := hu
  have hrest : ∀ v, GoesOn env u rest v → GoesOn env d (a :: rest) v := by
    intro v hv
    refine GoesOn.acknowledged ht ?_ hseen ?_
    · rw [hcommand, hglobals, ht.process]
      rfl
    · rw [if_neg (by rw [hcommand]; exact nofun)]
      exact hv
  exact (hm (hdeferred.trans ht.deferred)).mono (fun _ v hv => hrest v hv) fun _ v hv => hrest v hv

/-- **The loop waits with nothing put off**, and all it writes is the last run's own. -/
theorem serve_ends (incoming : List (Arrival S T)) (hd : d.deferred = .empty) :
    Ends (serve env incoming) d (fun _ t => GoesOn env d incoming t)
      (fun _ t => GoesOn env d incoming t) := by
  induction incoming generalizing d with
  | nil =>
      unfold serve
      refine (await_ends hd).mono ?_ fun _ _ h => h.elim
      intro _ t ht
      exact ⟨[.waits .empty], by rw [ht], .waiting⟩
  | cons a rest ih =>
      unfold serve
      rw [ends_bind]
      refine (await_ends hd).mono ?_ fun _ _ h => h.elim
      intro _ s hs
      rw [ends_bind]
      refine (receive_ends a s).mono ?_ ?_
      · intro _ t ht
        have htook : Took d a t := by
          rw [ht, hs]
          exact ⟨List.append_assoc .., rfl, hd⟩
        split
        · rename_i hcommand
          exact shutdown_ends hcommand htook
        · rename_i cmd hcommand
          exact other_ends hcommand htook fun hu => ih hu
        · rename_i hshutdown hother
          exact arm_ends (tried_of_ne hshutdown hother) htook hshutdown fun hu => ih hu
      · intro _ t ht
        refine ⟨[.waits .empty], ?_, .waiting⟩
        rw [ht, hs]

/-- What may be seen of a process from its start. -/
inductive Opens (env : Env S) (incoming : List (Arrival S T)) : List (Seen T) → Prop
  | silent : Opens env incoming []
  | fatal (error : String) : Opens env incoming [.pipe (.sent (.fatal error))]
  | hello {seen : List (Seen T)} : Handled env .fresh incoming seen →
      Opens env incoming (.pipe (.sent .hello) :: seen)

/-- Where something may go wrong, and nothing else happens. -/
theorem fault_aside (d : Desk S T) :
    Ends (within fault : Work S T Unit) d
      (fun _ t => Aside d t ∧ t.process.toGlobals = d.process.toGlobals)
      (fun _ t => t.seen = d.seen) := by
  rw [ends_within]
  refine fault_ends.mono ?_ fun _ _ _ => rfl
  intro _ p hp
  obtain ⟨w, rfl⟩ := hp
  exact ⟨⟨rfl, rfl⟩, rfl⟩

/-- From the hello on. -/
theorem greeted_opens {incoming : List (Arrival S T)} (hseen : d.seen = [.pipe (.sent .hello)])
    (hfree : d.deferred = .empty) (hfresh : d.process.toGlobals = .fresh) :
    Ends (do
      within fault
      serve env incoming) d (fun _ t => Opens env incoming t.seen)
      (fun _ t => Opens env incoming t.seen) := by
  rw [ends_bind]
  refine (fault_aside d).mono ?_ ?_
  · intro _ t ht
    obtain ⟨⟨hdeferred, hkept⟩, hglobals⟩ := ht
    have hopens : ∀ u, GoesOn env t incoming u → Opens env incoming u.seen := by
      intro u hu
      obtain ⟨seen, hu, hhandled⟩ := hu
      rw [hu, hkept, hseen]
      rw [hglobals, hfresh] at hhandled
      exact .hello hhandled
    exact (serve_ends incoming (hdeferred.trans hfree)).mono (fun _ u hu => hopens u hu)
      fun _ u hu => hopens u hu
  · intro _ t ht
    rw [ht, hseen]
    exact .hello .stop

/-- **In every run, whatever fails.** -/
theorem coordinatorMain_opens (env : Env S) (incoming : List (Arrival S T)) (world : World S)
    (tables : S.Task → QuantumBundle S → Option Int → Tables T) :
    Opens env incoming ((coordinatorMain env incoming).outcome (started world tables)).2.seen := by
  refine Ends.state (P := fun t : Desk S T => Opens env incoming t.seen) ?_
  have hsilent : ∀ t : Desk S T, t.seen = [] → Opens env incoming t.seen := by
    intro t ht
    rw [ht]
    exact .silent
  unfold coordinatorMain
  rw [ends_bind]
  refine (fault_aside _).mono ?_ fun _ t ht => hsilent t ht
  intro _ d₁ h₁
  obtain ⟨⟨hdeferred₁, hseen₁⟩, hglobals₁⟩ := h₁
  rw [ends_bind, ends_onPipe]
  refine checkedCalibConfig_ends.mono ?_ ?_
  · intro go s hs
    obtain ⟨hglobals₂, hgo⟩ := hs
    cases go with
    | false =>
        obtain ⟨error, herror⟩ := hgo
        show Opens env incoming (d₁.seen ++ s.events.map Seen.pipe)
        rw [herror, hseen₁]
        exact .fatal error
    | true =>
        have hevents : s.events = [] := hgo
        have hseen₂ : d₁.seen ++ s.events.map Seen.pipe = [] := by
          rw [hseen₁, hevents]
          rfl
        show Ends (within fault >>= _) _ _ _
        rw [ends_bind]
        refine (fault_aside _).mono ?_ fun _ t ht => hsilent t (ht.trans hseen₂)
        intro _ d₃ h₃
        obtain ⟨⟨hdeferred₃, hseen₃⟩, hglobals₃⟩ := h₃
        rw [ends_bind]
        refine (send_noted .hello d₃).mono ?_ fun _ t ht => hsilent t (ht.trans (hseen₃.trans hseen₂))
        intro _ d₄ h₄
        obtain ⟨hseen₄, hdeferred₄, hglobals₄⟩ := h₄
        have hhello : d₄.seen = [.pipe (.sent .hello)] := by
          rw [hseen₄, hseen₃, hseen₂]
          rfl
        refine greeted_opens hhello ?_ ?_
        · rw [hdeferred₄, hdeferred₃]
          exact hdeferred₁
        · rw [hglobals₄, hglobals₃]
          exact hglobals₂.trans hglobals₁
  · intro _ s hs
    refine hsilent _ ?_
    show d₁.seen ++ s.events.map Seen.pipe = []
    rw [hs, hseen₁]
    rfl

/-! ### The same as without tables

What passes over the pipe is part of what an onlooker sees, so the plain model's theorems apply to
it: a run of this process, with all that concerns tables left out, is one the plain process may
have.
-/

/-- What of it passed over the pipe. -/
def piped (seen : List (Seen T)) : List PipeEvent :=
  seen.filterMap fun e => match e with
    | .pipe event => some event
    | _ => none

/-- What passed over the pipe was seen. -/
theorem mem_piped {event : PipeEvent} {seen : List (Seen T)} (h : .pipe event ∈ seen) :
    event ∈ piped seen := List.mem_filterMap.mpr ⟨_, h, rfl⟩

/-- It is left out piece by piece. -/
theorem piped_append (seen seen' : List (Seen T)) :
    piped (seen ++ seen') = piped seen ++ piped seen' := List.filterMap_append

/-- A run that hands its tables over is not on the pipe. -/
theorem piped_handed (handed : Handover T) : piped handed.seen = [] := by
  cases handed with
  | none => rfl
  | some job => rfl

/-- Nor is a file that is put in place. -/
theorem piped_noted (writes : List (String × T)) : piped (noted writes) = [] := by
  induction writes with
  | nil => rfl
  | cons f rest ih => exact ih

/-- The arrivals of the plain model. -/
def plain (incoming : List (Arrival S T)) : List (Command × World S) :=
  incoming.map fun a => (a.command, a.world)

/-- A run of this process, over the pipe, is one of the plain process. -/
theorem Handled.served {mem : Globals S} {incoming : List (Arrival S T)} {seen : List (Seen T)}
    (h : Handled env mem incoming seen) : Served env mem (plain incoming) (piped seen) := by
  induction h with
  | stop => exact .stop
  | waiting => exact .stop
  | @unanswered mem a rest handed hown =>
      have hpiped : piped (.waits .empty :: .pipe (.received a.command) :: handed.seen) =
          [.received a.command] := congrArg (PipeEvent.received a.command :: ·) (piped_handed handed)
      rw [hpiped]
      exact .unanswered
  | @answered mem mem' a rest msg handed writes seen hown hrun hwrites hseen ih =>
      have hpiped : piped ([.waits .empty, .pipe (.received a.command)] ++ handed.seen ++
          [.pipe (.sent msg)] ++ noted writes ++ seen) =
          .received a.command :: .sent msg :: piped seen := by
        rw [piped_append, piped_append, piped_append, piped_append, piped_handed, piped_noted]
        rfl
      rw [hpiped]
      refine .answered hrun ?_
      have hplain : (if a.command = .shutdown then [] else plain rest) =
          plain (if a.command = .shutdown then [] else rest) := by
        split <;> rfl
      show Served env mem' (if a.command = .shutdown then [] else plain rest) _
      rw [hplain]
      exact ih

/-- **Over the pipe a process with tables speaks as one without.** -/
theorem coordinatorMain_speaks (env : Env S) (incoming : List (Arrival S T)) (world : World S)
    (tables : S.Task → QuantumBundle S → Option Int → Tables T) :
    Speaks env (plain incoming)
      (piped ((coordinatorMain env incoming).outcome (started world tables)).2.seen) := by
  have h := coordinatorMain_opens env incoming world tables
  generalize ((coordinatorMain env incoming).outcome (started world tables)).2.seen = seen at h ⊢
  cases h with
  | silent => exact .silent
  | fatal error => exact .fatal error
  | hello h => exact .hello h.served

end Desk

end DonutServer
