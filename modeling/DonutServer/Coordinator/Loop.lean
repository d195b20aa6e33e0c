/-
The command loop, and what it puts on the pipe.

`coordinatorMain` runs from the start of the process to its end, for any list of
commands that arrive, any state of the world each arrives in and anything that goes
wrong.  Its pipe carries no numbers, so all a peer can rely on is the order of what
passes over it.  `Served` says which orders there are: they are those of a child that
answers with `coordinatorProgram`, one command after the other.
-/
import DonutServer.Coordinator.Job

namespace DonutServer

open Effect

variable {S : Stack} (env : Env S)

/-! ### The process and its pipe

The pipe is seen from the child's side.  An event is noted when the call that makes it returns: a
send that raises has written nothing, because the message is pickled whole before its first byte is
written.
-/

/-- What passes over the pipe, seen from the child. -/
inductive PipeEvent
  | received (command : Command)
  | sent (msg : Msg)
  deriving DecidableEq

/-- A process and what has passed over its pipe so far. -/
structure Serving (S : Stack) where
  process : Process S
  events : List PipeEvent

/-- Code of the process that may use the pipe. -/
abbrev Loop (S : Stack) := Effect (Serving S) Exn

/-- Code that does not use the pipe. -/
def offPipe {α : Type} (m : Code S α) : Loop S α :=
  ExceptT.mk fun s =>
    let r := m.outcome s.process
    (r.1, { s with process := r.2 })

theorem ends_offPipe {α : Type} {m : Code S α} {s : Serving S} {Q : α → Serving S → Prop}
    {E : Exn → Serving S → Prop} : Ends (offPipe m) s Q E ↔
      Ends m s.process (fun a p => Q a { s with process := p })
        (fun exc p => E exc { s with process := p }) := by
  have hrun : (offPipe m).outcome s =
      ((m.outcome s.process).1, { s with process := (m.outcome s.process).2 }) := rfl
  unfold Ends
  rw [hrun]
  rcases m.outcome s.process with ⟨_ | _, p⟩ <;> rfl

/-- `conn.send`: what fails, fails before anything is written. -/
def send (msg : Msg) : Loop S Unit := do
  offPipe fault
  modify fun s => { s with events := s.events ++ [.sent msg] }

/-- `conn.recv`, of a command that is there. -/
def receiveCommand (command : Command) (world : World S) : Loop S Unit := do
  offPipe fault
  modify fun s =>
    { process := { s.process with world := world }, events := s.events ++ [.received command] }

/-! ### The loop

As in the source: one first message, which is either a hello or the reason there will be none, and
then the commands one after another.  The loop ends when the pipe is closed, when it is told to
shut down, or when something raises that no arm has caught.
-/

/-- The arm of a command that is tried. -/
def respond (command : Command) : Loop S Unit :=
  tryCatch (do
      let msg ← offPipe (body env command)
      send msg)
    fun exc => send (failure command exc)

/-- What follows the reply to a job. -/
def afterReply (command : Command) : Loop S Unit :=
  if defers command then offPipe runDeferred else pure ()

/-- The loop, over the commands that arrive before the pipe is closed. -/
def serve : List (Command × World S) → Loop S Unit
  | [] => pure ()
  | (command, world) :: rest => do
      receiveCommand command world
      match command with
      | .shutdown => send .ack
      | .other cmd => do
          send (.failed s!"unknown cmd {PyText.reprText cmd}" none)
          serve rest
      | _ => do
          respond env command
          afterReply command
          serve rest

/-- `check_calib_config`, and the fatal message of a backend that cannot work. -/
def checkedCalibConfig : Loop S Bool :=
  tryCatch (do
      offPipe (external (checkCalibConfig env))
      pure true)
    fun exc =>
      if exc.cls = .calibConfigError then do
        send (.fatal exc.text)
        pure false
      else throw exc

/-- `coordinator_main`. -/
def coordinatorMain (incoming : List (Command × World S)) : Loop S Unit := do
  offPipe fault
  if ← checkedCalibConfig env then
    offPipe fault
    send .hello
    offPipe fault
    serve env incoming

/-! ### The orders there are

`Served` is the language of the pipe after a hello: a command is taken in and answered, and with
the answer the memory becomes what `coordinatorProgram` says it does.  It may stop between any two
events.
-/

/-- What may pass over the pipe while a child with this memory has these commands before
it.  It may end anywhere, for a process can always die. -/
inductive Served (env : Env S) : Globals S → List (Command × World S) → List PipeEvent → Prop
  | stop {mem : Globals S} {incoming : List (Command × World S)} : Served env mem incoming []
  | unanswered {mem : Globals S} {command : Command} {world : World S}
      {rest : List (Command × World S)} :
      Served env mem ((command, world) :: rest) [.received command]
  | answered {mem : Globals S} {command : Command} {world : World S}
      {rest : List (Command × World S)} {msg : Msg} {mem' : Globals S} {events : List PipeEvent} :
      (coordinatorProgram env).run world command mem = (msg, mem') →
      Served env mem' (if command = .shutdown then [] else rest) events →
      Served env mem ((command, world) :: rest) (.received command :: .sent msg :: events)

/-- A whole run's messages: one first message, and after a hello what `Served` allows. -/
inductive Speaks (env : Env S) (incoming : List (Command × World S)) : List PipeEvent → Prop
  | silent : Speaks env incoming []
  | fatal (error : String) : Speaks env incoming [.sent (.fatal error)]
  | hello {events : List PipeEvent} : Served env .fresh incoming events →
      Speaks env incoming (.sent .hello :: events)

/-! ### What each step of the loop leaves

The steps of the loop, each with what it has put on the pipe by the time it ends, in whichever way
it ends.
-/

variable {env : Env S} {s : Serving S}

/-- A send writes its message or raises, and leaves the globals alone. -/
theorem send_ends (msg : Msg) :
    Ends (send msg) s
      (fun _ t => t.events = s.events ++ [.sent msg] ∧ t.process.toGlobals = s.process.toGlobals)
      (fun _ t => t.events = s.events) := by
  unfold send
  rw [ends_bind, ends_offPipe]
  refine fault_ends.mono ?_ ?_
  · intro _ _ h
    obtain ⟨w, rfl⟩ := h
    rw [ends_modify]
    exact ⟨rfl, rfl⟩
  · intro _ _ h
    obtain ⟨w, rfl⟩ := h
    rfl

/-- An arm's message, by what its body and the sending come to. -/
theorem attempt_of_tried {command : Command} (htried : tried command = true) (p : Process S) :
    attempt env command p = match (body env command).outcome p with
      | (.error exc, q) => (failure command exc, q)
      | (.ok msg, q) => match (fault : Code S Unit).outcome q with
        | (.error exc, q') => (failure command exc, q')
        | (.ok _, q') => (msg, q') := by
  unfold attempt
  simp only [htried, if_true, outcome_bind]
  rcases (body env command).outcome p with ⟨exc | msg, q⟩
  · rfl
  · dsimp only
    rcases (fault : Code S Unit).outcome q with ⟨exc | _, q'⟩ <;> rfl

/-- **An arm sends one message**, the one `attempt` computes, or raises without a word. -/
theorem respond_ends {command : Command} (htried : tried command = true) :
    Ends (respond env command) s
      (fun _ t => t.events = s.events ++ [.sent (attempt env command s.process).1] ∧
        t.process.toGlobals = (attempt env command s.process).2.toGlobals)
      (fun _ t => t.events = s.events) := by
  rw [attempt_of_tried htried]
  unfold respond
  rw [ends_tryCatch, ends_bind, ends_offPipe]
  unfold Ends
  rcases (body env command).outcome s.process with ⟨exc | msg, q⟩
  · exact send_ends (s := { s with process := q }) (failure command exc)
  · show Ends (send msg) { s with process := q } _ _
    unfold send
    rw [ends_bind, ends_offPipe]
    unfold Ends
    dsimp only
    rcases (fault : Code S Unit).outcome q with ⟨exc | _, q'⟩
    · exact send_ends (s := { s with process := q' }) (failure command exc)
    · exact ⟨rfl, rfl⟩

/-- Taking the next command in. -/
theorem receiveCommand_ends (command : Command) (world : World S) :
    Ends (receiveCommand command world) s
      (fun _ t => t = ⟨⟨s.process.toGlobals, world⟩, s.events ++ [.received command]⟩)
      (fun _ t => t.events = s.events) := by
  unfold receiveCommand
  rw [ends_bind, ends_offPipe]
  refine fault_ends.mono ?_ ?_
  · intro _ _ h
    obtain ⟨w, rfl⟩ := h
    rw [ends_modify]
  · intro _ _ h
    obtain ⟨w, rfl⟩ := h
    rfl

/-- The work put off leaves the pipe alone, and nothing waiting. -/
theorem runDeferred_ends {p : Process S} :
    Ends (runDeferred : Code S Unit) p
      (fun _ q => q.toGlobals = { p.toGlobals with deferred := none }) (fun _ _ => True) := by
  have hswallow : ∀ q : Process S,
      Ends (tryCatch fault fun _ => pure () : Code S Unit) q
        (fun _ t => t.toGlobals = q.toGlobals) (fun _ _ => True) := by
    intro q
    rw [ends_tryCatch]
    refine fault_ends.mono ?_ ?_
    · intro _ _ h
      obtain ⟨w, rfl⟩ := h
      rfl
    · intro _ _ h
      obtain ⟨w, rfl⟩ := h
      rfl
  unfold runDeferred
  rw [ends_bind, ends_get, ends_bind, ends_modify, ends_bind]
  refine fault_ends.mono ?_ (fun _ _ _ => trivial)
  intro _ _ h
  obtain ⟨w, rfl⟩ := h
  split
  · rfl
  · rw [ends_bind]
    refine (hswallow _).mono ?_ (fun _ _ _ => trivial)
    intro _ q hq
    refine (hswallow q).mono ?_ (fun _ _ _ => trivial)
    intro _ t ht
    rw [ht, hq]

/-! ### Every run speaks in turn

By induction on the commands that arrive.  What the induction carries is that everything that
passes from some point on is allowed from there, so each round is put in front of what comes after
it.
-/

/-- What passes over the pipe from here on is allowed. -/
def Continues (env : Env S) (s : Serving S) (incoming : List (Command × World S))
    (t : Serving S) : Prop :=
  ∃ events, t.events = s.events ++ events ∧ Served env s.process.toGlobals incoming events

/-- A command that was not answered. -/
theorem Continues.unanswered {command : Command} {world : World S}
    {rest : List (Command × World S)} {t : Serving S}
    (h : t.events = s.events ++ [.received command]) :
    Continues env s ((command, world) :: rest) t := ⟨_, h, .unanswered⟩

/-- A command that was answered, and what came after it. -/
theorem Continues.answered {command : Command} {world : World S} {rest : List (Command × World S)}
    {msg : Msg} {t u : Serving S}
    (hrun : (coordinatorProgram env).run world command s.process.toGlobals =
      (msg, t.process.toGlobals))
    (ht : t.events = s.events ++ [.received command] ++ [.sent msg])
    (hu : Continues env t (if command = .shutdown then [] else rest) u) :
    Continues env s ((command, world) :: rest) u := by
  obtain ⟨events, hevents, hserved⟩ := hu
  refine ⟨_, ?_, .answered hrun hserved⟩
  rw [hevents, ht]
  simp

/-- The work put off, where there is any, as `coordinatorProgram` accounts for it. -/
theorem afterReply_ends {command : Command} {t : Serving S} :
    Ends (afterReply command) t
      (fun _ u => u.events = t.events ∧ u.process.toGlobals = settle command t.process.toGlobals)
      (fun _ u => u.events = t.events) := by
  unfold afterReply settle
  split
  · rw [ends_offPipe]
    exact runDeferred_ends.mono (fun _ _ h => ⟨rfl, h⟩) (fun _ _ _ => rfl)
  · exact ⟨rfl, rfl⟩

/-- **The loop answers each command once before it takes the next.** -/
theorem serve_ends (incoming : List (Command × World S)) (s : Serving S) :
    Ends (serve env incoming) s (fun _ t => Continues env s incoming t)
      (fun _ t => Continues env s incoming t) := by
  induction incoming generalizing s with
  | nil => exact ⟨[], (List.append_nil _).symm, .stop⟩
  | cons next rest ih =>
      obtain ⟨command, world⟩ := next
      unfold serve
      rw [ends_bind]
      refine (receiveCommand_ends command world).mono ?_ ?_
      · intro _ _ heq
        subst heq
        split
        · refine (send_ends .ack).mono ?_ (fun _ t ht => .unanswered ht)
          intro _ t hends
          obtain ⟨hevents, hglobals⟩ := hends
          refine .answered (t := t) (Prod.ext rfl hglobals.symm) hevents ?_
          exact ⟨[], (List.append_nil _).symm, .stop⟩
        · rename_i cmd
          rw [ends_bind]
          refine (send_ends _).mono ?_ (fun _ t ht => .unanswered ht)
          intro _ t hends
          obtain ⟨hevents, hglobals⟩ := hends
          have hanswered : ∀ u, Continues env t rest u →
              Continues env s ((.other cmd, world) :: rest) u := by
            intro u hu
            exact .answered (t := t) (Prod.ext rfl hglobals.symm) hevents hu
          exact (ih t).mono (fun _ u hu => hanswered u hu) (fun _ u hu => hanswered u hu)
        · rename_i hshutdown hother
          rw [ends_bind]
          refine (respond_ends (tried_of_ne hshutdown hother)).mono ?_ (fun _ t ht => .unanswered ht)
          intro _ t hends
          obtain ⟨hevents, hglobals⟩ := hends
          rw [ends_bind]
          refine afterReply_ends.mono ?_ ?_
          · intro _ u hends
            obtain ⟨hu, hmem⟩ := hends
            rw [hglobals] at hmem
            have hanswered : ∀ v, Continues env u rest v →
                Continues env s ((command, world) :: rest) v := by
              intro v hv
              refine .answered (t := u) (Prod.ext rfl hmem.symm) (hu.trans hevents) ?_
              rw [if_neg hshutdown]
              exact hv
            exact (ih u).mono (fun _ v hv => hanswered v hv) (fun _ v hv => hanswered v hv)
          · intro exc u hu
            refine ⟨[.received command, .sent _], ?_, .answered rfl .stop⟩
            rw [hu, hevents, List.append_assoc]
            rfl
      · exact fun _ t ht => ⟨[], by rw [ht, List.append_nil], .stop⟩

/-- What `check_calib_config` comes to: go on, or a fatal message, or an exception. -/
theorem checkedCalibConfig_ends :
    Ends (checkedCalibConfig env) s
      (fun go t => t.process.toGlobals = s.process.toGlobals ∧
        if go then t.events = s.events else ∃ error, t.events = s.events ++ [.sent (.fatal error)])
      (fun _ t => t.events = s.events) := by
  unfold checkedCalibConfig
  rw [ends_tryCatch, ends_bind, ends_offPipe]
  refine ends_external ?_ ?_
  · exact fun _ _ _ => ⟨rfl, rfl⟩
  · intro exc w
    split
    · refine Ends.bind (send_ends _) ?_
      intro _ t hends
      obtain ⟨hevents, hglobals⟩ := hends
      exact ⟨hglobals, exc.text, hevents⟩
    · rfl

/-- **In every run, one first message, and then one answer to each command in turn.** -/
theorem coordinatorMain_speaks (env : Env S) (incoming : List (Command × World S))
    (world : World S) :
    Speaks env incoming ((coordinatorMain env incoming).outcome ⟨⟨.fresh, world⟩, []⟩).2.events := by
  have hquiet : ∀ s : Serving S, Ends (offPipe fault : Loop S Unit) s
      (fun _ t => t.process.toGlobals = s.process.toGlobals ∧ t.events = s.events)
      (fun _ t => t.events = s.events) := by
    intro s
    rw [ends_offPipe]
    refine fault_ends.mono ?_ ?_
    · intro _ _ h
      obtain ⟨w, rfl⟩ := h
      exact ⟨rfl, rfl⟩
    · intro _ _ h
      obtain ⟨w, rfl⟩ := h
      rfl
  refine Ends.state (P := fun t : Serving S => Speaks env incoming t.events) ?_
  have hsilent : ∀ t : Serving S, t.events = [] → Speaks env incoming t.events := by
    intro t ht
    rw [ht]
    exact .silent
  unfold coordinatorMain
  rw [ends_bind]
  refine (hquiet _).mono ?_ (fun _ t ht => hsilent t ht)
  intro _ s₁ hends
  obtain ⟨hglobals₁, hevents₁⟩ := hends
  rw [ends_bind]
  refine checkedCalibConfig_ends.mono ?_ (fun _ t ht => hsilent t (ht.trans hevents₁))
  intro go s₂ hends
  obtain ⟨hglobals₂, hgo⟩ := hends
  cases go with
  | false =>
      obtain ⟨error, herror⟩ := hgo
      show Speaks env incoming s₂.events
      rw [herror, hevents₁]
      exact .fatal error
  | true =>
      have hevents₂ : s₂.events = [] := Eq.trans hgo hevents₁
      show Ends (offPipe fault >>= _) s₂ _ _
      rw [ends_bind]
      refine (hquiet s₂).mono ?_ (fun _ t ht => hsilent t (ht.trans hevents₂))
      intro _ s₃ hends
      obtain ⟨hglobals₃, hevents₃⟩ := hends
      rw [ends_bind]
      refine (send_ends .hello).mono ?_ (fun _ t ht => hsilent t (ht.trans (hevents₃.trans hevents₂)))
      intro _ s₄ hends
      obtain ⟨hevents₄, hglobals₄⟩ := hends
      have hhello : s₄.events = [.sent .hello] := by rw [hevents₄, hevents₃, hevents₂]; rfl
      have hfresh : s₄.process.toGlobals = .fresh := by
        rw [hglobals₄, hglobals₃, hglobals₂, hglobals₁]
      rw [ends_bind]
      refine (hquiet s₄).mono ?_ ?_
      · intro _ s₅ hends
        obtain ⟨hglobals₅, hevents₅⟩ := hends
        have hspeaks : ∀ t : Serving S, Continues env s₅ incoming t → Speaks env incoming t.events := by
          intro t hends
          obtain ⟨events, hevents, hserved⟩ := hends
          rw [hevents, hevents₅, hhello]
          rw [hglobals₅, hfresh] at hserved
          exact .hello hserved
        exact (serve_ends incoming s₅).mono (fun _ t ht => hspeaks t ht) (fun _ t ht => hspeaks t ht)
      · intro exc t ht
        rw [ht, hhello]
        exact .hello .stop

/-! ### Replies

What a peer relies on follows from the order alone: the answer to a command is the next message
after it was taken in.
-/

/-- A message that answers a command. -/
def Msg.isReply : Msg → Bool
  | .hello => false
  | .fatal _ => false
  | _ => true

/-- Whatever becomes of a command, its answer is one. -/
theorem attempt_isReply (env : Env S) (command : Command) (p : Process S) :
    (attempt env command p).1.isReply = true := by
  have hfailure : ∀ exc, (failure command exc).isReply = true := by
    intro exc
    cases command <;> rfl
  have hbody : Ends (body env command) p (fun msg _ => msg.isReply = true) (fun _ _ => True) := by
    cases command with
    | prepare c =>
        show Ends (ensurePrepared env c >>= _) p _ _
        rw [ends_bind]
        exact .of_forall (fun _ _ => rfl) (fun _ _ => trivial)
    | resolve directory =>
        show Ends (get >>= fun p : Process S => external (p.world.headers directory) >>= _) p _ _
        rw [ends_bind, ends_get, ends_bind]
        exact .of_forall (fun _ _ => rfl) (fun _ _ => trivial)
    | push jobId layout numWorkers key =>
        show Ends (activateFor env key >>= fun _ => runPush env jobId layout numWorkers >>= _) p _ _
        rw [ends_bind]
        refine .of_forall (fun _ t => ?_) (fun _ _ => trivial)
        rw [ends_bind]
        exact .of_forall (fun _ _ => rfl) (fun _ _ => trivial)
    | ingest jobId directory numWorkers key =>
        show Ends (activateFor env key >>= fun _ => runIngest env jobId directory numWorkers >>= _)
          p _ _
        rw [ends_bind]
        refine .of_forall (fun _ t => ?_) (fun _ _ => trivial)
        rw [ends_bind]
        exact .of_forall (fun _ _ => rfl) (fun _ _ => trivial)
    | shutdown => rfl
    | other cmd => rfl
  exact attempt_of_ends (P := fun msg _ => msg.isReply = true) hbody (fun _ _ _ h => h)
    (fun _ exc _ _ _ => hfailure exc) (fun exc _ _ => hfailure exc)

/-- Each command is received and then answered, once, before the next is received; the
last may still wait for its answer. -/
inductive OneReplyEach : List PipeEvent → Prop
  | done : OneReplyEach []
  | waiting (command : Command) : OneReplyEach [.received command]
  | replied (command : Command) {msg : Msg} {events : List PipeEvent} :
      msg.isReply = true → OneReplyEach events →
      OneReplyEach (.received command :: .sent msg :: events)

theorem Served.oneReplyEach {mem : Globals S} {incoming : List (Command × World S)}
    {events : List PipeEvent} (h : Served env mem incoming events) : OneReplyEach events := by
  induction h with
  | stop => exact .done
  | unanswered => exact .waiting _
  | @answered mem command world _ msg _ _ hrun _ ih =>
      have hmsg : (attempt env command ⟨mem, world⟩).1 = msg := congrArg Prod.fst hrun
      refine .replied command ?_ ih
      rw [← hmsg]
      exact attempt_isReply env command _

/-- One first message, if any, and only after a hello commands, each answered once. -/
def SpeaksInTurn (events : List PipeEvent) : Prop :=
  events = [] ∨ (∃ error, events = [.sent (.fatal error)]) ∨
    ∃ rest, events = .sent .hello :: rest ∧ OneReplyEach rest

theorem Speaks.inTurn {incoming : List (Command × World S)} {events : List PipeEvent}
    (h : Speaks env incoming events) : SpeaksInTurn events := by
  cases h with
  | silent => exact Or.inl rfl
  | fatal error => exact Or.inr (Or.inl ⟨error, rfl⟩)
  | hello hserved => exact Or.inr (Or.inr ⟨_, rfl, hserved.oneReplyEach⟩)

end DonutServer
