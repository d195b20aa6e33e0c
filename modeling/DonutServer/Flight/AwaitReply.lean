/-
One wait for a reply, poll by poll.

`_await_reply` asks three sources in turn: the pipe, which it looks at together with the
sentinel, the exit status of the child, and the clock.  Between any two of these the child
may write, close its ends, or exit, and processes it forked may keep copies of the ends
open.  The flight takes one turn of the loop as a single step; here the turn is taken apart.

A reply is lost in one way only: it comes in after the last look at the pipe, and the
child is gone, or the deadline past, by the time that is looked at.
-/
import DonutServer.Flight.Step

namespace DonutServer.AwaitReply

/-! ### The pipe, the child and the loop

The state is what the three sources would tell: how much of the reply is in the pipe, which copies
of its ends are open, and how the child exited.  The loop looks at one of them in each of its
steps, and the child may act in between.
-/

/-- A message as it goes over the pipe, its length ahead of it. -/
structure Frame (α : Type) where
  reply : α
  size : Nat
  size_pos : 0 < size

/-- The bytes of the length. -/
def headerSize : Nat := 4

/-- Where the loop is: about to look at `_abort`, in `mp_wait`, in `recv`, past a poll that
did not name the pipe, past `is_alive`, or at its end. -/
inductive Loop (α : Type)
  | top
  | polling
  | receiving
  | polled
  | checked
  | returned (reply : α)
  | raised (reason : String)
  deriving DecidableEq

/-- The loop is past a poll that did not name the pipe, and not yet past `is_alive`. -/
def Loop.pastPoll {α : Type} : Loop α → Bool
  | .polled => true
  | _ => false

/-- It has raised `CoordinatorLost`. -/
def Loop.gaveUp {α : Type} : Loop α → Bool
  | .raised _ => true
  | _ => false

/-- How much of the reply has been written, which ends the child has open, how it exited,
and how many processes forked from it have copies of both ends. -/
structure Wait (α : Type) where
  loop : Loop α
  sent : Nat
  pipeOpen : Bool
  sentinelOpen : Bool
  exitcode : Option Int
  workers : Nat

inductive Act
  | look
  | poll
  | recv
  | isAlive
  | deadline (passed : Bool)
  | write (bytes : Nat)
  | fork
  | release
  | closePipe
  | closeSentinel
  | exit (code : Int)
  deriving DecidableEq

/-- The step is one of the loop. -/
def Act.ofLoop : Act → Bool
  | .look | .poll | .recv | .isAlive | .deadline _ => true
  | _ => false

namespace Wait

variable {α : Type}

/-- Every copy of the child's end of the pipe is closed. -/
def eof (s : Wait α) : Bool := !s.pipeOpen && s.workers = 0

/-- `mp_wait` names the pipe: there is something to read, or nobody left to write. -/
def readable (s : Wait α) : Bool := 0 < s.sent || s.eof

/-- What `recv` raises at the end of a pipe. -/
def eofDetail (s : Wait α) : String :=
  if s.sent = 0 ∨ s.sent = headerSize then "EOFError"
  else "OSError: got end of file during message"

/-- What can happen next.  There is no shutdown; a sentinel that is ready by itself only
makes `mp_wait` come back early. -/
def next (frame : Frame α) (timeout : Option Nat) (s : Wait α) (a : Act) : Option (Wait α) :=
  match a, s.loop with
  | .look, .top => some { s with loop := .polling }
  | .poll, .polling => some { s with loop := if s.readable then .receiving else .polled }
  | .recv, .receiving =>
      if s.sent = frame.size then some { s with loop := .returned frame.reply }
      else if s.eof then some { s with loop := .raised s!"pipe closed ({s.eofDetail})" }
      else none
  | .isAlive, .polled =>
      match s.exitcode with
      | none => some { s with loop := .checked }
      | some code => some { s with loop := .raised s!"coordinator exited (exitcode={code})" }
  | .deadline false, .checked => some { s with loop := .top }
  | .deadline true, .checked =>
      timeout.map fun seconds => { s with loop := .raised s!"no reply within {seconds}s" }
  | .write bytes, _ =>
      if s.pipeOpen ∧ 0 < bytes ∧ s.sent + bytes ≤ frame.size then
        some { s with sent := s.sent + bytes }
      else none
  | .fork, _ =>
      -- Whoever has copies of both ends hands them on.
      if (s.pipeOpen ∧ s.sentinelOpen) ∨ 0 < s.workers then
        some { s with workers := s.workers + 1 }
      else none
  | .release, _ => if 0 < s.workers then some { s with workers := s.workers - 1 } else none
  | .closePipe, _ => some { s with pipeOpen := false }
  | .closeSentinel, _ => some { s with sentinelOpen := false }
  | .exit code, _ =>
      if s.exitcode = none ∧ s.pipeOpen = false ∧ s.sentinelOpen = false then
        some { s with exitcode := some code }
      else none
  | _, _ => none

/-- What a step does. -/
inductive Moves (frame : Frame α) (timeout : Option Nat) (s : Wait α) : Act → Wait α → Prop
  | look (hloop : s.loop = .top) : Moves frame timeout s .look { s with loop := .polling }
  | named (hloop : s.loop = .polling) (hread : s.readable = true) :
      Moves frame timeout s .poll { s with loop := .receiving }
  | notNamed (hloop : s.loop = .polling) (hread : s.readable = false) :
      Moves frame timeout s .poll { s with loop := .polled }
  | received (hloop : s.loop = .receiving) (hsent : s.sent = frame.size) :
      Moves frame timeout s .recv { s with loop := .returned frame.reply }
  | ended (hloop : s.loop = .receiving) (hsent : s.sent ≠ frame.size) (heof : s.eof = true) :
      Moves frame timeout s .recv { s with loop := .raised s!"pipe closed ({s.eofDetail})" }
  | alive (hloop : s.loop = .polled) (hexit : s.exitcode = none) :
      Moves frame timeout s .isAlive { s with loop := .checked }
  | exited (code : Int) (hloop : s.loop = .polled) (hexit : s.exitcode = some code) :
      Moves frame timeout s .isAlive
        { s with loop := .raised s!"coordinator exited (exitcode={code})" }
  | again (hloop : s.loop = .checked) :
      Moves frame timeout s (.deadline false) { s with loop := .top }
  | expired (seconds : Nat) (hloop : s.loop = .checked) (htimeout : timeout = some seconds) :
      Moves frame timeout s (.deadline true)
        { s with loop := .raised s!"no reply within {seconds}s" }
  | write (bytes : Nat) (hopen : s.pipeOpen = true) (hpos : 0 < bytes)
      (hfits : s.sent + bytes ≤ frame.size) :
      Moves frame timeout s (.write bytes) { s with sent := s.sent + bytes }
  | fork (hheld : (s.pipeOpen = true ∧ s.sentinelOpen = true) ∨ 0 < s.workers) :
      Moves frame timeout s .fork { s with workers := s.workers + 1 }
  | release (hpos : 0 < s.workers) :
      Moves frame timeout s .release { s with workers := s.workers - 1 }
  | closePipe : Moves frame timeout s .closePipe { s with pipeOpen := false }
  | closeSentinel : Moves frame timeout s .closeSentinel { s with sentinelOpen := false }
  | exit (code : Int) (hrunning : s.exitcode = none) (hpipe : s.pipeOpen = false)
      (hsentinel : s.sentinelOpen = false) :
      Moves frame timeout s (.exit code) { s with exitcode := some code }

variable {frame : Frame α} {timeout : Option Nat} {s s' : Wait α} {a : Act}

theorem next_moves (h : s.next frame timeout a = some s') : Moves frame timeout s a s' := by
  unfold next at h
  split at h
  · rename_i hloop
    rw [← Option.some.inj h]
    exact .look hloop
  · rename_i hloop
    rw [← Option.some.inj h]
    by_cases hread : s.readable = true
    · rw [if_pos hread]
      exact .named hloop hread
    · rw [if_neg hread]
      exact .notNamed hloop (by simpa using hread)
  · rename_i hloop
    by_cases hsent : s.sent = frame.size
    · rw [if_pos hsent] at h
      rw [← Option.some.inj h]
      exact .received hloop hsent
    · rw [if_neg hsent] at h
      by_cases heof : s.eof = true
      · rw [if_pos heof] at h
        rw [← Option.some.inj h]
        exact .ended hloop hsent heof
      · rw [if_neg heof] at h
        exact absurd h (by simp)
  · rename_i hloop
    split at h
    · rename_i hexit
      rw [← Option.some.inj h]
      exact .alive hloop hexit
    · rename_i code hexit
      rw [← Option.some.inj h]
      exact .exited code hloop hexit
  · rename_i hloop
    rw [← Option.some.inj h]
    exact .again hloop
  · rename_i hloop
    obtain ⟨seconds, htimeout, rfl⟩ := Option.map_eq_some_iff.mp h
    exact .expired seconds hloop htimeout
  · split at h
    · rename_i hcan
      rw [← Option.some.inj h]
      exact .write _ hcan.1 hcan.2.1 hcan.2.2
    · exact absurd h (by simp)
  · split at h
    · rename_i hheld
      rw [← Option.some.inj h]
      exact .fork hheld
    · exact absurd h (by simp)
  · split at h
    · rename_i hpos
      rw [← Option.some.inj h]
      exact .release hpos
    · exact absurd h (by simp)
  · rw [← Option.some.inj h]
    exact .closePipe
  · rw [← Option.some.inj h]
    exact .closeSentinel
  · split at h
    · rename_i hcan
      rw [← Option.some.inj h]
      exact .exit _ hcan.1 hcan.2.1 hcan.2.2
    · exact absurd h (by simp)
  · exact absurd h (by simp)

end Wait

/-- A wait may begin with whatever the child has got to by then. -/
def waitSystem {α : Type} (frame : Frame α) (timeout : Option Nat) : System (Wait α) Act where
  init s := s.loop = .top ∧ s.sent ≤ frame.size ∧ (s.exitcode ≠ none → s.pipeOpen = false)
  step s a s' := s.next frame timeout a = some s'

namespace Wait

variable {α : Type} {frame : Frame α} {timeout : Option Nat} {s s' : Wait α} {a : Act}

/-! ### What always holds

Whatever the order of the steps, the loop ends as its own messages say: with the reply only if that
was written whole, and with `CoordinatorLost` only after the pipe was at its end, the child gone or
the deadline past.
-/

/-- Nobody writes past the end or after an exit, and the loop ends as it says it does. -/
structure Sound (frame : Frame α) (timeout : Option Nat) (s : Wait α) : Prop where
  bound : s.sent ≤ frame.size
  exited : s.exitcode ≠ none → s.pipeOpen = false
  returned : ∀ reply, s.loop = .returned reply → reply = frame.reply ∧ s.sent = frame.size
  raised : ∀ reason, s.loop = .raised reason → s.pipeOpen = false ∨ timeout ≠ none

theorem eof_pipe (h : s.eof = true) : s.pipeOpen = false := by
  unfold eof at h
  rw [Bool.and_eq_true, Bool.not_eq_true'] at h
  exact h.1

/-- A loop that has not ended by this step owes nothing. -/
theorem Sound.goesOn {loop : Loop α} (h : Sound frame timeout s)
    (hloop : ∀ reply, loop ≠ .returned reply) (hloop' : ∀ reason, loop ≠ .raised reason) :
    Sound frame timeout { s with loop := loop } :=
  ⟨h.bound, h.exited, fun reply hr => absurd hr (hloop reply), fun r hr => absurd hr (hloop' r)⟩

/-- A loop that gives up has a reason to. -/
theorem Sound.givesUp {reason : String} (h : Sound frame timeout s)
    (hwhy : s.pipeOpen = false ∨ timeout ≠ none) :
    Sound frame timeout { s with loop := .raised reason } :=
  ⟨h.bound, h.exited, fun reply hr => absurd hr (by simp), fun _ _ => hwhy⟩

theorem Sound.next (h : Sound frame timeout s) (hstep : s.next frame timeout a = some s') :
    Sound frame timeout s' := by
  cases next_moves hstep with
  | look => exact h.goesOn (by simp) (by simp)
  | named => exact h.goesOn (by simp) (by simp)
  | notNamed => exact h.goesOn (by simp) (by simp)
  | received hloop hsent =>
      refine ⟨h.bound, h.exited, fun reply hr => ⟨?_, hsent⟩, fun r hr => absurd hr (by simp)⟩
      exact (Loop.returned.inj hr).symm
  | ended hloop hsent heof => exact h.givesUp (Or.inl (eof_pipe heof))
  | alive => exact h.goesOn (by simp) (by simp)
  | exited code hloop hexit => exact h.givesUp (Or.inl (h.exited (by rw [hexit]; simp)))
  | again => exact h.goesOn (by simp) (by simp)
  | expired seconds hloop htimeout => exact h.givesUp (Or.inr (by rw [htimeout]; simp))
  | write bytes hopen hpos hfits =>
      refine ⟨hfits, h.exited, fun reply hr => ?_, h.raised⟩
      have hsent := (h.returned reply hr).2
      exact absurd hfits (by omega)
  | fork => exact ⟨h.bound, h.exited, h.returned, h.raised⟩
  | release => exact ⟨h.bound, h.exited, h.returned, h.raised⟩
  | closePipe => exact ⟨h.bound, fun _ => rfl, h.returned, fun _ _ => Or.inl rfl⟩
  | closeSentinel => exact ⟨h.bound, h.exited, h.returned, h.raised⟩
  | exit code hrunning hpipe => exact ⟨h.bound, fun _ => hpipe, h.returned, h.raised⟩

theorem reach_sound {ok : Wait α → Act → Wait α → Prop}
    (h : (waitSystem frame timeout).Reach ok s) : Sound frame timeout s := by
  refine h.invariant (fun s hs => ?_) fun _ _ _ hs _ hstep => hs.next hstep
  obtain ⟨hloop, hbound, hexited⟩ := hs
  refine ⟨hbound, hexited, fun reply hr => ?_, fun reason hr => ?_⟩
  · exact absurd (hloop.symm.trans hr) (by simp)
  · exact absurd (hloop.symm.trans hr) (by simp)

/-! ### Runs in which the reply comes in time

A reply is lost by a step that looks at the child, or at the clock, when the reply came in after
the poll before.  `Kept` and `Lost` are the two sides of that step, each kept by every step in
time, so that a run is on one side or the other from its first late step on.
-/

/-- The reply does not come in too late: after the last poll before the child, which has
exited since, is looked at, or the deadline, which has passed, is. -/
def inTime (frame : Frame α) (s : Wait α) : Act → Bool
  | .exit _ => !(s.loop.pastPoll && s.sent = frame.size)
  | .deadline true => s.sent ≠ frame.size
  | .write bytes => !(s.loop.gaveUp && s.sent + bytes = frame.size)
  | _ => true

/-- The loop has not given up on a reply that was written, and will not. -/
structure Kept (frame : Frame α) (s : Wait α) : Prop where
  polled : s.loop = .polled → s.sent = frame.size → s.exitcode = none
  raised : ∀ reason, s.loop = .raised reason → s.sent ≠ frame.size

/-- The loop has given up on a reply that was written, or will as soon as it goes on. -/
structure Lost (frame : Frame α) (s : Wait α) : Prop where
  sent : s.sent = frame.size
  gone : (s.loop = .polled ∧ s.exitcode ≠ none) ∨ ∃ reason, s.loop = .raised reason

theorem Kept.goesOn {loop : Loop α} (hpolled : loop ≠ .polled)
    (hraised : ∀ reason, loop ≠ .raised reason) : Kept frame { s with loop := loop } :=
  ⟨fun hl => absurd hl hpolled, fun reason hl => absurd hl (hraised reason)⟩

theorem Kept.givesUp {reason : String} (hsent : s.sent ≠ frame.size) :
    Kept frame { s with loop := .raised reason } :=
  ⟨fun hl => absurd hl (by simp), fun _ _ => hsent⟩

theorem Kept.next (hs : Sound frame timeout s) (h : Kept frame s)
    (hok : inTime frame s a = true) (hstep : s.next frame timeout a = some s') : Kept frame s' := by
  cases next_moves hstep with
  | look => exact .goesOn (by simp) (by simp)
  | named => exact .goesOn (by simp) (by simp)
  | notNamed hloop hread =>
      -- Nothing has been written yet.
      refine ⟨fun _ hsent => ?_, fun reason hl => absurd hl (by simp)⟩
      have hsent : s.sent = frame.size := hsent
      have hpos := frame.size_pos
      unfold readable at hread
      rw [Bool.or_eq_false_iff, decide_eq_false_iff_not] at hread
      exact absurd hread.1 (by omega)
  | received => exact .goesOn (by simp) (by simp)
  | ended hloop hsent => exact .givesUp hsent
  | alive => exact .goesOn (by simp) (by simp)
  | exited code hloop hexit =>
      refine .givesUp fun hsent => ?_
      exact absurd (hexit.symm.trans (h.polled hloop hsent)) (by simp)
  | again => exact .goesOn (by simp) (by simp)
  | expired seconds hloop htimeout =>
      unfold inTime at hok
      exact .givesUp (by simpa using hok)
  | write bytes hopen hpos hfits =>
      refine ⟨fun _ _ => ?_, fun reason hl hsent => ?_⟩
      · -- What writes has not exited.
        by_contra hexit
        exact absurd (hopen.symm.trans (hs.exited hexit)) (by simp)
      · have hl : s.loop = .raised reason := hl
        have hsent : s.sent + bytes = frame.size := hsent
        unfold inTime Loop.gaveUp at hok
        rw [hl] at hok
        simp [hsent] at hok
  | fork => exact ⟨h.polled, h.raised⟩
  | release => exact ⟨h.polled, h.raised⟩
  | closePipe => exact ⟨h.polled, h.raised⟩
  | closeSentinel => exact ⟨h.polled, h.raised⟩
  | exit code hrunning =>
      refine ⟨fun hl hsent => ?_, h.raised⟩
      have hl : s.loop = .polled := hl
      have hsent : s.sent = frame.size := hsent
      unfold inTime Loop.pastPoll at hok
      rw [hl] at hok
      simp [hsent] at hok

theorem Lost.not_goingOn (h : Lost frame s) (hpolled : s.loop ≠ .polled)
    (hraised : ∀ reason, s.loop ≠ .raised reason) : False := by
  rcases h.gone with ⟨hl, -⟩ | ⟨reason, hl⟩
  · exact hpolled hl
  · exact hraised reason hl

theorem Lost.next (h : Lost frame s) (hstep : s.next frame timeout a = some s') :
    Lost frame s' := by
  cases next_moves hstep with
  | look hloop => exact (h.not_goingOn (by simp [hloop]) (by simp [hloop])).elim
  | named hloop => exact (h.not_goingOn (by simp [hloop]) (by simp [hloop])).elim
  | notNamed hloop => exact (h.not_goingOn (by simp [hloop]) (by simp [hloop])).elim
  | received hloop => exact (h.not_goingOn (by simp [hloop]) (by simp [hloop])).elim
  | ended hloop => exact (h.not_goingOn (by simp [hloop]) (by simp [hloop])).elim
  | alive hloop hexit =>
      rcases h.gone with ⟨-, hgone⟩ | ⟨reason, hl⟩
      · exact absurd hexit hgone
      · exact absurd (hloop.symm.trans hl) (by simp)
  | exited => exact ⟨h.sent, Or.inr ⟨_, rfl⟩⟩
  | again hloop => exact (h.not_goingOn (by simp [hloop]) (by simp [hloop])).elim
  | expired seconds hloop => exact (h.not_goingOn (by simp [hloop]) (by simp [hloop])).elim
  | write bytes hopen hpos hfits =>
      have hsent := h.sent
      exact absurd hfits (by omega)
  | fork => exact ⟨h.sent, h.gone⟩
  | release => exact ⟨h.sent, h.gone⟩
  | closePipe => exact ⟨h.sent, h.gone⟩
  | closeSentinel => exact ⟨h.sent, h.gone⟩
  | exit code hrunning =>
      refine ⟨h.sent, h.gone.imp (fun hgone => ?_) id⟩
      exact absurd hrunning hgone.2

/-- A step that is not in time loses the reply. -/
theorem Lost.of_late (hlate : inTime frame s a = false)
    (hstep : s.next frame timeout a = some s') : Lost frame s' := by
  unfold inTime at hlate
  cases next_moves hstep with
  | expired seconds hloop htimeout => exact ⟨by simpa using hlate, Or.inr ⟨_, rfl⟩⟩
  | write bytes hopen hpos hfits =>
      simp only [Bool.not_eq_false', Bool.and_eq_true, decide_eq_true_eq] at hlate
      refine ⟨hlate.2, Or.inr ?_⟩
      have hgave := hlate.1
      unfold Loop.gaveUp at hgave
      split at hgave
      · rename_i reason hl
        exact ⟨reason, hl⟩
      · exact absurd hgave (by simp)
  | exit code hrunning =>
      simp only [Bool.not_eq_false', Bool.and_eq_true, decide_eq_true_eq] at hlate
      refine ⟨hlate.2, Or.inl ⟨?_, by simp⟩⟩
      have hpast := hlate.1
      unfold Loop.pastPoll at hpast
      split at hpast
      · rename_i hl
        exact hl
      · exact absurd hpast (by simp)
  | _ => exact absurd hlate (by simp)

/-! ### How soon the reply is returned

Once the reply is in the pipe the next poll names the pipe.  So the loop has a bounded number of
steps to go, from wherever it is, and none of the child's steps sends it back.
-/

/-- The steps the loop still takes once the reply is in the pipe. -/
def Loop.toGo {α : Type} : Loop α → Nat
  | .polled => 5
  | .checked => 4
  | .top => 3
  | .polling => 2
  | .receiving => 1
  | _ => 0

theorem readable_of_sent (hsent : s.sent = frame.size) : s.readable = true := by
  have hpos := frame.size_pos
  unfold readable
  rw [Bool.or_eq_true, decide_eq_true_eq]
  exact Or.inl (by omega)

/-- The reply stays in the pipe, and every step of the loop brings it closer. -/
theorem toGo_next (h : Kept frame s) (hsent : s.sent = frame.size)
    (hok : inTime frame s a = true) (hstep : s.next frame timeout a = some s') :
    s'.sent = frame.size ∧ Loop.toGo s'.loop + (if a.ofLoop then 1 else 0) ≤ Loop.toGo s.loop := by
  cases next_moves hstep with
  | look hloop => exact ⟨hsent, by simp [Loop.toGo, Act.ofLoop, hloop]⟩
  | named hloop => exact ⟨hsent, by simp [Loop.toGo, Act.ofLoop, hloop]⟩
  | notNamed hloop hread => exact absurd ((readable_of_sent hsent).symm.trans hread) (by simp)
  | received hloop => exact ⟨hsent, by simp [Loop.toGo, Act.ofLoop, hloop]⟩
  | ended hloop hne => exact absurd hsent hne
  | alive hloop => exact ⟨hsent, by simp [Loop.toGo, Act.ofLoop, hloop]⟩
  | exited code hloop hexit =>
      exact absurd (hexit.symm.trans (h.polled hloop hsent)) (by simp)
  | again hloop => exact ⟨hsent, by simp [Loop.toGo, Act.ofLoop, hloop]⟩
  | expired => exact absurd hsent (by simpa [inTime] using hok)
  | write bytes hopen hpos hfits => exact absurd hfits (by omega)
  | fork | release | closePipe | closeSentinel | exit => exact ⟨hsent, by simp [Act.ofLoop]⟩

/-- With the reply in the pipe the loop is never stuck. -/
theorem loop_ready (h : Kept frame s) (hs : Sound frame timeout s) (hsent : s.sent = frame.size) :
    s.loop = .returned frame.reply ∨
      ∃ a s', a.ofLoop = true ∧ s.next frame timeout a = some s' := by
  rcases hloop : s.loop with _ | _ | _ | _ | _ | reply | reason
  · exact Or.inr ⟨.look, _, rfl, by unfold next; rw [hloop]⟩
  · exact Or.inr ⟨.poll, _, rfl, by unfold next; rw [hloop]⟩
  · exact Or.inr ⟨.recv, _, rfl, by unfold next; rw [hloop]; exact if_pos hsent⟩
  · exact Or.inr ⟨.isAlive, _, rfl, by unfold next; rw [hloop, h.polled hloop hsent]⟩
  · exact Or.inr ⟨.deadline false, _, rfl, by unfold next; rw [hloop]⟩
  · exact Or.inl (by rw [(hs.returned reply hloop).1])
  · exact absurd hsent (h.raised reason hloop)

/-- A run in time, from when the reply is in the pipe. -/
theorem toGo_run {acts : List Act} (hs : Sound frame timeout s) (h : Kept frame s)
    (hsent : s.sent = frame.size)
    (hrun : System.followWhen (inTime frame) (Wait.next frame timeout) acts s = some s') :
    Sound frame timeout s' ∧ Kept frame s' ∧ s'.sent = frame.size ∧
      Loop.toGo s'.loop + acts.countP Act.ofLoop ≤ Loop.toGo s.loop := by
  induction acts generalizing s with
  | nil =>
      rw [← Option.some.inj hrun]
      exact ⟨hs, h, hsent, le_refl _⟩
  | cons a rest ih =>
      obtain ⟨hok, t, ht, hrest⟩ := System.followWhen_cons hrun
      obtain ⟨hsent', hgo⟩ := toGo_next h hsent hok ht
      obtain ⟨hs', h', hsent'', hgo'⟩ := ih (hs.next ht) (h.next hs hok ht) hsent' hrest
      refine ⟨hs', h', hsent'', ?_⟩
      rw [List.countP_cons]
      omega

theorem Lost.run {acts : List Act} (h : Lost frame s)
    (hrun : System.follow (Wait.next frame timeout) acts s = some s') : Lost frame s' := by
  induction acts generalizing s with
  | nil =>
      rw [← Option.some.inj hrun]
      exact h
  | cons a rest ih =>
      obtain ⟨t, ht, hrest⟩ := Option.bind_eq_some_iff.mp hrun
      exact ih (h.next ht) hrest

theorem reach_kept (h : (waitSystem frame timeout).Reach (fun s a _ => inTime frame s a = true) s) :
    Kept frame s := by
  refine h.invariant' (fun s hs => ?_) fun s a s' hreach hkept hok hstep => ?_
  · exact ⟨fun hl => absurd (hs.1.symm.trans hl) (by simp),
      fun reason hl => absurd (hs.1.symm.trans hl) (by simp)⟩
  · exact hkept.next (reach_sound hreach) hok hstep

/-- **No completed reply is lost** in a run whose steps are all in time: the loop does not
raise once the reply is written, and after five more steps at most it has returned it,
whatever the child does in between.  Any other step loses the reply for good. -/
theorem no_reply_lost
    (h : (waitSystem frame timeout).Reach (fun s a _ => inTime frame s a = true) s) :
    (s.sent = frame.size →
      (∀ reason, s.loop ≠ .raised reason) ∧
      (s.loop = .returned frame.reply ∨
        ∃ a s', a.ofLoop = true ∧ s.next frame timeout a = some s') ∧
      ∀ acts s', System.followWhen (inTime frame) (Wait.next frame timeout) acts s = some s' →
        5 ≤ acts.countP Act.ofLoop → s'.loop = .returned frame.reply) ∧
    ∀ a s', inTime frame s a = false → s.next frame timeout a = some s' →
      s'.sent = frame.size ∧ ∀ acts s'', System.follow (Wait.next frame timeout) acts s' = some s'' →
        ∀ reply, s''.loop ≠ .returned reply := by
  have hs := reach_sound h
  have hkept := reach_kept h
  refine ⟨fun hsent => ⟨fun reason hl => hkept.raised reason hl hsent,
    loop_ready hkept hs hsent, fun acts s' hrun hcount => ?_⟩, fun a s' hlate hstep => ?_⟩
  · obtain ⟨hs', hkept', hsent', hgo⟩ := toGo_run hs hkept hsent hrun
    have hbound : Loop.toGo s.loop ≤ 5 := by
      unfold Loop.toGo
      split <;> omega
    have hzero : Loop.toGo s'.loop = 0 := by omega
    rcases hloop : s'.loop with _ | _ | _ | _ | _ | reply | reason
    · exact absurd hzero (by simp [hloop, Loop.toGo])
    · exact absurd hzero (by simp [hloop, Loop.toGo])
    · exact absurd hzero (by simp [hloop, Loop.toGo])
    · exact absurd hzero (by simp [hloop, Loop.toGo])
    · exact absurd hzero (by simp [hloop, Loop.toGo])
    · rw [(hs'.returned reply hloop).1]
    · exact absurd hsent' (hkept'.raised reason hloop)
  · have hlost := Lost.of_late hlate hstep
    refine ⟨hlost.sent, fun acts s'' hrun reply hl => ?_⟩
    exact (hlost.run hrun).not_goingOn (by simp [hl]) (by simp [hl])

/-! ### Two waits

Both waits have a child with workers that it forked, since these keep copies of the ends open and
are the reason why the end of the pipe does not tell that the child is gone.
-/

def benchFrame : Frame Nat := ⟨7, 12, by omega⟩

/-- The child is up, has written nothing, and has forked two workers. -/
def benchWait : Wait Nat := ⟨.top, 0, true, true, none, 2⟩

theorem benchWait_init (timeout : Option Nat) : (waitSystem benchFrame timeout).init benchWait :=
  ⟨rfl, Nat.zero_le _, fun h => absurd rfl h⟩

/-- The reply is written while the loop polls. -/
theorem no_reply_lost_written :
    ∃ s : Wait Nat, s.sent = benchFrame.size ∧ (∀ reason, s.loop ≠ .raised reason) ∧
      ∀ acts s', System.followWhen (inTime benchFrame) (Wait.next benchFrame none) acts s = some s' →
        5 ≤ acts.countP Act.ofLoop → s'.loop = .returned 7 := by
  obtain ⟨s, hs, hsent⟩ : ∃ s, System.followWhen (inTime benchFrame) (Wait.next benchFrame none)
      [.look, .write 4, .write 8] benchWait = some s ∧ s.sent = benchFrame.size :=
    ⟨_, rfl, rfl⟩
  have hreach := System.Reach.followWhen (M := waitSystem benchFrame none)
    (fun _ _ _ hstep => hstep) (fun _ _ _ hok => hok) (.init (benchWait_init none)) hs
  obtain ⟨hnever, -, hreturns⟩ := (no_reply_lost hreach).1 hsent
  exact ⟨s, hsent, hnever, hreturns⟩

/-- **A reply lost.**  A poll comes back with nothing; the child writes its reply and exits;
its exit status is looked at, and the loop raises with the reply in the pipe. -/
theorem reply_lost :
    ∃ s : Wait Nat, (waitSystem benchFrame none).Reach System.always s ∧
      s.sent = benchFrame.size ∧ s.exitcode ≠ none ∧ ∃ reason, s.loop = .raised reason := by
  obtain ⟨s, hs, hsent, hexit, hraised⟩ : ∃ s, System.follow (Wait.next benchFrame none)
      [.look, .poll, .write 12, .closePipe, .closeSentinel, .exit 1, .isAlive] benchWait = some s ∧
      s.sent = benchFrame.size ∧ s.exitcode ≠ none ∧ ∃ reason, s.loop = .raised reason :=
    ⟨_, rfl, rfl, by simp, _, rfl⟩
  exact ⟨s, System.Reach.follow (fun _ _ _ hstep => ⟨hstep, trivial⟩) _
    (.init (benchWait_init none)) hs, hsent, hexit, hraised⟩

/-! ### The wait as the flight takes it

A flight whose reader thread waits can do in one step what the loop came to: it is given
the reply where that was returned, and may fail where the loop raised, since the child's end
is closed or the wait has a deadline.
-/

section Flight

variable {κ : Type} {f : Flight κ} {o : Client} {k : ChildId} {timed : Bool} {rest : List Job}
  {frame : Frame Sent} {w : Wait Sent}

theorem runExecutor_of_returned (hf : f.executor = .awaitReply o k timed :: rest)
    (hw : Sound frame timeout w)
    (hout : w.sent = frame.size → (f.children k).outbox = [frame.reply]) {reply : Sent}
    (hloop : w.loop = .returned reply) :
    f.runExecutor none = some (Flight.deliver o (.reply reply)
      { f.setChild k { f.children k with outbox := [] } with executor := rest }) := by
  obtain ⟨rfl, hsent⟩ := hw.returned reply hloop
  unfold Flight.runExecutor
  rw [hf]
  simp only [hout hsent]

theorem runExecutor_of_raised (hf : f.executor = .awaitReply o k timed :: rest)
    (hw : Sound frame timeout w) (halive : (f.children k).alive = true → w.pipeOpen = true)
    (htimed : timeout ≠ none → timed = true) {reason : String} (hloop : w.loop = .raised reason) :
    f.runExecutor (some reason) =
      some (Flight.deliver o (.lost reason) { f with executor := rest }) := by
  have hmay : ¬ ((f.children k).alive = true ∧ ¬ timed = true) := by
    intro h
    obtain ⟨hup, hno⟩ := h
    rcases hw.raised reason hloop with hclosed | htimeout
    · exact absurd ((halive hup).symm.trans hclosed) (by simp)
    · exact hno (htimed htimeout)
  unfold Flight.runExecutor
  rw [hf]
  simp only [if_neg hmay]

end Flight

end Wait

end DonutServer.AwaitReply
