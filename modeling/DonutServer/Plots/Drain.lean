/-
The drain loops of the plot queue, one for each plot flight.

A step is what a loop does from one await to the next: from the top of its loop to the
event or to its command, from the end of its command to the next one or to the pause,
and so on.  What a command comes to is whatever a flight may make of it, so a flight may
die, restart or be degraded at any time.  A shutdown cancels every loop at once, and each
of them sees that when it next runs.

`tickets` and `accepted` are history: nothing reads them.
-/
import DonutServer.Lib.System
import DonutServer.PlotQueue

namespace DonutServer

open Function

/-- Where a drain loop is: at its top, in `wake.wait()`, in `send_command`, in the pause
after a loss, or over. -/
inductive DrainState
  | top
  | waiting
  | sending (jobId : JobId)
  | pausing (jobId : JobId)
  | ended
  deriving DecidableEq

/-- What a plot command comes to: an answer, no usable child, or an exception of another
kind, as `_errors` prints it. -/
inductive PlotResult
  | responded (reply : Msg)
  | noChild (kind reason : String)
  | raised (message : String)

/-- How an accepted job ended. -/
inductive PlotOutcome
  | drawn
  | failed (message : String)
  deriving DecidableEq

/-- One accepted `enqueue`: when it was accepted, how many commands were sent for it, and
how it ended. -/
structure Ticket where
  number : Nat
  sends : Nat
  outcomes : List PlotOutcome
  deriving DecidableEq

/-- The queue, its loops, and the history of each job's tickets, newest first. -/
structure PlotPool where
  queue : PlotQueue
  loops : Nat → DrainState
  closing : Bool
  tickets : JobId → List Ticket
  accepted : Nat

/-- What can happen to the queue. -/
inductive PlotAction
  | enqueue (jobId : JobId)
  | begin (i : Nat)
  | awake (i : Nat)
  | sent (i : Nat) (result : PlotResult)
  | paused (i : Nat)
  | close
  | cancelled (i : Nat)

/-- Change the ticket a job was given last. -/
def Ticket.last (g : Ticket → Ticket) : List Ticket → List Ticket
  | [] => []
  | t :: rest => g t :: rest

namespace PlotPool

variable {p p' : PlotPool}

/-- Loop `i` gets to `state`. -/
def goto (i : Nat) (state : DrainState) (p : PlotPool) : PlotPool :=
  { p with loops := update p.loops i state }

/-- The queue is changed. -/
def withQueue (g : PlotQueue → PlotQueue) (p : PlotPool) : PlotPool := { p with queue := g p.queue }

/-- Note something on the ticket the job was given last. -/
def note (jobId : JobId) (g : Ticket → Ticket) (p : PlotPool) : PlotPool :=
  { p with tickets := update p.tickets jobId (Ticket.last g (p.tickets jobId)) }

/-- `enqueue`. -/
def enqueue (jobId : JobId) (p : PlotPool) : PlotPool :=
  let r := p.queue.enqueue jobId
  if r.2 then
    { p with
      queue := r.1
      tickets := update p.tickets jobId (⟨p.accepted, 0, []⟩ :: p.tickets jobId)
      accepted := p.accepted + 1 }
  else { p with queue := r.1 }

/-- From the top of loop `i` to its next await. -/
def turn (i : Nat) (p : PlotPool) : PlotPool :=
  match p.queue.take with
  | (some jobId, q) =>
      ({ p with queue := { q with drawing := update q.drawing i (some jobId) } }.note jobId fun t =>
        { t with sends := t.sends + 1 }).goto i (.sending jobId)
  | (none, q) =>
      -- The stack was just found empty, so the check after `clear` finds it empty too.
      { p with queue := { q with wake := q.wake.clear.wait i } }.goto i .waiting

/-- `_drawing.pop(index)`, and back to the top. -/
def leave (i : Nat) (p : PlotPool) : PlotPool :=
  (p.withQueue fun q => { q with drawing := update q.drawing i none }).goto i .top

/-- The job has ended. -/
def settle (jobId : JobId) (outcome : PlotOutcome) (p : PlotPool) : PlotPool :=
  let q := p.queue.forgetRetries jobId
  { p with
    queue := match outcome with
      | .drawn => q
      | .failed message => q.recordError jobId message }.note jobId fun t =>
    { t with outcomes := outcome :: t.outcomes }

/-- The job had no usable child: it is put back, or given up, and the loop pauses. -/
def noChild (i : Nat) (jobId : JobId) (kind reason : String) (p : PlotPool) : PlotPool :=
  let tries := p.queue.retries jobId + 1
  (if plotMaxRetries ≤ tries then
    p.settle jobId (.failed s!"gave up after {tries} attempts: {kind}: {reason}")
  else
    p.withQueue fun q =>
      { ({ q with retries := update q.retries jobId tries }).putBack jobId with
        errors := q.errors.pop jobId }).goto i (.pausing jobId)

/-- Loop `i` goes on with what its command came to. -/
def sent (i : Nat) (jobId : JobId) (result : PlotResult) (p : PlotPool) : PlotPool :=
  match result with
  | .responded reply =>
      ((p.settle jobId (if reply.ok then .drawn
        else .failed (reply.errorOr "plotting failed"))).leave i).turn i
  | .raised message => ((p.settle jobId (.failed message)).leave i).turn i
  | .noChild kind reason => p.noChild i jobId kind reason

/-- Loop `i` is cancelled where it is. -/
def cancelled (i : Nat) (p : PlotPool) : PlotPool :=
  match p.loops i with
  | .sending jobId => ((p.withQueue (PlotQueue.putBack jobId)).leave i).goto i .ended
  | .pausing _ => (p.leave i).goto i .ended
  | _ => p.goto i .ended

/-- **One step of the queue.** -/
def next (p : PlotPool) : PlotAction → Option PlotPool
  | .enqueue jobId => some (p.enqueue jobId)
  | .close =>
      if p.closing then none
      else some { p with closing := true, queue := { p.queue with wake := p.queue.wake.cancel } }
  | .begin i =>
      if p.closing ∨ p.queue.flights ≤ i then none
      else
        match p.loops i with
        | .top => some (p.turn i)
        | _ => none
  | .awake i =>
      if p.closing ∨ p.queue.flights ≤ i ∨ i ∈ p.queue.wake.waiters then none
      else
        match p.loops i with
        | .waiting => some (p.turn i)
        | _ => none
  | .sent i result =>
      if p.closing ∨ p.queue.flights ≤ i then none
      else
        match p.loops i with
        | .sending jobId => some (p.sent i jobId result)
        | _ => none
  | .paused i =>
      if p.closing ∨ p.queue.flights ≤ i then none
      else
        match p.loops i with
        | .pausing _ => some ((p.leave i).turn i)
        | _ => none
  | .cancelled i =>
      if p.closing = false ∨ p.queue.flights ≤ i ∨ p.loops i = .ended then none
      else some (p.cancelled i)

/-- The queue of `flights` plot flights as it comes up. -/
def started (flights : Nat) : PlotPool where
  queue := .started flights
  loops := fun _ => .top
  closing := false
  tickets := fun _ => []
  accepted := 0

/-! ### What a step can do

There is one constructor for each branch of the loops, with the guard under which it is taken and
the state it leaves.  The invariants are all proved by cases on these, so that the loop itself is
taken apart once.
-/

/-- The branches of the loops, each with where it starts from and the state it leaves. -/
inductive Moves (p : PlotPool) : PlotAction → PlotPool → Prop
  | enqueue (jobId : JobId) : Moves p (.enqueue jobId) (p.enqueue jobId)
  | close (hopen : p.closing = false) :
      Moves p .close
        { p with closing := true, queue := { p.queue with wake := p.queue.wake.cancel } }
  | turn (i : Nat) (a : PlotAction) (hopen : p.closing = false) (hi : i < p.queue.flights)
      (hidle : p.loops i = .top ∨ p.loops i = .waiting ∧ i ∉ p.queue.wake.waiters)
      (ha : a = .begin i ∨ a = .awake i) : Moves p a (p.turn i)
  | settled (i : Nat) (jobId : JobId) (outcome : PlotOutcome) (result : PlotResult)
      (hopen : p.closing = false) (hi : i < p.queue.flights) (hsends : p.loops i = .sending jobId)
      (hresult : ∀ kind reason, result ≠ .noChild kind reason) :
      Moves p (.sent i result) (((p.settle jobId outcome).leave i).turn i)
  | noChild (i : Nat) (jobId : JobId) (kind reason : String) (hopen : p.closing = false)
      (hi : i < p.queue.flights) (hsends : p.loops i = .sending jobId) :
      Moves p (.sent i (.noChild kind reason)) (p.noChild i jobId kind reason)
  | paused (i : Nat) (jobId : JobId) (hopen : p.closing = false) (hi : i < p.queue.flights)
      (hpausing : p.loops i = .pausing jobId) : Moves p (.paused i) ((p.leave i).turn i)
  | cancelled (i : Nat) (hclosing : p.closing = true) (hi : i < p.queue.flights)
      (hlive : p.loops i ≠ .ended) : Moves p (.cancelled i) (p.cancelled i)

theorem open_of_not {P : Prop} (h : ¬ (p.closing = true ∨ P)) : p.closing = false ∧ ¬ P :=
  ⟨Bool.eq_false_iff.mpr fun hc => h (Or.inl hc), fun hp => h (Or.inr hp)⟩

/-- The inversion lemma. -/
theorem next_moves {a : PlotAction} (h : p.next a = some p') : p.Moves a p' := by
  cases a with
  | enqueue jobId =>
      obtain rfl := Option.some.inj h
      exact .enqueue jobId
  | close =>
      simp only [next] at h
      split at h
      · exact absurd h (by simp)
      · rename_i hopen
        obtain rfl := Option.some.inj h
        exact .close (Bool.not_eq_true _ ▸ hopen)
  | begin i =>
      simp only [next] at h
      split at h
      · exact absurd h (by simp)
      · rename_i hguard
        obtain ⟨hopen, hi⟩ := open_of_not hguard
        split at h
        · rename_i htop
          obtain rfl := Option.some.inj h
          exact .turn i _ hopen (Nat.lt_of_not_le hi) (Or.inl htop) (Or.inl rfl)
        · exact absurd h (by simp)
  | awake i =>
      simp only [next] at h
      split at h
      · exact absurd h (by simp)
      · rename_i hguard
        obtain ⟨hopen, hrest⟩ := open_of_not hguard
        split at h
        · rename_i hwaiting
          obtain rfl := Option.some.inj h
          exact .turn i _ hopen (Nat.lt_of_not_le fun hi => hrest (Or.inl hi))
            (Or.inr ⟨hwaiting, fun hmem => hrest (Or.inr hmem)⟩) (Or.inr rfl)
        · exact absurd h (by simp)
  | sent i result =>
      simp only [next] at h
      split at h
      · exact absurd h (by simp)
      · rename_i hguard
        obtain ⟨hopen, hi⟩ := open_of_not hguard
        split at h
        · rename_i jobId hsends
          obtain rfl := Option.some.inj h
          cases result with
          | responded reply =>
              exact .settled i jobId _ _ hopen (Nat.lt_of_not_le hi) hsends (by simp)
          | raised message =>
              exact .settled i jobId _ _ hopen (Nat.lt_of_not_le hi) hsends (by simp)
          | noChild kind reason =>
              exact .noChild i jobId kind reason hopen (Nat.lt_of_not_le hi) hsends
        · exact absurd h (by simp)
  | paused i =>
      simp only [next] at h
      split at h
      · exact absurd h (by simp)
      · rename_i hguard
        obtain ⟨hopen, hi⟩ := open_of_not hguard
        split at h
        · rename_i jobId hpausing
          obtain rfl := Option.some.inj h
          exact .paused i jobId hopen (Nat.lt_of_not_le hi) hpausing
        · exact absurd h (by simp)
  | cancelled i =>
      simp only [next] at h
      split at h
      · exact absurd h (by simp)
      · rename_i hguard
        obtain rfl := Option.some.inj h
        refine .cancelled i ?_ ?_ fun hended => hguard (Or.inr (Or.inr hended))
        · exact Bool.not_eq_false _ ▸ fun hc => hguard (Or.inl hc)
        · exact Nat.lt_of_not_le fun hi => hguard (Or.inr (Or.inl hi))

/-! ### What a step leaves as it is

Most steps neither shut the queue down nor end a command.  For those the retries and the number of
flights stay, which is what the other modules need to know of them.
-/

/-- Neither was the queue closed, nor did a command come to an end. -/
structure Stays (p p' : PlotPool) : Prop where
  closing : p'.closing = p.closing
  flights : p'.queue.flights = p.queue.flights
  retries : p'.queue.retries = p.queue.retries

/-- A job that is asked for is refused, and nothing has changed, or it is put on the stack. -/
theorem enqueue_cases (p : PlotPool) (jobId : JobId) : p.enqueue jobId = p ∨
    p.queue.flights ≠ 0 ∧ ¬ (jobId ∈ p.queue.queued ∨ p.queue.isDrawing jobId = true) := by
  unfold PlotPool.enqueue PlotQueue.enqueue
  split
  next => exact Or.inl rfl
  next hflights =>
    split
    next => exact Or.inl rfl
    next hfresh => exact Or.inr ⟨hflights, hfresh⟩

theorem enqueue_stays {jobId : JobId} : p.Stays (p.enqueue jobId) := by
  unfold PlotPool.enqueue PlotQueue.enqueue
  dsimp only
  split_ifs <;> exact ⟨rfl, rfl, rfl⟩

theorem turn_stays {i : Nat} : p.Stays (p.turn i) := by
  unfold turn PlotQueue.take
  cases PlotQueue.takeFrom p.queue.queued p.queue.stack with
  | mk head rest => cases head <;> exact ⟨rfl, rfl, rfl⟩

theorem cancelled_stays {i : Nat} : p.Stays (p.cancelled i) := by
  unfold PlotPool.cancelled
  split <;> exact ⟨rfl, rfl, rfl⟩

theorem noChild_same {i : Nat} {jobId : JobId} {kind reason : String} :
    (p.noChild i jobId kind reason).closing = p.closing ∧
      (p.noChild i jobId kind reason).queue.flights = p.queue.flights := by
  unfold PlotPool.noChild
  dsimp only
  split <;> exact ⟨rfl, rfl⟩

/-- How many flights there are is settled when the queue comes up. -/
theorem next_flights {a : PlotAction} (h : p.next a = some p') :
    p'.queue.flights = p.queue.flights := by
  have hm := next_moves h
  cases hm with
  | enqueue => exact enqueue_stays.flights
  | close => rfl
  | turn => exact turn_stays.flights
  | settled _ _ outcome => exact turn_stays.flights.trans (by cases outcome <;> rfl)
  | noChild => exact noChild_same.2
  | paused => exact turn_stays.flights.trans rfl
  | cancelled => exact cancelled_stays.flights

end PlotPool

/-- The runs of the plot queue, with any number of flights. -/
def plotSystem : System PlotPool PlotAction where
  init p := ∃ flights, p = PlotPool.started flights
  step p a p' := p.next a = some p'

theorem PlotPool.follow_reach {l : List PlotAction} {flights : Nat} {p : PlotPool}
    (h : System.follow PlotPool.next l (PlotPool.started flights) = some p) :
    plotSystem.Reach System.always p :=
  System.Reach.follow (fun _ _ _ hstep => ⟨hstep, trivial⟩) l (.init ⟨flights, rfl⟩) h

end DonutServer
