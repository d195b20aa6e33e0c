/-
The plot pool at work: the queue, its flights with their children, and the stamp directory.

A drain loop sends its job to its flight, the flight's child takes the command and draws, and what
comes back ends the job.  The three are models of their own, and here they are put together as
they are in the program: the loop calls `send_command` in the segment that took the job, a call
that ends is what the loop goes on with, a child draws what the command it has taken asks for, and
a child that is killed leaves the files it was at as they are.

A command carries the job it asks for.  `orders` keeps it, under the name of the call that sent
the command.

The three do not agree on what a step is.  A segment of a loop may contain a call to its flight,
and a call that finds no child ends in the same segment; so a step here is a step of one of the
three and all that follows from it without an await.
-/
import DonutServer.Flight.Answered
import DonutServer.Plots.Standing

namespace DonutServer

open Function

/-- `{"cmd": "plot", ...}`. -/
def plotCommand : Command := .other "plot"

/-- What `_drain` makes of the end of `send_command`. -/
def PlotResult.ofResult : Result → PlotResult
  | .response s => .responded s.msg
  | .lost reason => .noChild "CoordinatorLost" reason
  | .unavailable reason _ => .noChild "CoordinatorUnavailable" reason

/-- The queue, its flights, what each call asks for, and the directory. -/
structure Works (C T F : Type) where
  pool : PlotPool
  flights : Nat → Flight Unit
  calls : CallId
  orders : CallId → JobId
  depot : Depot C (Nat × ChildId) T F

/-- What can happen: a request, a loop that goes on by itself, a step of a flight, a child that
takes its command, and a step around the directory, with the text of the error it may end in. -/
inductive WorksAction (C T : Type)
  | enqueue (jobId : JobId)
  | begin (i : Nat)
  | awake (i : Nat)
  | paused (i : Nat)
  | flight (i : Nat) (a : FlightAction Msg)
  | takes (i : Nat) (k : ChildId)
  | depot (a : DepotAction C (Nat × ChildId) T) (error : String)

variable {C T F : Type}

/-- The flight that a step is one of. -/
def WorksAction.site : WorksAction C T → Option Nat
  | .enqueue _ => none
  | .begin i | .awake i | .paused i | .flight i _ | .takes i _ => some i
  | .depot a _ =>
      match a.party with
      | some (.drawer (i, _)) => some i
      | _ => none

/-- A step that `render_plots` does not take by itself. -/
def DepotAction.external {D : Type} : DepotAction C D T → Bool
  | .draw _ _ | .kill _ => true
  | _ => false

/-- What `plot_flight_main` answers where `render_plots` ends with a step. -/
def DepotAction.reply {D : Type} (error : String) : DepotAction C D T → Msg
  | .done _ => .ack
  | _ => .failed error none

/-- A step of a flight that is not the loop's call, nor one of a child that draws. -/
def FlightAction.aside {σ : Type} : FlightAction σ → Bool
  | .call _ _ | .receive _ | .answer _ _ => false
  | _ => true

namespace Works

variable [DecidableEq C] (studio : Studio T F) (directory : String) (cfg : CoordSettings)

/-- The flight of loop `i` is changed. -/
def setFlight (i : Nat) (f : Flight Unit) (s : Works C T F) : Works C T F :=
  { s with flights := update s.flights i f }

/-- The queue goes on with the end of a call. -/
def sent (i : Nat) (result : Result) (s : Works C T F) : Works C T F :=
  match s.pool.next (.sent i (.ofResult result)) with
  | none => s
  | some pool => { s with pool := pool }

/-- Loop `i`, if it has taken a job, calls `send_command`; a call may end at once. -/
def dispatch (i : Nat) (s : Works C T F) : Works C T F :=
  match s.pool.loops i with
  | .sending jobId =>
      let r := (s.flights i).call s.calls plotCommand
      let s' := { s.setFlight i r.1 with
        calls := s.calls + 1
        orders := update s.orders s.calls jobId }
      match r.2.finished with
      | none => s'
      | some (_, result) => s'.sent i result
  | _ => s

/-- A loop goes on by itself. -/
def drains (a : PlotAction) (i : Nat) (s : Works C T F) : Option (Works C T F) :=
  (s.pool.next a).map fun pool => dispatch i { s with pool := pool }

/-- A child of flight `i` may have been killed. -/
def killed (i : Nat) (victim : Option ChildId) (s : Works C T F) : Works C T F :=
  match victim with
  | none => s
  | some k =>
      match s.depot.next studio directory (.kill (.drawer (i, k))) with
      | none => s
      | some depot => { s with depot := depot }

/-- What a flight's step lets the loop see. -/
def told (i : Nat) (e : Effects) (s : Works C T F) : Works C T F :=
  match e.finished with
  | none => s
  | some (_, result) => dispatch i (s.sent i result)

/-- The job that a command written on flight `i` asks for. -/
def order (i : Nat) (tag : Tag) (s : Works C T F) : Option JobId :=
  match (s.flights i).written tag with
  | some (.call c, _, _) => some (s.orders c)
  | _ => none

/-- **One step of the works.** -/
def next (s : Works C T F) : WorksAction C T → Option (Works C T F)
  | .enqueue jobId => (s.pool.next (.enqueue jobId)).map fun pool => { s with pool := pool }
  | .begin i => s.drains (.begin i) i
  | .awake i => s.drains (.awake i) i
  | .paused i => s.drains (.paused i) i
  | .flight i a =>
      if a.aside = true ∧ i < s.pool.queue.flights then
        ((s.flights i).next cfg .scripted a).map fun r =>
          ((s.setFlight i r.1).killed studio directory i ((s.flights i).victim a)).told i r.2
      else none
  | .takes i k =>
      ((s.flights i).receive k).bind fun f =>
        (((s.flights i).children k).inbox.head?).bind fun x =>
          (s.order i x.1).bind fun jobId =>
            (s.depot.next studio directory (.draw (i, k) jobId)).map fun depot =>
              { s.setFlight i f with depot := depot }
  | .depot a error =>
      match a.party with
      | some (.drawer (i, k)) =>
          if a.external = true ∨ ((s.flights i).children k).alive = false then none
          else
            (s.depot.next studio directory a).bind fun depot =>
              match depot.drawers (i, k) with
              | some _ => some { s with depot := depot }
              | none =>
                  -- `render_plots` is over, and the child answers.
                  ((s.flights i).answer .scripted k (a.reply error)).map fun f =>
                    { s.setFlight i f with depot := depot }
      | _ => (s.depot.next studio directory a).map fun depot => { s with depot := depot }

/-- The works of `flights` plot flights as they come up, over a directory as it was left. -/
def started (flights : Nat) (depot : Depot C (Nat × ChildId) T F) : Works C T F where
  pool := .started flights
  flights := fun _ => .started .scripted
  calls := 0
  orders := fun _ => ""
  depot := depot

section

variable {s : Works C T F} {i j : Nat} {f : Flight Unit}

omit [DecidableEq C] in
@[simp] theorem setFlight_self : (s.setFlight i f).flights i = f := update_self ..

omit [DecidableEq C] in
theorem setFlight_other (hj : j ≠ i) : (s.setFlight i f).flights j = s.flights j :=
  update_of_ne hj _ _

end

/-- At most one `_bring_up` of a flight is active, only names that `_JOB_ID_OK` takes are asked
for, each job is run once, and nobody takes away a figure, or a file that is being written. -/
def Orderly (directory : String) (s : Works C T F) (a : WorksAction C T) (s' : Works C T F) :
    Prop :=
  (∀ i, Flight.AtMostOneBringUp (s'.flights i)) ∧
    match a with
    | .enqueue jobId => PlotQueue.jobIdOk jobId = true
    | .depot (.complete _ jobId _) _ => PlainId jobId ∧ s.depot.ran jobId = none
    | .depot (.remove path) _ =>
        (∀ w x, s.depot.files.writers w = some x → path ≠ tmpName x.final) ∧
          ∀ jobId name size, path ≠ plotPath directory jobId name size
    | _ => True

end Works

/-- The runs of the works. -/
def worksSystem [DecidableEq C] (studio : Studio T F) (directory : String) (cfg : CoordSettings) :
    System (Works C T F) (WorksAction C T) where
  init s := ∃ flights depot, depot.Left studio directory ∧ s = .started flights depot
  step s a s' := s.next studio directory cfg a = some s'

end DonutServer
