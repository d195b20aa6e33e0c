/-
Nothing that was queued is lost, drawn twice, or tried without end.

`Shape` says how the structures of the queue hang together: the stack and its set, the
loops and what they are said to draw, the event and who sleeps.  `Account` says, for one
job, what its tickets come to: the last one is open exactly while the job waits or has a
command out, and its commands are counted by the retries.
-/
import DonutServer.Plots.Drain

namespace DonutServer

open Function

/-! ### The tickets of one job

A ticket is what an accepted `enqueue` promises: it ends once, with the plots drawn or with a
message that says why not.  Nothing in the code keeps tickets; they are history, and what is shown
is that the queue's own structures are enough for each of them to end.

Each lemma below is what one event does to the tickets of the job it is about.  That is pure
counting, with nothing in it of loops or of the stack.
-/

/-- A ticket that has come to its one end. -/
def Ticket.Over (t : Ticket) : Prop := ∃ outcome, t.outcomes = [outcome]

/-- The tickets of a job that waits in the stack, or has a command out, or neither. -/
structure Account (waits flies : Prop) (closing : Bool) (retries accepted : Nat)
    (tickets : List Ticket) : Prop where
  known : waits ∨ flies → tickets ≠ []
  last : ∀ t rest, tickets = t :: rest →
    (waits ∨ flies → t.outcomes = []) ∧ (¬ (waits ∨ flies) → t.Over)
  older : ∀ t ∈ tickets.tail, t.Over
  bounded : ∀ t ∈ tickets, t.sends ≤ plotMaxRetries ∧ t.number < accepted
  rested : closing = false → ¬ (waits ∨ flies) → retries = 0
  few : closing = false → retries < plotMaxRetries
  waiting : closing = false → waits → ∀ t rest, tickets = t :: rest → t.sends = retries
  flying : closing = false → flies → ∀ t rest, tickets = t :: rest → t.sends = retries + 1

namespace Account

variable {waits flies waits' flies' : Prop} {closing : Bool} {retries accepted accepted' : Nat}
  {tickets : List Ticket}

/-- Only whether the job waits, and whether it has a command out, matters. -/
theorem congr (h : Account waits flies closing retries accepted tickets) (hw : waits' ↔ waits)
    (hf : flies' ↔ flies) (hle : accepted ≤ accepted') :
    Account waits' flies' closing retries accepted' tickets := by
  rw [propext hw, propext hf]
  exact ⟨h.known, h.last, h.older,
    fun t ht => ⟨(h.bounded t ht).1, Nat.lt_of_lt_of_le (h.bounded t ht).2 hle⟩,
    h.rested, h.few, h.waiting, h.flying⟩

/-- A new ticket. -/
theorem accept (h : Account waits flies closing retries accepted tickets)
    (hidle : ¬ (waits ∨ flies)) (hw : waits') (hf : ¬ flies') :
    Account waits' flies' closing retries (accepted + 1) (⟨accepted, 0, []⟩ :: tickets) := by
  refine ⟨fun _ => by simp, fun t rest ht => ?_, fun t ht => ?_, fun t ht => ?_, ?_, h.few, ?_, ?_⟩
  · obtain ⟨rfl, _⟩ := List.cons.inj ht
    exact ⟨fun _ => rfl, fun hno => absurd (Or.inl hw) hno⟩
  · cases tickets with
    | nil => exact absurd ht List.not_mem_nil
    | cons u rest =>
        rcases List.mem_cons.mp ht with rfl | hrest
        · exact (h.last t rest rfl).2 hidle
        · exact h.older t hrest
  · rcases List.mem_cons.mp ht with rfl | hrest
    · exact ⟨Nat.zero_le _, Nat.lt_succ_self _⟩
    · exact ⟨(h.bounded t hrest).1, Nat.lt_succ_of_lt (h.bounded t hrest).2⟩
  · exact fun _ hno => absurd (Or.inl hw) hno
  · intro hopen _ t rest ht
    obtain ⟨rfl, _⟩ := List.cons.inj ht
    exact (h.rested hopen hidle).symm
  · exact fun _ hfly => absurd hfly hf

/-- A command goes out. -/
theorem send (h : Account waits flies false retries accepted tickets) (hwait : waits)
    (hw : ¬ waits') (hf : flies') :
    Account waits' flies' false retries accepted
      (Ticket.last (fun t => { t with sends := t.sends + 1 }) tickets) := by
  cases tickets with
  | nil => exact absurd rfl (h.known (Or.inl hwait))
  | cons u rest =>
      have hsends := h.waiting rfl hwait u rest rfl
      refine ⟨fun _ => by simp [Ticket.last], fun t _ ht => ?_, h.older, fun t ht => ?_, ?_, h.few,
        fun _ hw' => absurd hw' hw, fun _ _ t _ ht => ?_⟩
      · obtain ⟨rfl, _⟩ := List.cons.inj ht
        exact ⟨fun _ => (h.last u rest rfl).1 (Or.inl hwait), fun hno => absurd (Or.inr hf) hno⟩
      · rcases List.mem_cons.mp ht with rfl | hrest
        · refine ⟨?_, (h.bounded u (List.mem_cons_self ..)).2⟩
          have hfew := h.few rfl
          show u.sends + 1 ≤ _
          omega
        · exact h.bounded t (List.mem_cons_of_mem u hrest)
      · exact fun _ hno => absurd (Or.inr hf) hno
      · obtain ⟨rfl, _⟩ := List.cons.inj ht
        show u.sends + 1 = _
        rw [hsends]

/-- The command came to an end. -/
theorem settle {outcome : PlotOutcome} (h : Account waits flies closing retries accepted tickets)
    (hfly : flies) (hw : ¬ waits') (hf : ¬ flies') :
    Account waits' flies' closing 0 accepted
      (Ticket.last (fun t => { t with outcomes := outcome :: t.outcomes }) tickets) := by
  cases tickets with
  | nil => exact absurd rfl (h.known (Or.inr hfly))
  | cons u rest =>
      have hidle : ¬ (waits' ∨ flies') := fun hlive => hlive.elim hw hf
      refine ⟨fun hlive => absurd hlive hidle, fun t _ ht => ?_, h.older, fun t ht => ?_,
        fun _ _ => rfl, fun _ => by decide, fun _ hw' => absurd hw' hw, fun _ hf' => absurd hf' hf⟩
      · obtain ⟨rfl, _⟩ := List.cons.inj ht
        refine ⟨fun hlive => absurd hlive hidle, fun _ => ⟨outcome, ?_⟩⟩
        show outcome :: u.outcomes = _
        rw [(h.last u rest rfl).1 (Or.inr hfly)]
      · rcases List.mem_cons.mp ht with rfl | hrest
        · exact h.bounded u (List.mem_cons_self ..)
        · exact h.bounded t (List.mem_cons_of_mem u hrest)

/-- The command found no child, and the job is put back. -/
theorem putBack (h : Account waits flies false retries accepted tickets) (hfly : flies)
    (hfew : retries + 1 < plotMaxRetries) (hw : waits') (hf : ¬ flies') :
    Account waits' flies' false (retries + 1) accepted tickets := by
  refine ⟨fun _ => h.known (Or.inr hfly), fun t rest ht => ?_, h.older, h.bounded, ?_, fun _ => hfew,
    fun _ _ t rest ht => h.flying rfl hfly t rest ht, fun _ hf' => absurd hf' hf⟩
  · exact ⟨fun _ => (h.last t rest ht).1 (Or.inr hfly), fun hno => absurd (Or.inl hw) hno⟩
  · exact fun _ hno => absurd (Or.inl hw) hno

/-- The command was cancelled, and the job is put back. -/
theorem cancel (h : Account waits flies true retries accepted tickets) (hfly : flies)
    (hw : waits') : Account waits' flies' true retries accepted tickets := by
  refine ⟨fun _ => h.known (Or.inr hfly), fun t rest ht => ?_, h.older, h.bounded, ?_, ?_, ?_, ?_⟩
  · exact ⟨fun _ => (h.last t rest ht).1 (Or.inr hfly), fun hno => absurd (Or.inl hw) hno⟩
  all_goals exact fun hopen => absurd hopen (by simp)

/-- Nothing more is promised of the retries once the queue is closing. -/
theorem close (h : Account waits flies closing retries accepted tickets) :
    Account waits flies true retries accepted tickets :=
  ⟨h.known, h.last, h.older, h.bounded, fun hopen => absurd hopen (by simp),
    fun hopen => absurd hopen (by simp), fun hopen => absurd hopen (by simp),
    fun hopen => absurd hopen (by simp)⟩

end Account

/-! ### How the structures hang together

The stack and its set are two views of one thing, and so are the loops' states and the table of who
draws what.  A job is in the stack or has one command out, never both, and no other loop may have a
command for it; these are the parts of `Shape` that each step has to be checked against.
-/

/-- What a loop is said to draw. -/
def DrainState.holds : DrainState → Option JobId
  | .sending jobId => some jobId
  | .pausing jobId => some jobId
  | _ => none

namespace PlotPool

variable {p p' : PlotPool} {i : Nat} {jobId : JobId}

/-- Flight `i` has a command for the job out. -/
def Sends (p : PlotPool) (i : Nat) (jobId : JobId) : Prop := p.loops i = .sending jobId

/-- The stack, the set, the loops, what they draw, and who sleeps. -/
structure Shape (p : PlotPool) : Prop where
  nodup : p.queue.stack.Nodup
  queued : ∀ jobId, jobId ∈ p.queue.queued ↔ jobId ∈ p.queue.stack
  drawing : ∀ i, p.queue.drawing i = (p.loops i).holds
  beyond : ∀ i, p.queue.flights ≤ i → p.loops i = .top
  unsent : ∀ i jobId, p.Sends i jobId → jobId ∉ p.queue.stack
  alone : ∀ i i' jobId, p.Sends i jobId → p.Sends i' jobId → i = i'
  asleep : ∀ i, i ∈ p.queue.wake.waiters → p.loops i = .waiting
  closed : p.closing = true → p.queue.wake.waiters = ∅

/-- The tickets of a job say what becomes of it. -/
def Accounts (p : PlotPool) (jobId : JobId) : Prop :=
  Account (jobId ∈ p.queue.stack) (∃ i, p.Sends i jobId) p.closing (p.queue.retries jobId)
    p.accepted (p.tickets jobId)

/-- Both, for all jobs. -/
structure Good (p : PlotPool) : Prop where
  shape : p.Shape
  accounts : ∀ jobId, p.Accounts jobId

/-! ### One loop goes on

A step of a loop changes where that loop is and, in most cases, nothing of the stack.  What is said
of the other loops, and of all jobs but one, is carried over by these lemmas.
-/

/-- Who has a command out, once a loop has gone on. -/
theorem sends_goto {state : DrainState} (hloops : p'.loops = update p.loops i state) (k : Nat) :
    p'.Sends k jobId ↔ k = i ∧ state = .sending jobId ∨ k ≠ i ∧ p.Sends k jobId := by
  show p'.loops k = .sending jobId ↔ _
  rw [hloops]
  by_cases hne : k = i
  · rw [hne, update_self]
    exact ⟨fun h => Or.inl ⟨rfl, h⟩, fun h => h.elim And.right fun h => absurd rfl h.1⟩
  · rw [update_of_ne hne]
    exact ⟨fun h => Or.inr ⟨hne, h⟩, fun h => h.elim (fun h => absurd h.1 hne) And.right⟩

/-- A loop that goes on to anything but a command for the job sends none. -/
theorem not_sends_goto {state : DrainState} {k : Nat} (hloops : p'.loops = update p.loops i state)
    (hstate : state ≠ .sending jobId) (hnot : ¬ p.Sends k jobId) : ¬ p'.Sends k jobId := by
  intro hsends
  rcases (sends_goto hloops k).mp hsends with ⟨_, hsending⟩ | ⟨_, hbefore⟩
  · exact hstate hsending
  · exact hnot hbefore

/-- The commands for a job that the loop has nothing to do with. -/
theorem flies_goto {state : DrainState} (hloops : p'.loops = update p.loops i state)
    (hbefore : ¬ p.Sends i jobId) (hstate : state ≠ .sending jobId) :
    (∃ k, p'.Sends k jobId) ↔ ∃ k, p.Sends k jobId := by
  constructor
  · intro hc
    obtain ⟨k, hk⟩ := hc
    rcases (sends_goto hloops k).mp hk with ⟨_, h⟩ | ⟨_, h⟩
    · exact absurd h hstate
    · exact ⟨k, h⟩
  · intro hc
    obtain ⟨k, hk⟩ := hc
    refine ⟨k, (sends_goto hloops k).mpr (Or.inr ⟨?_, hk⟩)⟩
    intro heq
    subst heq
    exact hbefore hk

/-- The job whose command has come to an end has none out. -/
theorem not_flies_goto {state : DrainState} (h : p.Shape)
    (hloops : p'.loops = update p.loops i state) (hsends : p.Sends i jobId)
    (hstate : state ≠ .sending jobId) :
    ¬ ∃ k, p'.Sends k jobId := by
  intro hc
  obtain ⟨k, hk⟩ := hc
  rcases (sends_goto hloops k).mp hk with ⟨_, hk⟩ | ⟨hne, hk⟩
  · exact hstate hk
  · exact hne (h.alone k i jobId hk hsends)

/-- The tickets of a job that the step has nothing to do with. -/
theorem Accounts.keep (h : p.Accounts jobId)
    (hstack : jobId ∈ p'.queue.stack ↔ jobId ∈ p.queue.stack)
    (hflies : (∃ k, p'.Sends k jobId) ↔ ∃ k, p.Sends k jobId)
    (hsame : (p'.closing, p'.queue.retries jobId, p'.tickets jobId) =
      (p.closing, p.queue.retries jobId, p.tickets jobId))
    (haccepted : p.accepted ≤ p'.accepted) : p'.Accounts jobId := by
  simp only [Prod.mk.injEq] at hsame
  obtain ⟨hclosing, hretries, htickets⟩ := hsame
  unfold Accounts
  rw [hclosing, hretries, htickets]
  exact Account.congr h hstack hflies haccepted

/-- A loop goes on to `state`. -/
theorem Shape.goto {state : DrainState} (h : p.Shape) (hi : i < p.queue.flights)
    (hloops : p'.loops = update p.loops i state) (hflights : p'.queue.flights = p.queue.flights)
    (hdrawing : p'.queue.drawing = update p.queue.drawing i state.holds)
    (hnodup : p'.queue.stack.Nodup)
    (hqueued : ∀ jobId, jobId ∈ p'.queue.queued ↔ jobId ∈ p'.queue.stack)
    (hstack : ∀ k jobId, k ≠ i → p.Sends k jobId → jobId ∉ p'.queue.stack)
    (hself : ∀ jobId, state = .sending jobId →
      jobId ∉ p'.queue.stack ∧ ∀ k, k ≠ i → ¬ p.Sends k jobId)
    (hwaiters : ∀ k ∈ p'.queue.wake.waiters,
      k = i ∧ state = .waiting ∨ k ≠ i ∧ k ∈ p.queue.wake.waiters)
    (hclosed : p'.closing = true → p'.queue.wake.waiters = ∅) : p'.Shape := by
  have hsends : ∀ k jobId, p'.Sends k jobId →
      k = i ∧ state = .sending jobId ∨ k ≠ i ∧ p.Sends k jobId :=
    fun k jobId => (sends_goto hloops k).mp
  refine ⟨hnodup, hqueued, fun k => ?_, fun k hk => ?_, fun k jobId hk => ?_, ?_, fun k hk => ?_,
    hclosed⟩
  · rw [hdrawing, hloops]
    by_cases hne : k = i
    · rw [hne, update_self, update_self]
    · rw [update_of_ne hne, update_of_ne hne]
      exact h.drawing k
  · rw [hflights] at hk
    rw [hloops, update_of_ne (by omega)]
    exact h.beyond k hk
  · rcases hsends k jobId hk with ⟨_, hstate⟩ | ⟨hne, hbefore⟩
    · exact (hself jobId hstate).1
    · exact hstack k jobId hne hbefore
  · intro k k' jobId hk hk'
    rcases hsends k jobId hk with ⟨hki, hstate⟩ | ⟨hne, hbefore⟩
    · rcases hsends k' jobId hk' with ⟨hki', _⟩ | ⟨hne', hbefore'⟩
      · exact hki.trans hki'.symm
      · exact absurd hbefore' ((hself jobId hstate).2 k' hne')
    · rcases hsends k' jobId hk' with ⟨_, hstate⟩ | ⟨_, hbefore'⟩
      · exact absurd hbefore ((hself jobId hstate).2 k hne)
      · exact h.alone k k' jobId hbefore hbefore'
  · rw [hloops]
    rcases hwaiters k hk with ⟨hki, hstate⟩ | ⟨hne, hbefore⟩
    · rw [hki, update_self, hstate]
    · rw [update_of_ne hne]
      exact h.asleep k hbefore

/-- A loop with a command out does not sleep. -/
theorem Shape.awake (h : p.Shape) (hsends : p.Sends i jobId) : i ∉ p.queue.wake.waiters := by
  intro hmem
  exact absurd ((h.asleep i hmem).symm.trans hsends) (by simp)

/-- Where a loop holds no job, taking its entry away changes nothing. -/
theorem Shape.idle_drawing (h : p.Shape) (hidle : (p.loops i).holds = none) :
    p.queue.drawing = update p.queue.drawing i none := by
  rw [← hidle, ← h.drawing i, update_eq_self]

/-! ### From the top of the loop

A loop that looks at the stack either finds nothing and goes to sleep, or takes the top of it and
sends its command; between the two there is no await.
-/

/-- It finds nothing, and goes to sleep. -/
theorem Shape.turn_nil (h : p.queue.stack = []) :
    p.turn i = { p with queue := { p.queue with
      stack := [], wake := p.queue.wake.clear.wait i } }.goto i .waiting := by
  unfold turn PlotQueue.take
  rw [h]
  rfl

/-- It takes the top of the stack. -/
theorem Shape.turn_cons {rest : List JobId} (hs : p.Shape) (h : p.queue.stack = jobId :: rest) :
    p.turn i = ({ p with queue := { p.queue with
      stack := rest, queued := p.queue.queued.erase jobId,
      drawing := update p.queue.drawing i (some jobId) } }.note jobId fun t =>
        { t with sends := t.sends + 1 }).goto i (.sending jobId) := by
  have hmem : jobId ∈ p.queue.queued := (hs.queued jobId).mpr (by rw [h]; exact List.mem_cons_self ..)
  unfold turn PlotQueue.take PlotQueue.takeFrom
  rw [h]
  simp only [hmem, if_true]

/-- A loop takes its turn. -/
theorem Good.turn (h : p.Good) (hi : i < p.queue.flights) (hopen : p.closing = false)
    (hidle : (p.loops i).holds = none) (hawake : i ∉ p.queue.wake.waiters) : (p.turn i).Good := by
  have hnot : ∀ jobId, ¬ p.Sends i jobId := by
    intro jobId hsends
    have hsends : p.loops i = .sending jobId := hsends
    rw [hsends] at hidle
    exact absurd hidle (by simp [DrainState.holds])
  have hclosed : ∀ {q : PlotPool}, q.closing = p.closing →
      q.closing = true → q.queue.wake.waiters = ∅ := by
    intro q hq hq'
    exact absurd (hq'.symm.trans (hq.trans hopen)) (by simp)
  cases hstack : p.queue.stack with
  | nil =>
      rw [Shape.turn_nil hstack]
      refine ⟨h.shape.goto hi rfl rfl (h.shape.idle_drawing hidle) List.nodup_nil (fun jobId => ?_)
        (fun _ _ _ _ => List.not_mem_nil) (fun _ hst => absurd hst (by simp)) (fun k hk => ?_)
        (hclosed rfl), fun jobId => ?_⟩
      · show jobId ∈ p.queue.queued ↔ jobId ∈ []
        rw [h.shape.queued, hstack]
      · have hk : k ∈ (p.queue.wake.clear.wait i).waiters := hk
        rw [Event.clear_wait_waiters] at hk
        by_cases hne : k = i
        · exact Or.inl ⟨hne, rfl⟩
        · exact Or.inr ⟨hne, Finset.mem_of_mem_insert_of_ne hk hne⟩
      · refine (h.accounts jobId).keep ?_ (flies_goto rfl (hnot jobId) (by simp)) rfl (Nat.le_refl _)
        rw [hstack]
        rfl
  | cons job rest =>
      rw [h.shape.turn_cons hstack]
      have hnodup := h.shape.nodup
      rw [hstack] at hnodup
      have hjob : job ∉ rest := (List.nodup_cons.mp hnodup).1
      have hother : ∀ {j}, j ≠ job → (j ∈ rest ↔ j ∈ p.queue.stack) := by
        intro j hj
        rw [hstack, List.mem_cons]
        exact ⟨Or.inr, fun hmem => hmem.resolve_left hj⟩
      refine ⟨h.shape.goto hi rfl rfl rfl (List.nodup_cons.mp hnodup).2 (fun j => ?_)
        (fun k j _ hk hmem => ?_) (fun j hst => ?_) (fun k hk => Or.inr ⟨?_, hk⟩) (hclosed rfl),
        fun j => ?_⟩
      · show j ∈ p.queue.queued.erase job ↔ j ∈ rest
        by_cases hj : j = job
        · subst hj
          exact ⟨fun hmem => absurd rfl (Finset.ne_of_mem_erase hmem), fun hmem => absurd hmem hjob⟩
        · rw [Finset.mem_erase, h.shape.queued, hother hj]
          exact ⟨And.right, fun hmem => ⟨hj, hmem⟩⟩
      · have hmem : j ∈ rest := hmem
        exact h.shape.unsent k j hk (by rw [hstack]; exact List.mem_cons_of_mem job hmem)
      · obtain rfl : job = j := DrainState.sending.inj hst
        refine ⟨hjob, fun k _ hk => h.shape.unsent k job hk ?_⟩
        rw [hstack]
        exact List.mem_cons_self ..
      · intro hx
        subst hx
        exact hawake hk
      · by_cases hj : j = job
        · subst hj
          have hacc : Account (j ∈ p.queue.stack) (∃ k, p.Sends k j) p.closing (p.queue.retries j)
            p.accepted (p.tickets j) := h.accounts j
          rw [hopen] at hacc
          show Account (j ∈ rest) _ p.closing (p.queue.retries j) p.accepted
            (update p.tickets j _ j)
          rw [hopen, update_self]
          refine hacc.send (by rw [hstack]; exact List.mem_cons_self ..) hjob ⟨i, ?_⟩
          exact update_self _ _ _
        · refine (h.accounts j).keep (hother hj) (flies_goto rfl (hnot j) ?_) ?_ (Nat.le_refl _)
          · exact fun heq => hj (DrainState.sending.inj heq).symm
          · show (p.closing, p.queue.retries j, update p.tickets job _ j) = _
            rw [update_of_ne hj]

/-! ### The other moves

The ways in which a command ends, each with the state its loop goes on to: an answer, an exception,
no child with a retry left or without one, and a cancellation.
-/

/-- A loop with no command out lets go of what it is said to draw. -/
theorem Good.passes {state : DrainState} (h : p.Good) (hi : i < p.queue.flights)
    (hnot : ∀ jobId, ¬ p.Sends i jobId) (hawake : i ∉ p.queue.wake.waiters)
    (hloops : p'.loops = update p.loops i state) (hstate : state = .top ∨ state = .ended)
    (hqueue : p'.queue = { p.queue with drawing := update p.queue.drawing i none })
    (hsame : (p'.closing, p'.accepted, p'.tickets) = (p.closing, p.accepted, p.tickets)) :
    p'.Good := by
  simp only [Prod.mk.injEq] at hsame
  obtain ⟨hclosing, haccepted, htickets⟩ := hsame
  have hst : (∀ jobId, state ≠ .sending jobId) ∧ state.holds = none := by
    rcases hstate with rfl | rfl <;> exact ⟨fun _ => by simp, rfl⟩
  refine ⟨h.shape.goto hi hloops ?_ ?_ ?_ ?_ ?_ (fun j hs => absurd hs (hst.1 j)) ?_ ?_,
    fun jobId => ?_⟩
  all_goals try rw [hqueue]
  · rw [hst.2]
  · exact h.shape.nodup
  · exact h.shape.queued
  · exact fun k jobId _ hk => h.shape.unsent k jobId hk
  · refine fun k hk => Or.inr ⟨?_, hk⟩
    intro heq
    subst heq
    exact hawake hk
  · rw [hclosing]
    exact h.shape.closed
  · refine (h.accounts jobId).keep (by rw [hqueue]) (flies_goto hloops (hnot jobId) (hst.1 jobId))
      ?_ haccepted.ge
    rw [hclosing, hqueue, htickets]

/-- A loop that is at anything else has no command out. -/
theorem Shape.not_sends {state : DrainState} (hs : p.loops i = state)
    (hstate : ∀ jobId, state ≠ .sending jobId) (jobId : JobId) : ¬ p.Sends i jobId := by
  intro hsends
  exact hstate jobId (hs.symm.trans hsends)

/-- A pause is over. -/
theorem Good.leave (h : p.Good) (hi : i < p.queue.flights) (hpausing : p.loops i = .pausing jobId) :
    (p.leave i).Good := by
  refine h.passes hi (Shape.not_sends hpausing (by simp)) (fun hmem => ?_) rfl (Or.inl rfl) rfl rfl
  exact absurd (hpausing.symm.trans (h.shape.asleep i hmem)) (by simp)

/-- A job's command came to an end, and its loop goes on to `state`. -/
theorem Good.settled {state : DrainState} {outcome : PlotOutcome} (h : p.Good)
    (hi : i < p.queue.flights) (hsends : p.Sends i jobId)
    (hloops : p'.loops = update p.loops i state)
    (hstate : state = .top ∨ state = .pausing jobId)
    (hdrawing : p'.queue.drawing = update p.queue.drawing i state.holds)
    (hqueue : (p'.queue.flights, p'.queue.stack, p'.queue.queued, p'.queue.wake) =
      (p.queue.flights, p.queue.stack, p.queue.queued, p.queue.wake))
    (hretries : p'.queue.retries = update p.queue.retries jobId 0)
    (htickets : p'.tickets = update p.tickets jobId (Ticket.last (fun t =>
      { t with outcomes := outcome :: t.outcomes }) (p.tickets jobId)))
    (hsame : (p'.closing, p'.accepted) = (p.closing, p.accepted)) : p'.Good := by
  simp only [Prod.mk.injEq] at hqueue hsame
  obtain ⟨hflights, hstack, hqueued, hwake⟩ := hqueue
  obtain ⟨hclosing, haccepted⟩ := hsame
  have hst : ∀ {j}, state ≠ .sending j := by
    intro j heq
    subst heq
    rcases hstate with hst | hst <;> exact absurd hst (by simp)
  refine ⟨h.shape.goto hi hloops hflights hdrawing ?_ ?_ ?_ (fun _ hs => absurd hs hst) ?_ ?_, ?_⟩
  · rw [hstack]
    exact h.shape.nodup
  · rw [hstack, hqueued]
    exact h.shape.queued
  · rw [hstack]
    exact fun k j _ hk => h.shape.unsent k j hk
  · rw [hwake]
    refine fun k hk => Or.inr ⟨?_, hk⟩
    intro heq
    subst heq
    exact h.shape.awake hsends hk
  · rw [hwake, hclosing]
    exact h.shape.closed
  · intro j
    by_cases hj : j = jobId
    · subst hj
      unfold Accounts
      rw [hstack, hretries, update_self, htickets, update_self, haccepted, hclosing]
      exact (h.accounts j).settle ⟨i, hsends⟩ (h.shape.unsent i j hsends)
        (not_flies_goto h.shape hloops hsends hst)
    · refine (h.accounts j).keep (by rw [hstack]) (flies_goto hloops ?_ hst) ?_ haccepted.ge
      · intro hk
        exact hj (DrainState.sending.inj (hk.symm.trans hsends))
      · rw [hclosing, hretries, update_of_ne hj, htickets, update_of_ne hj]

/-- A job ended, and its loop is at its top again. -/
theorem Good.settle_leave {outcome : PlotOutcome} (h : p.Good) (hi : i < p.queue.flights)
    (hsends : p.Sends i jobId) : ((p.settle jobId outcome).leave i).Good := by
  refine h.settled hi hsends rfl (Or.inl rfl) ?_ ?_ ?_ rfl rfl <;> cases outcome <;> rfl

/-- A job goes back on the stack, and its loop goes on to `state`. -/
theorem Good.returned {state : DrainState} (h : p.Good) (hi : i < p.queue.flights)
    (hsends : p.Sends i jobId) (hloops : p'.loops = update p.loops i state)
    (hstate : ∀ {j}, state ≠ .sending j)
    (hdrawing : p'.queue.drawing = update p.queue.drawing i state.holds)
    (hqueue : (p'.queue.flights, p'.queue.stack, p'.queue.queued, p'.queue.wake) =
      (p.queue.flights, jobId :: p.queue.stack, insert jobId p.queue.queued, p.queue.wake))
    (hsame : (p'.closing, p'.accepted, p'.tickets) = (p.closing, p.accepted, p.tickets))
    (hothers : ∀ j, j ≠ jobId → p'.queue.retries j = p.queue.retries j)
    (haccount : Account (jobId ∈ p'.queue.stack) (∃ k, p'.Sends k jobId) p.closing
      (p'.queue.retries jobId) p.accepted (p.tickets jobId)) : p'.Good := by
  simp only [Prod.mk.injEq] at hqueue hsame
  obtain ⟨hflights, hstack, hqueued, hwake⟩ := hqueue
  obtain ⟨hclosing, haccepted, htickets⟩ := hsame
  have hunsent := h.shape.unsent i jobId hsends
  refine ⟨h.shape.goto hi hloops hflights hdrawing ?_ ?_ ?_ (fun _ hs => absurd hs hstate) ?_ ?_, ?_⟩
  · rw [hstack]
    exact List.nodup_cons.mpr ⟨hunsent, h.shape.nodup⟩
  · intro j
    rw [hstack, hqueued, Finset.mem_insert, List.mem_cons, h.shape.queued]
  · intro k j hne hk
    rw [hstack]
    intro hmem
    rcases List.mem_cons.mp hmem with rfl | hrest
    · exact hne (h.shape.alone k i j hk hsends)
    · exact h.shape.unsent k j hk hrest
  · rw [hwake]
    refine fun k hk => Or.inr ⟨?_, hk⟩
    intro heq
    subst heq
    exact h.shape.awake hsends hk
  · rw [hwake, hclosing]
    exact h.shape.closed
  · intro j
    by_cases hj : j = jobId
    · subst hj
      unfold Accounts
      rw [hclosing, haccepted, htickets]
      exact haccount
    · refine (h.accounts j).keep ?_ (flies_goto hloops ?_ hstate) ?_ haccepted.ge
      · rw [hstack, List.mem_cons]
        exact ⟨fun hmem => hmem.resolve_left hj, Or.inr⟩
      · intro hk
        exact hj (DrainState.sending.inj (hk.symm.trans hsends))
      · rw [hclosing, hothers j hj, htickets]

/-- A loop that pauses is still said to draw its job. -/
theorem Shape.pausing_drawing (h : p.Shape) (hsends : p.Sends i jobId) :
    p.queue.drawing = update p.queue.drawing i (DrainState.pausing jobId).holds := by
  have hholds : (DrainState.pausing jobId).holds = (p.loops i).holds := by
    rw [show p.loops i = .sending jobId from hsends]
    rfl
  rw [hholds, ← h.drawing i, update_eq_self]

/-- A command found no child: the job is put back, or given up. -/
theorem Good.noChild {kind reason : String} (h : p.Good) (hi : i < p.queue.flights)
    (hopen : p.closing = false) (hsends : p.Sends i jobId) : (p.noChild i jobId kind reason).Good := by
  unfold PlotPool.noChild
  dsimp only
  by_cases htries : plotMaxRetries ≤ p.queue.retries jobId + 1
  · rw [if_pos htries]
    exact h.settled hi hsends rfl (Or.inr rfl) (h.shape.pausing_drawing hsends) rfl rfl rfl rfl
  · rw [if_neg htries]
    refine h.returned hi hsends rfl (by simp) (h.shape.pausing_drawing hsends) rfl rfl
      (fun j hj => update_of_ne hj _ _) ?_
    have hacc : Account (jobId ∈ p.queue.stack) (∃ k, p.Sends k jobId) p.closing
      (p.queue.retries jobId) p.accepted (p.tickets jobId) := h.accounts jobId
    rw [hopen] at hacc
    rw [hopen]
    show Account _ _ false (update p.queue.retries jobId _ jobId) _ _
    rw [update_self]
    exact hacc.putBack ⟨i, hsends⟩ (Nat.lt_of_not_le htries) (List.mem_cons_self ..)
        (not_flies_goto h.shape rfl hsends (by simp))

/-- A loop is cancelled, wherever it is. -/
theorem Good.cancelled (h : p.Good) (hi : i < p.queue.flights) (hclosing : p.closing = true) :
    (p.cancelled i).Good := by
  have hawake : i ∉ p.queue.wake.waiters := by
    rw [h.shape.closed hclosing]
    exact Finset.notMem_empty i
  have hidle : (p.loops i).holds = none → (∀ jobId, p.loops i ≠ .sending jobId) →
      (p.goto i .ended).Good := by
    intro hholds hnot
    refine h.passes hi hnot hawake rfl (Or.inr rfl) ?_ rfl
    rw [← h.shape.idle_drawing hholds]
    rfl
  unfold PlotPool.cancelled
  split
  · rename_i jobId hsends
    have hloops : update (update p.loops i .top) i .ended = update p.loops i .ended := update_idem _ _ _
    refine h.returned hi hsends hloops (by simp) rfl rfl rfl
      (fun _ _ => rfl) ?_
    have hacc : Account (jobId ∈ p.queue.stack) (∃ k, p.Sends k jobId) p.closing
      (p.queue.retries jobId) p.accepted (p.tickets jobId) := h.accounts jobId
    rw [hclosing] at hacc
    rw [hclosing]
    exact hacc.cancel ⟨i, hsends⟩ (List.mem_cons_self ..)
  · rename_i jobId hpausing
    exact h.passes hi (Shape.not_sends hpausing (by simp)) hawake (update_idem _ _ _) (Or.inr rfl)
      rfl rfl
  · rename_i hsending hpausing
    refine hidle ?_ hsending
    cases hl : p.loops i with
    | sending jobId => exact absurd hl (hsending jobId)
    | pausing jobId => exact absurd hl (hpausing jobId)
    | _ => rfl

theorem not_isDrawing (hs : p.Shape) (h : p.queue.isDrawing jobId = false) :
    ∀ k, (p.loops k).holds ≠ some jobId := by
  intro k hholds
  rw [← hs.drawing k] at hholds
  by_cases hk : k < p.queue.flights
  · unfold PlotQueue.isDrawing at h
    rw [List.any_eq_false] at h
    exact h k (List.mem_range.mpr hk) (decide_eq_true hholds)
  · rw [hs.drawing k, hs.beyond k (Nat.le_of_not_lt hk)] at hholds
    exact absurd hholds (by simp [DrainState.holds])

/-- What `enqueue` does to a job that it accepts. -/
theorem enqueue_accepted (hflights : p.queue.flights ≠ 0)
    (hfresh : ¬ (jobId ∈ p.queue.queued ∨ p.queue.isDrawing jobId = true)) :
    p.enqueue jobId = { p with
      queue := { p.queue with
        queued := insert jobId p.queue.queued
        stack := jobId :: p.queue.stack
        errors := p.queue.errors.pop jobId
        wake := p.queue.wake.set }
      tickets := update p.tickets jobId (⟨p.accepted, 0, []⟩ :: p.tickets jobId)
      accepted := p.accepted + 1 } := by
  unfold PlotPool.enqueue PlotQueue.enqueue
  rw [if_neg hflights, if_neg hfresh]
  rfl

/-- What `enqueue` refuses it leaves alone. -/
theorem enqueue_refused (h : p.queue.flights = 0 ∨ jobId ∈ p.queue.queued ∨
    p.queue.isDrawing jobId = true) : p.enqueue jobId = p := by
  unfold PlotPool.enqueue PlotQueue.enqueue
  by_cases hflights : p.queue.flights = 0
  · rw [if_pos hflights]
    rfl
  · rw [if_neg hflights, if_pos (h.resolve_left hflights)]
    rfl

/-- A job is asked for. -/
theorem Good.enqueue (h : p.Good) : (p.enqueue jobId).Good := by
  rcases enqueue_cases p jobId with hrefused | ⟨hflights, hfresh⟩
  · rw [hrefused]
    exact h
  rw [enqueue_accepted hflights hfresh]
  have hnot : jobId ∉ p.queue.stack := fun hmem => hfresh (Or.inl ((h.shape.queued jobId).mpr hmem))
  have hholds := not_isDrawing h.shape (Bool.eq_false_iff.mpr fun hd => hfresh (Or.inr hd))
  have hsends : ∀ k, ¬ p.Sends k jobId := by
    intro k hk
    refine hholds k ?_
    rw [show p.loops k = _ from hk]
    rfl
  refine ⟨⟨List.nodup_cons.mpr ⟨hnot, h.shape.nodup⟩, fun j => ?_, h.shape.drawing, h.shape.beyond,
    fun k j hk hmem => ?_, h.shape.alone, fun k hk => absurd hk (Finset.notMem_empty k),
    fun _ => rfl⟩, fun j => ?_⟩
  · show j ∈ insert jobId p.queue.queued ↔ j ∈ jobId :: p.queue.stack
    rw [Finset.mem_insert, List.mem_cons, h.shape.queued]
  · rcases List.mem_cons.mp hmem with rfl | hrest
    · exact hsends k hk
    · exact h.shape.unsent k j hk hrest
  · by_cases hj : j = jobId
    · subst hj
      show Account (j ∈ j :: p.queue.stack) _ p.closing _ _ (update p.tickets j _ j)
      rw [update_self]
      exact (h.accounts j).accept (fun hlive => hlive.elim hnot fun ⟨k, hk⟩ => hsends k hk)
        (List.mem_cons_self ..) fun ⟨k, hk⟩ => hsends k hk
    · refine (h.accounts j).keep ?_ Iff.rfl ?_ (Nat.le_succ _)
      · exact ⟨fun hmem => (List.mem_cons.mp hmem).resolve_left hj, List.mem_cons_of_mem jobId⟩
      · show (_, _, update p.tickets jobId _ j) = _
        rw [update_of_ne hj]

/-- The queue is shut down, and every loop is cancelled. -/
theorem Good.close (h : p.Good) :
    Good { p with closing := true, queue := { p.queue with wake := p.queue.wake.cancel } } := by
  refine ⟨⟨h.shape.nodup, h.shape.queued, h.shape.drawing, h.shape.beyond, h.shape.unsent,
    h.shape.alone, fun k hk => absurd hk (Finset.notMem_empty k), fun _ => rfl⟩, fun jobId => ?_⟩
  exact (h.accounts jobId).close

/-! ### One step, and every run

The cases of a step, each by its lemma above, and the run by induction.  The theorem then reads its
clauses off the two invariants.
-/

/-- The step lemma. -/
theorem Good.next {a : PlotAction} (h : p.Good) (hstep : p.next a = some p') : p'.Good := by
  have hm := next_moves hstep
  cases hm with
  | enqueue => exact h.enqueue
  | close => exact h.close
  | turn i a hopen hi hidle =>
      rcases hidle with htop | ⟨hwaiting, hawake⟩
      · refine h.turn hi hopen (by rw [htop]; rfl) fun hmem => ?_
        exact absurd (htop.symm.trans (h.shape.asleep i hmem)) (by simp)
      · exact h.turn hi hopen (by rw [hwaiting]; rfl) hawake
  | settled i jobId outcome result hopen hi hsends =>
      have htop : ((p.settle jobId outcome).leave i).loops i = .top := update_self _ _ _
      refine (h.settle_leave hi hsends).turn ?_ hopen (by rw [htop]; rfl) fun hmem => ?_
      · cases outcome <;> exact hi
      · exact absurd (htop.symm.trans ((h.settle_leave hi hsends).shape.asleep i hmem)) (by simp)
  | noChild i jobId kind reason hopen hi hsends => exact h.noChild hi hopen hsends
  | paused i jobId hopen hi hpausing =>
      have htop : (p.leave i).loops i = .top := update_self _ _ _
      refine (h.leave hi hpausing).turn hi hopen (by rw [htop]; rfl) fun hmem => ?_
      exact absurd (htop.symm.trans ((h.leave hi hpausing).shape.asleep i hmem)) (by simp)
  | cancelled i hclosing hi => exact h.cancelled hi hclosing

/-- Both invariants hold in every run. -/
theorem reach_good {ok : PlotPool → PlotAction → PlotPool → Prop} (h : plotSystem.Reach ok p) :
    p.Good := by
  refine h.invariant ?_ fun p a p' hp _ hstep => hp.next hstep
  intro _ hc
  obtain ⟨flights, rfl⟩ := hc
  have hfree : ∀ i jobId, ¬ (started flights).Sends i jobId := by
    intro i jobId hsends
    exact absurd (show DrainState.top = .sending jobId from hsends) (by simp)
  refine ⟨⟨List.nodup_nil, fun jobId => ?_, fun _ => rfl, fun _ _ => rfl, ?_, ?_, ?_, fun _ => rfl⟩,
    fun jobId => ?_⟩
  · exact ⟨fun hmem => absurd hmem (Finset.notMem_empty jobId),
      fun hmem => absurd hmem List.not_mem_nil⟩
  · exact fun i jobId hsends => absurd hsends (hfree i jobId)
  · exact fun i _ jobId hsends => absurd hsends (hfree i jobId)
  · exact fun i hi => absurd hi (Finset.notMem_empty i)
  · have hidle : ¬ (jobId ∈ (started flights).queue.stack ∨ ∃ i, (started flights).Sends i jobId) :=
      fun hlive => hlive.elim List.not_mem_nil fun ⟨i, hi⟩ => hfree i jobId hi
    refine ⟨fun hlive => absurd hlive hidle, fun t rest ht => absurd ht (by simp [started]),
      fun t ht => absurd ht List.not_mem_nil, fun t ht => absurd ht List.not_mem_nil, fun _ _ => rfl,
      fun _ => Nat.zero_lt_succ 5, fun _ hw => absurd (Or.inl hw) hidle,
      fun _ hf => absurd (Or.inr hf) hidle⟩

/-- **Conservation of plot work.**  In every state that any number of plot flights get to:
the stack repeats nothing and holds what the set holds; each accepted job is waiting, or has
one command out, or has come to one end; at most one of a job's tickets is open; no job has
two commands out; and no ticket had more than `PLOT_MAX_RETRIES` commands. -/
theorem plot_work_conserved (h : plotSystem.Reach System.always p) :
    p.queue.stack.Nodup ∧ (∀ jobId, jobId ∈ p.queue.queued ↔ jobId ∈ p.queue.stack) ∧
    (∀ jobId t, t ∈ p.tickets jobId →
      t.outcomes = [] ∧ jobId ∈ p.queue.stack ∧ (∀ i, ¬ p.Sends i jobId) ∨
      t.outcomes = [] ∧ jobId ∉ p.queue.stack ∧ (∃! i, p.Sends i jobId) ∨ t.Over) ∧
    (∀ jobId, jobId ∈ p.queue.stack ∨ (∃ i, p.Sends i jobId) →
      ∃ t rest, p.tickets jobId = t :: rest ∧ t.outcomes = [] ∧ ∀ u ∈ rest, u.Over) ∧
    (∀ jobId i i', p.Sends i jobId → p.Sends i' jobId → i = i') ∧
    ∀ jobId t, t ∈ p.tickets jobId → t.sends ≤ plotMaxRetries := by
  have hgood := reach_good h
  refine ⟨hgood.shape.nodup, hgood.shape.queued, fun jobId t ht => ?_, fun jobId hlive => ?_,
    fun jobId i i' => hgood.shape.alone i i' jobId, fun jobId t ht =>
      ((hgood.accounts jobId).bounded t ht).1⟩
  · obtain ⟨u, rest, htickets⟩ : ∃ u rest, p.tickets jobId = u :: rest :=
      List.exists_cons_of_ne_nil (List.ne_nil_of_mem ht)
    have holder := (hgood.accounts jobId).older
    rw [htickets] at ht holder
    rcases List.mem_cons.mp ht with rfl | hrest
    · obtain ⟨hopen, hover⟩ := (hgood.accounts jobId).last t rest htickets
      by_cases hwaits : jobId ∈ p.queue.stack
      · exact Or.inl ⟨hopen (Or.inl hwaits), hwaits,
          fun i hi => hgood.shape.unsent i jobId hi hwaits⟩
      · by_cases hflies : ∃ i, p.Sends i jobId
        · obtain ⟨i, hi⟩ := hflies
          exact Or.inr (Or.inl ⟨hopen (Or.inr ⟨i, hi⟩), hwaits, i, hi,
            fun k hk => hgood.shape.alone k i jobId hk hi⟩)
        · exact Or.inr (Or.inr (hover fun hlive => hlive.elim hwaits hflies))
    · exact Or.inr (Or.inr (holder t hrest))
  · obtain ⟨t, rest, htickets⟩ := List.exists_cons_of_ne_nil ((hgood.accounts jobId).known hlive)
    have holder := (hgood.accounts jobId).older
    rw [htickets] at holder
    exact ⟨t, rest, htickets, ((hgood.accounts jobId).last t rest htickets).1 hlive, holder⟩

/-- A job is queued, taken by flight 0, put back when that has no child, and taken by
flight 1. -/
def benchPutBack : List PlotAction :=
  [.enqueue "job", .begin 0, .sent 0 (.noChild "CoordinatorLost" "gone"), .begin 1]

/-- Such a job has had two commands, one of them is out, and it has not ended. -/
theorem plot_work_conserved_put_back :
    ∃ (p : PlotPool) (t : Ticket), t ∈ p.tickets "job" ∧ t.sends = 2 ∧ t.outcomes = [] ∧
      ∃! i, p.Sends i "job" := by
  obtain ⟨p, t, hp, ht, hsends, houtcomes, hnot⟩ : ∃ (p : PlotPool) (t : Ticket),
      System.follow PlotPool.next benchPutBack (started 2) = some p ∧ p.tickets "job" = [t] ∧
        t.sends = 2 ∧ t.outcomes = [] ∧ "job" ∉ p.queue.stack :=
    ⟨_, _, rfl, rfl, rfl, rfl, List.not_mem_nil⟩
  have hmem : t ∈ p.tickets "job" := by
    rw [ht]
    exact List.mem_cons_self ..
  refine ⟨p, t, hmem, hsends, houtcomes, ?_⟩
  rcases (plot_work_conserved (follow_reach hp)).2.2.1 "job" t hmem with
    ⟨_, hwaits, _⟩ | ⟨_, _, hone⟩ | ⟨_, hover⟩
  · exact absurd hwaits hnot
  · exact hone
  · exact absurd (houtcomes.symm.trans hover) (by simp)

end PlotPool

end DonutServer
