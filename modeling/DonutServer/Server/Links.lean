/-
Who holds `push_lock`, and who waits for it.

A push holds the lock of its flight from its first chunk to its answer.  So at any
time at most one request is past that point on a flight, and it is the one the lock
names.
-/
import DonutServer.Server.Moves

namespace DonutServer

open Function

variable {κ σ : Type} {n : Nat} {cfg : CoordSettings} {prog : ChildProgram κ σ}

/-! ### Where a push stands

A push stands nowhere until it asks for the lock, then in its queue, then in it.  The lock's own
books say the same from the other side, and `PushLinks` is that the two agree.
-/

/-- Where a push stands: on which flight, and whether it holds the lock yet. -/
def Progress.station : Progress n → Option (FlightId n × Bool)
  | .queued i _ => some (i, false)
  | .header i _ _ => some (i, true)
  | .body i _ _ => some (i, true)
  | .dispatched i _ _ _ => some (i, true)
  | _ => none

/-- A request that has been answered stands nowhere. -/
def Handler.station (h : Handler n) : Option (FlightId n × Bool) :=
  match h.reply with
  | none => h.progress.station
  | some _ => none

namespace Server

variable {s s' : Server κ n} {c : CallId} {i : FlightId n}

/-- Where request `c` stands. -/
def stationOf (s : Server κ n) (c : CallId) : Option (FlightId n × Bool) :=
  (s.handlers c).bind Handler.station

/-- Where a request stands at a lock is read off the point it has reached. -/
theorem stationOf_at {progress : Progress n} (h : s.At c progress) :
    s.stationOf c = progress.station := by
  have h : s.handlers c = some ⟨progress, none⟩ := h
  unfold stationOf
  rw [h]
  rfl

theorem stationOf_none (h : s.handlers c = none) : s.stationOf c = none := by
  unfold stationOf
  rw [h]
  rfl

/-- Every lock names the push that is past it, and queues the ones that are not. -/
structure PushLinks (s : Server κ n) : Prop where
  owner : ∀ i c, (s.pushLocks i).owner = some c ↔ s.stationOf c = some (i, true)
  waiter : ∀ i c, c ∈ (s.pushLocks i).waiters ↔ s.stationOf c = some (i, false)
  nodup : ∀ i, (s.pushLocks i).waiters.Nodup

/-- At most one push holds the lock of a flight. -/
theorem PushLinks.alone (h : s.PushLinks) {c' : CallId} (hc : s.stationOf c = some (i, true))
    (hc' : s.stationOf c' = some (i, true)) : c = c' :=
  Option.some.inj (((h.owner i c).mpr hc).symm.trans ((h.owner i c').mpr hc'))

/-! ### How the links change

A step changes where at most one request stands, and so at most one lock: four lemmas for the four
ways, and every move is an instance of one of them.
-/

/-- Only the locks and where the requests stand at them matter. -/
theorem PushLinks.same (h : s.PushLinks) (hlocks : s'.pushLocks = s.pushLocks)
    (hstation : ∀ c, s'.stationOf c = s.stationOf c) : s'.PushLinks := by
  refine ⟨?_, ?_, ?_⟩
  · intro i c
    rw [hlocks, hstation]
    exact h.owner i c
  · intro i c
    rw [hlocks, hstation]
    exact h.waiter i c
  · intro i
    rw [hlocks]
    exact h.nodup i

variable {handler : Handler n}

theorem stationOf_self (hhandlers : s'.handlers = update s.handlers c (some handler)) :
    s'.stationOf c = handler.station := by
  unfold stationOf
  rw [hhandlers, update_self]
  rfl

theorem stationOf_other {c' : CallId} (hhandlers : s'.handlers = update s.handlers c (some handler))
    (hne : c' ≠ c) : s'.stationOf c' = s.stationOf c' := by
  unfold stationOf
  rw [hhandlers, update_of_ne hne]

/-- A request that stands where it stood changes no lock. -/
theorem PushLinks.stay (h : s.PushLinks)
    (hhandlers : s'.handlers = update s.handlers c (some handler))
    (hlocks : s'.pushLocks = s.pushLocks)
    (hself : handler.station = s.stationOf c) : s'.PushLinks := by
  refine h.same hlocks fun c' => ?_
  by_cases hne : c' = c
  · rw [hne, stationOf_self hhandlers]
    exact hself
  · exact stationOf_other hhandlers hne

/-- A request that stands on flight `i`, or stood or will stand there, changes its lock alone. -/
theorem PushLinks.move {lock : FifoLock CallId CallId} (h : s.PushLinks)
    (hhandlers : s'.handlers = update s.handlers c (some handler))
    (hlocks : s'.pushLocks = update s.pushLocks i lock)
    (hafter : ∀ j b, handler.station = some (j, b) → j = i)
    (hbefore : ∀ j b, s.stationOf c = some (j, b) → j = i)
    (howner : ∀ c', lock.owner = some c' ↔ s'.stationOf c' = some (i, true))
    (hwaiter : ∀ c', c' ∈ lock.waiters ↔ s'.stationOf c' = some (i, false))
    (hnodup : lock.waiters.Nodup) : s'.PushLinks := by
  have helse : ∀ j b c', j ≠ i → (s'.stationOf c' = some (j, b) ↔ s.stationOf c' = some (j, b)) := by
    intro j b c' hj
    by_cases hne : c' = c
    · subst hne
      rw [stationOf_self hhandlers]
      exact ⟨fun ht => absurd (hafter j b ht) hj, fun ht => absurd (hbefore j b ht) hj⟩
    · rw [stationOf_other hhandlers hne]
  refine ⟨?_, ?_, ?_⟩
  · intro j c'
    by_cases hj : j = i
    · subst hj
      rw [hlocks, update_self]
      exact howner c'
    · rw [hlocks, update_of_ne hj, helse j true c' hj]
      exact h.owner j c'
  · intro j c'
    by_cases hj : j = i
    · subst hj
      rw [hlocks, update_self]
      exact hwaiter c'
    · rw [hlocks, update_of_ne hj, helse j false c' hj]
      exact h.waiter j c'
  · intro j
    by_cases hj : j = i
    · subst hj
      rw [hlocks, update_self]
      exact hnodup
    · rw [hlocks, update_of_ne hj]
      exact h.nodup j

/-- A push that is answered lets go of the lock it holds. -/
theorem PushLinks.release (h : s.PushLinks)
    (hhandlers : s'.handlers = update s.handlers c (some handler))
    (hlocks : s'.pushLocks = update s.pushLocks i (s.pushLocks i).release)
    (hstation : s.stationOf c = some (i, true)) (hended : handler.station = none) :
    s'.PushLinks := by
  refine h.move hhandlers hlocks ?_ ?_ ?_ ?_ (h.nodup i)
  · intro j b ht
    rw [hended] at ht
    exact absurd ht (by simp)
  · intro j b ht
    exact (Prod.mk.inj (Option.some.inj (hstation.symm.trans ht))).1.symm
  · intro c'
    refine ⟨fun ht => absurd ht (by simp), fun ht => ?_⟩
    by_cases hne : c' = c
    · rw [hne, stationOf_self hhandlers, hended] at ht
      exact absurd ht (by simp)
    · rw [stationOf_other hhandlers hne] at ht
      exact absurd (h.alone ht hstation) hne
  · intro c'
    rw [FifoLock.release_waiters, h.waiter i c']
    by_cases hne : c' = c
    · rw [hne, stationOf_self hhandlers, hended, hstation]
      simp
    · rw [stationOf_other hhandlers hne]

/-- A push takes a lock that nobody holds, and is not among the `lock`'s waiters, who are
all the others that wait. -/
theorem PushLinks.hold (lock : FifoLock CallId CallId) (h : s.PushLinks)
    (hhandlers : s'.handlers = update s.handlers c (some handler))
    (hlocks : s'.pushLocks = update s.pushLocks i (lock.hold c))
    (hfree : (s.pushLocks i).owner = none)
    (hbefore : s.stationOf c = none ∨ s.stationOf c = some (i, false))
    (hwaiters : ∀ c', c' ∈ lock.waiters ↔ c' ≠ c ∧ c' ∈ (s.pushLocks i).waiters)
    (hnodup : lock.waiters.Nodup) (hheld : handler.station = some (i, true)) : s'.PushLinks := by
  refine h.move hhandlers hlocks ?_ ?_ ?_ ?_ hnodup
  · intro j b ht
    exact (Prod.mk.inj (Option.some.inj (hheld.symm.trans ht))).1.symm
  · intro j b ht
    rcases hbefore with hn | hw
    · exact absurd (hn.symm.trans ht) (by simp)
    · exact (Prod.mk.inj (Option.some.inj (hw.symm.trans ht))).1.symm
  · intro c'
    by_cases hne : c' = c
    · rw [hne, stationOf_self hhandlers, hheld]
      exact ⟨fun _ => rfl, fun _ => rfl⟩
    · rw [stationOf_other hhandlers hne, ← h.owner i c', hfree]
      exact ⟨fun ht => absurd (Option.some.inj ht).symm hne, fun ht => absurd ht (by simp)⟩
  · intro c'
    rw [FifoLock.hold_waiters, hwaiters]
    by_cases hne : c' = c
    · rw [hne, stationOf_self hhandlers, hheld]
      simp
    · rw [stationOf_other hhandlers hne, h.waiter i c']
      exact ⟨fun ht => ht.2, fun ht => ⟨hne, ht⟩⟩

/-- A loss changes records, and no lock. -/
theorem noteLoss_locks {loss : Option Loss} :
    (s.noteLoss i loss).pushLocks = s.pushLocks ∧ (s.noteLoss i loss).handlers = s.handlers := by
  unfold noteLoss
  split <;> exact ⟨rfl, rfl⟩

/-- The step lemma. -/
theorem PushLinks.next {a : ServerAction σ n} (h : s.PushLinks)
    (hstep : s.next cfg prog a = some s') : s'.PushLinks := by
  have hm := next_moves hstep
  generalize hr : s.running = r at hm
  have h₀ : PushLinks { s with running := none } := h.same rfl fun _ => rfl
  cases hm with
  | tick => exact h₀.same rfl fun _ => rfl
  | refused c _ _ _ hc | resolve c _ _ _ _ hc | prepare c _ _ _ hc =>
      exact h₀.stay rfl rfl (stationOf_none hc).symm
  | unresolved c _ _ _ _ _ _ hc | turnedDown c _ _ _ _ _ _ _ hc | guarded c _ _ _ _ _ _ hc
  | prepareSubmitted c _ _ _ hc | invalid c _ _ _ hc | unprepared c _ _ _ _ _ _ _ hc
  | prepareFailed c _ _ _ _ _ _ _ hc | prepared c _ _ _ _ _ _ hc
  | preparedSubmitted c _ _ _ _ _ _ hc | uningested c _ _ _ _ _ hc
  | ingested c _ _ _ _ _ _ _ _ _ _ hc | chunkHeader c _ _ _ _ _ _ hc
  | chunkBody c _ _ _ _ _ _ hc | headerAccepted c _ _ _ _ _ _ _ hc
  | dispatched c _ _ _ _ _ _ hc =>
      exact h₀.stay rfl rfl (stationOf_at hc).symm
  | ingest c _ _ _ _ _ _ _ hc =>
      rcases hc with ⟨hc, _⟩ | ⟨_, _, hc, _⟩
      · exact h₀.stay rfl rfl (stationOf_none hc).symm
      · exact h₀.stay rfl rfl (stationOf_at hc).symm
  | overflow c _ _ i _ _ _ hp hc | disconnect c i _ _ _ hp hc =>
      cases hp with
      | header | body => exact h₀.release rfl rfl (stationOf_at hc) rfl
  | headerRefused c _ i _ _ _ _ hc | layoutRefused c i _ _ _ _ hc | layoutCrashed c i _ _ _ hc
  | pushed c i _ _ _ _ _ _ _ hc =>
      exact h₀.release rfl rfl (stationOf_at hc) rfl
  | pushQueued c request _ hc _ _ hlock =>
      have hnone := stationOf_none hc
      have hfresh : ∀ i, c ∉ (s.pushLocks i).waiters := by
        intro i hmem
        exact absurd (hnone.symm.trans ((h.waiter i c).mp hmem)) (by simp)
      refine h₀.move rfl rfl ?_ ?_ ?_ ?_ ?_
      · intro j b ht
        exact (Prod.mk.inj (Option.some.inj ht)).1.symm
      · intro j b ht
        exact absurd (hnone.symm.trans ht) (by simp)
      · intro c'
        by_cases hne : c' = c
        · rw [hne, stationOf_self rfl]
          refine ⟨fun ht => ?_, fun ht => absurd ht (by simp [Handler.station, Progress.station])⟩
          exact absurd (hnone.symm.trans ((h.owner _ c).mp ht)) (by simp)
        · rw [stationOf_other (c := c) rfl hne]
          exact h₀.owner _ c'
      · intro c'
        rw [FifoLock.enqueue_waiters, List.mem_append, List.mem_singleton]
        by_cases hne : c' = c
        · rw [hne, stationOf_self rfl]
          exact ⟨fun _ => rfl, fun _ => Or.inr rfl⟩
        · rw [stationOf_other (c := c) rfl hne]
          exact ⟨fun ht => (h₀.waiter _ c').mp (ht.resolve_right hne),
            fun ht => Or.inl ((h₀.waiter _ c').mpr ht)⟩
      · rw [FifoLock.enqueue_waiters]
        refine List.nodup_append.mpr ⟨h.nodup _, List.nodup_singleton c, ?_⟩
        intro a ha b hb hab
        rw [hab, List.mem_singleton.mp hb] at ha
        exact hfresh _ ha
  | pushBegun c request _ hc _ _ hlock =>
      have hnone := stationOf_none hc
      obtain ⟨hfree, hempty⟩ := FifoLock.uncontended_iff.mp hlock
      refine h₀.hold _ rfl rfl hfree (Or.inl hnone) ?_ (h.nodup _) rfl
      intro c'
      refine ⟨fun hmem => ⟨?_, hmem⟩, fun hmem => hmem.2⟩
      intro heq
      subst heq
      exact absurd (hnone.symm.trans ((h.waiter _ c').mp hmem)) (by simp)
  | pushGranted c i j request lock hlock hc =>
      obtain ⟨hfree, hwaiters, _⟩ := FifoLock.next?_eq_some.mp hlock
      have hmem : c ∈ (s.pushLocks i).waiters := by
        rw [show (s.pushLocks i).waiters = c :: lock.waiters from hwaiters]
        exact List.mem_cons_self
      have hnodup : (c :: lock.waiters).Nodup := by
        rw [← show (s.pushLocks i).waiters = c :: lock.waiters from hwaiters]
        exact h.nodup i
      refine PushLinks.hold (i := i) lock h₀ rfl ?_ hfree (Or.inr ((h.waiter i c).mp hmem)) ?_
        (List.nodup_cons.mp hnodup).2 rfl
      · show update (update s.pushLocks i lock) i ((update s.pushLocks i lock i).hold c) =
          update s.pushLocks i (lock.hold c)
        rw [update_self, update_idem]
      · intro c'
        rw [show (s.pushLocks i).waiters = c :: lock.waiters from hwaiters, List.mem_cons]
        constructor
        · intro hm
          refine ⟨?_, Or.inr hm⟩
          intro heq
          subst heq
          exact (List.nodup_cons.mp hnodup).1 hm
        · intro hm
          exact hm.2.resolve_left hm.1
  | flight i a f e hcall hflight =>
      refine h₀.same noteLoss_locks.1 fun c' => ?_
      have hsame : (Server.noteLoss i e.loss { s with running := none }).handlers = s.handlers :=
        noteLoss_locks.2
      show ((Server.noteLoss i e.loss { s with running := none }).handlers c').bind _ = _
      rw [hsame]
      rfl

/-- It is so in every run. -/
theorem reach_pushLinks {ok : Server κ n → ServerAction σ n → Server κ n → Prop}
    (h : (serverSystem n cfg prog).Reach ok s) : s.PushLinks := by
  refine h.invariant ?_ fun s a s' hs _ hstep => hs.next hstep
  intro _ hc
  obtain ⟨_, _, rfl⟩ := hc
  refine ⟨fun i c => ?_, fun i c => ?_, fun i => List.nodup_nil⟩
  · simp [started, FifoLock.free, stationOf]
  · simp [started, FifoLock.free, stationOf]

/-- The push whose turn it is was queued for that lock. -/
theorem PushLinks.granted {progress : Progress n} {lock : FifoLock CallId CallId} (h : s.PushLinks)
    (hlock : (s.pushLocks i).next? = some (c, lock)) (hc : s.At c progress) :
    progress.station = some (i, false) := by
  obtain ⟨_, hwaiters, _⟩ := FifoLock.next?_eq_some.mp hlock
  rw [← stationOf_at hc]
  refine (h.waiter i c).mp ?_
  rw [hwaiters]
  exact List.mem_cons_self

end Server

end DonutServer
