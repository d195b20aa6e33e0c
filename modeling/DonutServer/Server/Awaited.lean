/-
The requests a flight serves.

Every call that a flight knows of, in the queue for its lock or past it, is the call of a
request that awaits the answer to just that command from just that flight; and a request
that has its answer is known to no flight any more.  So what a flight does for a caller it
does for the request with that number.
-/
import DonutServer.Flight.Callers
import DonutServer.Flight.Reading
import DonutServer.Flight.Lifecycle
import DonutServer.Server.Links

namespace DonutServer

open Function

variable {κ σ : Type} {n : Nat} {cfg : CoordSettings} {prog : ChildProgram κ σ}

namespace Server

variable {s s' : Server κ n} {c : CallId} {i : FlightId n}

/-! ### Requests and calls

A request has the number of its call, and it makes one call at a time, so a flight's list of
callers can be compared with the stages of the requests without further ado.
-/

/-- Request `c` awaits the answer to the command from flight `i`. -/
def Awaits (s : Server κ n) (c : CallId) (i : FlightId n) (command : Command) : Prop :=
  ∃ progress, s.At c progress ∧ progress.sent = some (i, command)

/-- No flight knows of request `c`. -/
def Uncalled (s : Server κ n) (c : CallId) : Prop :=
  ∀ i command, (c, command) ∉ (s.flights i).callers

/-- Every call a flight knows of is that of a request which awaits it. -/
structure Awaited (s : Server κ n) : Prop where
  nodup : ∀ i, ((s.flights i).callers.map Prod.fst).Nodup
  waits : ∀ i c command, (c, command) ∈ (s.flights i).callers → s.Awaits c i command
  ended : ∀ c r, s.running = some (c, .result r) → s.Uncalled c

theorem Awaits.unique {j : FlightId n} {command command' : Command} (h : s.Awaits c i command)
    (h' : s.Awaits c j command') : i = j ∧ command = command' := by
  obtain ⟨p, hp, hsent⟩ := h
  obtain ⟨p', hp', hsent'⟩ := h'
  have heq : p = p' := congrArg Handler.progress (Option.some.inj (hp.symm.trans hp'))
  rw [heq] at hsent
  exact Prod.mk.inj (Option.some.inj (hsent.symm.trans hsent'))

theorem Awaited.uncalled_of_none (h : s.Awaited) (hc : s.handlers c = none) : s.Uncalled c := by
  intro i command hmem
  obtain ⟨p, hp, _⟩ := h.waits i c command hmem
  exact absurd (hc.symm.trans hp) (by simp)

/-- A request that has sent nothing is known to no flight. -/
theorem Awaited.uncalled_at {progress : Progress n} (h : s.Awaited) (hc : s.At c progress)
    (hsent : progress.sent = none) : s.Uncalled c := by
  intro i command hmem
  obtain ⟨p, hp, hs⟩ := h.waits i c command hmem
  rw [show p = progress from congrArg Handler.progress (Option.some.inj (hp.symm.trans hc))] at hs
  exact absurd (hsent.symm.trans hs) (by simp)

/-! ### A request takes a step

A request may send a command only when no flight knows of it, and is known to one flight
afterwards.  When its call ends it is the task to be run next, and known to none again.
-/

/-- Whoever else waits goes on waiting. -/
theorem Awaits.other {handler : Handler n} {c' : CallId} {command : Command}
    (h : s.Awaits c' i command) (hhandlers : s'.handlers = update s.handlers c (some handler))
    (hne : c' ≠ c) : s'.Awaits c' i command := by
  obtain ⟨p, hp, hsent⟩ := h
  refine ⟨p, ?_, hsent⟩
  show s'.handlers c' = _
  rw [hhandlers, update_of_ne hne]
  exact hp

/-- Nobody's request is touched but that of `c`, which no flight knows of. -/
theorem Awaited.step {handler : Handler n} (h : s.Awaited) (hc : s.Uncalled c)
    (hflights : s'.flights = s.flights)
    (hhandlers : s'.handlers = update s.handlers c (some handler))
    (hrunning : ∀ c r, s'.running ≠ some (c, .result r)) : s'.Awaited := by
  refine ⟨?_, ?_, fun c r hr => absurd hr (hrunning c r)⟩
  · rw [hflights]
    exact h.nodup
  · intro i c' command hmem
    rw [hflights] at hmem
    refine (h.waits i c' command hmem).other hhandlers ?_
    intro hne
    rw [hne] at hmem
    exact hc i command hmem

/-- A flight lets some of its calls go on waiting, and one come to its end. -/
theorem Awaited.leaves {r : Flight.After κ} {l : List (CallId × Command)} (h : s.Awaited)
    (hflights : s'.flights = update s.flights i r.1)
    (hrunning : s'.running = r.2.finished.map fun q => (q.1, .result q.2))
    (hl : Flight.Leaves l r) (hnodup : (l.map Prod.fst).Nodup)
    (hwaits : ∀ c command, (c, command) ∈ l → s'.Awaits c i command)
    (hothers : ∀ j c command, j ≠ i → (c, command) ∈ (s.flights j).callers →
      s'.Awaits c j command) : s'.Awaited := by
  have hsublist : r.1.callers.Sublist l := by
    unfold Flight.Leaves at hl
    split at hl
    · exact hl
    · obtain ⟨command, hsub⟩ := hl
      exact (List.sublist_cons_self _ _).trans hsub
  have hall : ∀ j c command, (c, command) ∈ (s'.flights j).callers → s'.Awaits c j command := by
    intro j c command hmem
    rw [hflights] at hmem
    by_cases hj : j = i
    · subst hj
      rw [update_self] at hmem
      exact hwaits c command (hsublist.subset hmem)
    · rw [update_of_ne hj] at hmem
      exact hothers j c command hj hmem
  refine ⟨fun j => ?_, hall, fun c q hr j command hmem => ?_⟩
  · rw [hflights]
    by_cases hj : j = i
    · subst hj
      rw [update_self]
      exact hnodup.sublist (hsublist.map Prod.fst)
    · rw [update_of_ne hj]
      exact h.nodup j
  · rw [hrunning] at hr
    obtain ⟨⟨c', q'⟩, hfinished, heq⟩ := Option.map_eq_some_iff.mp hr
    obtain ⟨rfl, -⟩ := Prod.mk.inj heq
    unfold Flight.Leaves at hl
    rw [hfinished] at hl
    obtain ⟨command', hsub⟩ := hl
    have hended : s'.Awaits c' i command' := hwaits c' command' (hsub.subset List.mem_cons_self)
    obtain ⟨rfl, -⟩ := hended.unique (hall j c' command hmem)
    rw [hflights, update_self] at hmem
    have hfresh := hnodup.sublist (hsub.map Prod.fst)
    rw [List.map_cons, List.nodup_cons] at hfresh
    exact hfresh.1 (List.mem_map.mpr ⟨_, hmem, rfl⟩)

/-- A request that no flight knows of sends a command, and awaits the answer. -/
theorem Awaited.send {t : Server κ n} {progress : Progress n} {command : Command} (h : s.Awaited)
    (hc : s.Uncalled c) (hflights : t.flights = s.flights)
    (hhandlers : t.handlers = update s.handlers c (some ⟨progress, none⟩))
    (hsent : progress.sent = some (i, command)) : (t.sendCommand i c command).Awaited := by
  have hself : t.Awaits c i command := by
    refine ⟨progress, ?_, hsent⟩
    show t.handlers c = _
    rw [hhandlers, update_self]
  have hother : ∀ j c' command', (c', command') ∈ (s.flights j).callers → t.Awaits c' j command' := by
    intro j c' command' hmem
    refine (h.waits j c' command' hmem).other hhandlers ?_
    intro hne
    rw [hne] at hmem
    exact hc j command' hmem
  have hcalled := Flight.call_leaves (f := t.flights i) c command
  rw [hflights] at hcalled
  refine h.leaves (i := i) ?_ ?_ hcalled ?_ ?_ fun j c' command' _ hmem => hother j c' command' hmem
  · show update t.flights i _ = _
    rw [hflights]
  · show (((t.flights i).call c command).2.finished.map _) = _
    rw [hflights]
  · rw [List.map_append]
    refine List.nodup_append.mpr ⟨h.nodup i, List.nodup_singleton c, ?_⟩
    intro a ha b hb hab
    obtain ⟨⟨c', command'⟩, hmem, rfl⟩ := List.mem_map.mp ha
    rw [show c' = c from hab.trans (List.mem_singleton.mp hb)] at hmem
    exact hc i command' hmem
  · intro c' command' hmem
    rcases List.mem_append.mp hmem with hold | hnew
    · exact hother i c' command' hold
    · obtain ⟨rfl, rfl⟩ := Prod.mk.inj (List.mem_singleton.mp hnew)
      exact hself

/-- The step lemma. -/
theorem Awaited.next {a : ServerAction σ n} (h : s.Awaited) (hstep : s.next cfg prog a = some s') :
    s'.Awaited := by
  have hm := next_moves hstep
  generalize hr : s.running = r at hm
  have h₀ : Awaited { s with running := none } :=
    ⟨h.nodup, h.waits, fun c r hr => absurd hr (by simp)⟩
  have hrest : ∀ c r, (none : Option (CallId × Resumption)) ≠ some (c, .result r) := by simp
  have hdone : ∀ {c : CallId} {q : Result}, r = some (c, .result q) →
      Uncalled { s with running := none } c := fun hq => h.ended _ _ (hr.trans hq)
  cases hm with
  | tick => exact ⟨h.nodup, h.waits, fun c r hr => absurd hr (by simp)⟩
  | refused c _ _ _ hc =>
      exact h₀.step (h₀.uncalled_of_none hc) rfl rfl hrest
  | pushQueued c _ _ hc | pushBegun c _ _ hc =>
      exact h₀.step (h₀.uncalled_of_none hc) rfl rfl hrest
  | resolve c _ _ _ _ hc | prepare c _ _ _ hc =>
      exact h₀.send (h₀.uncalled_of_none hc) rfl rfl rfl
  | unresolved c | turnedDown c | unprepared c | prepareFailed c | prepared c | ingested c
  | pushed c =>
      exact h₀.step (hdone rfl) rfl rfl hrest
  | guarded c | preparedSubmitted c =>
      refine h₀.step (hdone rfl) rfl rfl fun c' r' heq => ?_
      exact absurd (Prod.mk.inj (Option.some.inj heq)).2 (by simp)
  | prepareSubmitted c _ _ _ hc => exact h₀.send (h₀.uncalled_at hc rfl) rfl rfl rfl
  | invalid c _ _ _ hc | uningested c _ _ _ _ _ hc | pushGranted c _ _ _ _ _ hc
  | headerRefused c _ _ _ _ _ _ hc | layoutRefused c _ _ _ _ _ hc | layoutCrashed c _ _ _ _ hc =>
      exact h₀.step (h₀.uncalled_at hc rfl) rfl rfl hrest
  | ingest c _ _ _ _ _ _ _ hc =>
      rcases hc with ⟨hc, _⟩ | ⟨_, _, hc, _⟩
      · exact h₀.send (h₀.uncalled_of_none hc) rfl rfl rfl
      · exact h₀.send (h₀.uncalled_at hc rfl) rfl rfl rfl
  | overflow c _ _ _ _ _ _ hp hc | disconnect c _ _ _ _ hp hc =>
      have hsent := h₀.uncalled_at hc (by cases hp <;> rfl)
      exact h₀.step hsent rfl rfl hrest
  | chunkHeader c _ _ _ _ _ _ hc _ _ _ hrunning | chunkBody c _ _ _ _ _ _ hc _ _ _ hrunning
  | headerAccepted c _ _ _ _ _ _ _ hc _ hrunning =>
      exact h₀.step (h₀.uncalled_at hc rfl) rfl rfl (reading_running hrunning (by simp))
  | dispatched c _ _ _ _ _ _ hc => exact h₀.send (h₀.uncalled_at hc rfl) rfl rfl rfl
  | flight i a f e hcall hflight =>
      have hkept : ∀ j c command, (c, command) ∈ (s.flights j).callers →
          Awaits { noteLoss i e.loss { s with running := none } with
            flights := update s.flights i f
            running := e.finished.map fun q => (q.1, .result q.2) } c j command := by
        intro j c command hmem
        obtain ⟨p, hp, hsent⟩ := h.waits j c command hmem
        refine ⟨p, ?_, hsent⟩
        exact (congrFun (noteLoss_locks (s := { s with running := none })).2 c).trans hp
      exact h₀.leaves (r := (f, e)) rfl rfl (Flight.next_leaves hcall hflight) (h.nodup i)
        (fun c command hmem => hkept i c command hmem) fun j c command _ hmem => hkept j c command hmem

theorem reach_awaited {ok : Server κ n → ServerAction σ n → Server κ n → Prop}
    (h : (serverSystem n cfg prog).Reach ok s) : s.Awaited := by
  refine h.invariant ?_ fun s a s' hs _ hstep => hs.next hstep
  intro _ hc
  obtain ⟨_, _, rfl⟩ := hc
  refine ⟨fun i => ?_, fun i c command hmem => ?_, fun c r hr => absurd hr (by simp [started])⟩
  · show ((Flight.started prog).callers.map Prod.fst).Nodup
    exact List.nodup_nil
  · have hmem : (c, command) ∈ (Flight.started prog).callers := hmem
    rw [Flight.started_callers] at hmem
    exact absurd hmem List.not_mem_nil

/-! ### Flights that are restarted at safe moments

Whatever the server does to a flight is a step of that flight, `send_command` included.  So what a
flight keeps in every run of its own it keeps in every run of the server; the one condition, on an
operator's restarts, is handed down to it.
-/

/-- No operator's restart of a flight comes at a bad moment. -/
def restartsSafely (s : Server κ n) (a : ServerAction σ n) (_ : Server κ n) : Prop :=
  ∀ i reason, a = .flight i (.requestRestart reason) → (s.flights i).SafeToRestart

/-- A step that is no operator's restart, as a test. -/
def restartsNone (_ : Server κ n) : ServerAction σ n → Bool
  | .flight _ (.requestRestart _) => false
  | _ => true

theorem restartsNone_safely {a : ServerAction σ n} (h : s.restartsNone a = true) :
    restartsSafely s a s' := by
  intro i reason heq
  rw [heq] at h
  exact absurd h (by simp [restartsNone])

/-- Each flight keeps what it keeps when it is alone. -/
def Sound (prog : ChildProgram κ σ) (s : Server κ n) : Prop :=
  ∀ i, Flight.Inv prog (s.flights i) ∧ (∃ l, (s.flights i).Shows l) ∧ (s.flights i).Attended

theorem Sound.update {f : Flight κ} (h : s.Sound prog) (hflights : s'.flights = update s.flights i f)
    (hf : Flight.Inv prog f ∧ (∃ l, f.Shows l) ∧ f.Attended) : s'.Sound prog := by
  intro j
  rw [hflights]
  by_cases hj : j = i
  · subst hj
    rw [update_self]
    exact hf
  · rw [update_of_ne hj]
    exact h j

theorem Sound.flight {a : FlightAction σ} {f : Flight κ} {e : Effects} (h : s.Sound prog)
    (hsafe : Flight.safeRestarts (s.flights i) a f)
    (hstep : (s.flights i).next cfg prog a = some (f, e)) :
    Flight.Inv prog f ∧ (∃ l, f.Shows l) ∧ f.Attended := by
  obtain ⟨hi, ⟨l, hl⟩, hattended⟩ := h i
  obtain ⟨l', _, hl'⟩ := Flight.next_life hi hl hsafe hstep
  exact ⟨Flight.next_inv hi hl'.atMostOneBringUp hstep, ⟨l', hl'⟩,
    hattended.next hi.serial hstep⟩

/-- Sending a command is a step of the flight it is sent to. -/
theorem Sound.sendCommand {command : Command} (cfg : CoordSettings) (h : s.Sound prog) :
    (s.sendCommand i c command).Sound prog := by
  have hstep : (s.flights i).next cfg prog (.call c command) =
      some (((s.flights i).call c command).1, ((s.flights i).call c command).2) := rfl
  exact h.update rfl (h.flight (fun _ heq => absurd heq (by simp)) hstep)

/-- The step lemma. -/
theorem Sound.next {a : ServerAction σ n} (h : s.Sound prog) (hsafe : restartsSafely s a s')
    (hstep : s.next cfg prog a = some s') : s'.Sound prog := by
  have hm := next_moves hstep
  generalize hr : s.running = r at hm
  have h₀ : Sound prog { s with running := none } := h
  cases hm with
  | resolve | prepare | prepareSubmitted | ingest | dispatched => exact Sound.sendCommand cfg h₀
  | flight i a f e hcall hflight =>
      refine h₀.update rfl (h.flight (fun reason heq => hsafe i reason ?_) hflight)
      rw [heq]
  | _ => exact h

theorem reach_sound (h : (serverSystem n cfg prog).Reach restartsSafely s) : s.Sound prog := by
  refine h.invariant ?_ fun s a s' hs hok hstep => hs.next hok hstep
  intro _ hc i
  obtain ⟨_, _, rfl⟩ := hc
  exact ⟨Flight.started_inv, ⟨_, Flight.started_shows⟩, Flight.started_attended⟩

end Server

end DonutServer
