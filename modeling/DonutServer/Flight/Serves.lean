/-
The call that is with the child.

Of those who wait for a flight at most one is served: it holds the lock, and its command is
with the reader thread or with the child.  It is served from the step that hands its command
over until the one that resumes it, and no bring-up, restart or step of the thread serves
anybody else.
-/
import DonutServer.Flight.Callers

namespace DonutServer

open Function

variable {κ σ : Type} {prog : ChildProgram κ σ} {cfg : CoordSettings}

namespace Flight

variable {f f' g : Flight κ} {w : BringUpTask}

/-! ### Who is served

Being served is a property of the lock's holder: it has handed its command over and has not been
resumed.  A step can take it from somebody by resuming them, and give it to somebody only by
handing a command over, which only the holder does.
-/

/-- The command of call `c` is with the reader thread, or with the child. -/
def Serves (f : Flight κ) (c : CallId) (command : Command) : Prop :=
  ∃ k tag out, f.lock.owner = some (.call c command (.exchanging k tag out))

/-- The command that the step hands to the thread, for a caller that had to wait for the lock
or for the flight to be ready. -/
def handsOver (f : Flight κ) : FlightAction σ → Option Command
  | .takeLock =>
      match f.lock.next? with
      | some (.call _ command, _) =>
          if f.state = .ready ∧ f.child.isSome then some command else none
      | _ => none
  | .resumeCaller =>
      match f.lock.owner with
      | some (.call _ command (.waiting true)) =>
          if f.state = .ready ∧ f.child.isSome then some command else none
      | _ => none
  | _ => none

/-- Whoever is served has called. -/
theorem Serves.mem_callers {c : CallId} {command : Command} (h : f.Serves c command) :
    (c, command) ∈ f.callers := by
  obtain ⟨k, tag, out, howner⟩ := h
  rw [callers_of_owner howner]
  exact List.mem_append_left _ (by simp [Holder.caller])

/-! ### Steps that serve nobody new

For most steps it is enough that whoever is served after them was served before.  The relation is
transitive along the small updates, so each segment is read as a chain of these.
-/

/-- Nothing is served that was not. -/
def ServesOnly (f f' : Flight κ) : Prop := ∀ c command, f'.Serves c command → f.Serves c command

theorem servesOnly_refl : ServesOnly f f := fun _ _ h => h

/-- Only the lock is looked at. -/
theorem ServesOnly.same (h : ServesOnly g f) (hlock : f'.lock = f.lock) :
    ServesOnly g f' := by
  intro c command hc
  obtain ⟨k, tag, out, howner⟩ := hc
  rw [hlock] at howner
  exact h c command ⟨k, tag, out, howner⟩

/-- A lock that nobody holds, or that is held for something else, serves nobody. -/
theorem servesOnly_of_owner
    (h : ∀ c command k tag out, f.lock.owner ≠ some (.call c command (.exchanging k tag out))) :
    ServesOnly g f := by
  intro c command hc
  obtain ⟨k, tag, out, howner⟩ := hc
  exact absurd howner (h c command k tag out)

theorem ServesOnly.endBringUp (h : ServesOnly g f) :
    ServesOnly g (endBringUp w f) := by
  cases w with
  | startup => exact h.same rfl
  | restart => exact servesOnly_of_owner fun _ _ _ _ _ heq => absurd heq (by simp [Flight.endBringUp])

theorem ServesOnly.setReady (h : ServesOnly g f) : ServesOnly g (setReady f) := by
  intro c command hc
  obtain ⟨k, tag, out, howner⟩ := hc
  obtain ⟨holder, hholder, hwake⟩ := Option.map_eq_some_iff.mp howner
  rw [wake_eq_exchanging.mp hwake] at hholder
  exact h c command ⟨k, tag, out, hholder⟩

theorem ServesOnly.bringUpLoop (h : ServesOnly g f) :
    ServesOnly g (bringUpLoop cfg w f) := by
  unfold Flight.bringUpLoop
  split
  · exact h.endBringUp
  · split
    · exact ServesOnly.endBringUp (ServesOnly.setReady (h.same rfl))
    · dsimp only
      split <;> exact h.same rfl

theorem ServesOnly.readyUp (h : ServesOnly g f) : ServesOnly g (readyUp w f) :=
  ServesOnly.endBringUp (ServesOnly.setReady (h.same rfl))

theorem ServesOnly.reprime (h : ServesOnly g f) : ServesOnly g (reprime w f) := by
  unfold Flight.reprime
  split
  · exact h.readyUp
  · split
    · exact h.readyUp
    · split
      · exact ServesOnly.readyUp (h.same rfl)
      · exact h.same rfl

theorem ServesOnly.afterHello {out : Outcome} (h : ServesOnly g f) :
    ServesOnly g (afterHello cfg w out f).1 := by
  unfold Flight.afterHello
  dsimp only
  split
  · exact ServesOnly.bringUpLoop (h.same rfl)
  · split
    · exact h.same rfl
    · exact ServesOnly.reprime (h.same rfl)
    · exact ServesOnly.bringUpLoop (h.same rfl)

theorem ServesOnly.afterReprime {args : PrepareCommand} {out : Outcome}
    (h : ServesOnly g f) : ServesOnly g (afterReprime cfg w args out f).1 := by
  unfold Flight.afterReprime
  dsimp only
  split
  · exact ServesOnly.bringUpLoop (h.same rfl)
  · split <;> exact ServesOnly.readyUp (h.same rfl)

theorem resumeBringUp_serves {e : Effects} (h : f.resumeBringUp cfg prog w = some (f', e)) :
    ServesOnly f f' := by
  have hrefl : ServesOnly f f := servesOnly_refl
  cases resumeBringUp_resumed h with
  | startup htask => exact hrefl.bringUpLoop
  | restart htask hstartup hfree =>
      exact ServesOnly.bringUpLoop (servesOnly_of_owner fun _ _ _ _ _ => by simp)
  | queued htask hstartup => exact fun _ _ hserves => hserves
  | backoff w htask => exact hrefl.same rfl
  | reaped w htask => exact hrefl.same rfl
  | gaveUp w fatal htask => exact hrefl.setReady.endBringUp
  | hello w k out htask => exact hrefl.afterHello
  | reprimed w k tag args out htask => exact hrefl.afterReprime

theorem ServesOnly.startRestart (h : ServesOnly g f) :
    ServesOnly g (startRestart f) := by
  unfold Flight.startRestart
  split
  · exact h
  · dsimp only
    split <;> exact h.same rfl

theorem ServesOnly.killChild (h : ServesOnly g f) : ServesOnly g (killChild f) := by
  unfold Flight.killChild
  split <;> exact h.same rfl

theorem ServesOnly.deliver {o : Client} {out : Outcome} (h : ServesOnly g f) :
    ServesOnly g (deliver o out f) := by
  unfold Flight.deliver
  split
  · split
    · exact h.same rfl
    · exact h.same rfl
    · exact h
  · split
    · rename_i c c' command k tag howner
      split
      · rename_i hc
        intro c'' command'' hx
        obtain ⟨k', tag', out', howner'⟩ := hx
        obtain ⟨rfl, rfl, -⟩ := Holder.call.inj (Option.some.inj howner')
        rw [hc] at howner
        exact h _ _ ⟨k, tag, none, howner⟩
      · exact h
    · exact h

theorem ServesOnly.deliverReaped (h : ServesOnly g f) :
    ServesOnly g (deliverReaped w f) := by
  unfold Flight.deliverReaped
  split
  · exact h.same rfl
  · exact h

/-- The thread starts nobody's exchange. -/
theorem runExecutor_serves {fails : Option String} (h : f.runExecutor fails = some f') :
    ServesOnly f f' := by
  have hrefl : ServesOnly f f := servesOnly_refl
  cases runExecutor_executed h with
  | reap w rest hjob => exact hrefl.same rfl
  | reapedNone w rest hjob => exact ServesOnly.deliverReaped (hrefl.same rfl)
  | reaped w k rest hjob => exact ServesOnly.deliverReaped (hrefl.same rfl)
  | unwritten o k tag command rest reason hjob hdead => exact ServesOnly.deliver (hrefl.same rfl)
  | written o k tag command rest hjob => exact hrefl.same rfl
  | lost o k timed rest reason hjob hmay => exact ServesOnly.deliver (hrefl.same rfl)
  | replied o k timed rest s more hjob hout => exact ServesOnly.deliver (hrefl.same rfl)

/-! ### Steps of a caller

The steps left are those of the holder of the lock: it ends its call, or hands its command over,
either when it comes to the lock or when it is told that the flight is ready.
-/

/-- A call that ends is served no more, and hands the lock on to somebody who has to start
first. -/
theorem endCall_serves {c : CallId} {result : Result} {loss : Option Loss} :
    ServesOnly g (f.endCall c result loss).1 :=
  servesOnly_of_owner fun _ _ _ _ _ => by simp [endCall]

/-- A call that is served once its turn has come: its command is handed over then. -/
theorem underLock_serves {c c' : CallId} {command command' : Command}
    (h : (f.underLock c command).1.Serves c' command') :
    c' = c ∧ command' = command ∧ f.state = .ready ∧ f.child.isSome ∧
      (f.underLock c command).2.loss = none := by
  unfold underLock at h ⊢
  by_cases hready : f.state = .ready
  · rw [if_pos hready] at h ⊢
    unfold exchange at h ⊢
    cases hchild : f.child with
    | none =>
        rw [hchild] at h
        obtain ⟨k, tag, out, howner⟩ := h
        exact absurd howner (by simp [endCall])
    | some k =>
        rw [hchild] at h
        obtain ⟨k', tag, out, howner⟩ := h
        obtain ⟨rfl, rfl, -⟩ := Holder.call.inj (Option.some.inj howner)
        exact ⟨rfl, rfl, hready, rfl, rfl⟩
  · rw [if_neg hready] at h
    split at h
    · obtain ⟨k, tag, out, howner⟩ := h
      exact absurd howner (by simp)
    · obtain ⟨k, tag, out, howner⟩ := h
      exact absurd howner (by simp [endCall])

/-- A call may be served at once. -/
theorem call_serves {c c' : CallId} {command command' : Command}
    (h : (f.call c command).1.Serves c' command') :
    f.Serves c' command' ∨ c' = c ∧ command' = command := by
  unfold call at h
  split at h
  · obtain ⟨hc, hcommand, _⟩ := underLock_serves h
    exact Or.inr ⟨hc, hcommand⟩
  · exact Or.inl h

theorem afterExchange_serves {c : CallId} {command : Command} {out : Outcome} :
    ServesOnly g (f.afterExchange c command out).1 := by
  unfold afterExchange
  dsimp only
  split
  · exact endCall_serves
  · split <;> exact endCall_serves

/-- **Who is served after a step** was served before it and has not been resumed, or has its
command handed over by it. -/
theorem next_serves {a : FlightAction σ} {e : Effects} {c : CallId} {command : Command}
    (hcall : ∀ c command, a ≠ .call c command) (h : f.next cfg prog a = some (f', e))
    (hserves : f'.Serves c command) :
    f.Serves c command ∧ a ≠ .resumeCaller ∨ f.handsOver a = some command ∧ e.loss = none := by
  cases ha : a.child? with
  | some k =>
      obtain ⟨_, c', _, rfl⟩ := next_child ha h
      refine Or.inl ⟨hserves, ?_⟩
      intro heq
      rw [heq] at ha
      exact absurd ha (by simp [FlightAction.child?])
  | none =>
      cases a with
      | call c command => exact absurd rfl (hcall c command)
      | takeLock =>
          cases takeLock_locked h with
          | call c' command' lock hnext =>
              obtain ⟨rfl, rfl, hready, hchild, hloss⟩ := underLock_serves hserves
              refine Or.inr ⟨?_, hloss⟩
              unfold handsOver
              rw [hnext]
              exact if_pos ⟨hready, hchild⟩
          | restart lock hnext =>
              have honly : ServesOnly f (Flight.bringUpLoop cfg .restart
                  { f with lock := lock.hold .restart }) :=
                ServesOnly.bringUpLoop (servesOnly_of_owner fun _ _ _ _ _ => by simp)
              exact Or.inl ⟨honly c command hserves, by simp⟩
      | resumeCaller =>
          cases resumeCaller_wentOn h with
          | exchanges c' command' howner hready =>
              have hunder : f.exchange c' command' = f.underLock c' command' := by
                unfold underLock
                rw [if_pos hready]
              rw [hunder] at hserves ⊢
              obtain ⟨rfl, rfl, -, hchild, hloss⟩ := underLock_serves hserves
              refine Or.inr ⟨?_, hloss⟩
              unfold handsOver
              rw [howner]
              exact if_pos ⟨hready, hchild⟩
          | refused c' command' howner hready =>
              obtain ⟨k, tag, out, howner'⟩ := hserves
              exact absurd howner' (by simp [endCall])
          | answered c' command' k tag out howner =>
              have hnobody : ServesOnly { f with lock := f.lock.release }
                  (f.afterExchange c' command' out).1 := afterExchange_serves
              obtain ⟨k', tag', out', howner'⟩ := hnobody c command hserves
              exact absurd howner' (by simp)
      | startupTimeout =>
          cases startupTimeout_timedOut h with
          | turnedAway c' command' woken howner =>
              obtain ⟨k, tag, out, howner'⟩ := hserves
              exact absurd howner' (by simp [endCall])
      | resumeBringUp w =>
          exact Or.inl ⟨resumeBringUp_serves h c command hserves, by simp⟩
      | requestRestart reason =>
          rw [← show _ = f' from congrArg Prod.fst (Option.some.inj h)] at hserves
          have honly : ServesOnly f (f.requestRestart reason).1 := by
            have hrefl : ServesOnly f f := servesOnly_refl
            unfold requestRestart
            split
            · exact ServesOnly.startRestart (hrefl.same rfl)
            · split
              · exact ServesOnly.startRestart (hrefl.killChild.same rfl)
              · exact hrefl.killChild
          exact Or.inl ⟨honly c command hserves, by simp⟩
      | runExecutor fails =>
          obtain ⟨hexecutor, -⟩ := next_runExecutor h
          exact Or.inl ⟨runExecutor_serves hexecutor c command hserves, by simp⟩
      | boot k b | receive k | answer k world | finishDeferred k | die k =>
          exact absurd ha (by simp [FlightAction.child?])

/-- A call that gets a response was served, and lost no child. -/
theorem response_serves {a : FlightAction σ} {e : Effects} {c : CallId} {s : Sent}
    (h : f.next cfg prog a = some (f', e)) (hfin : e.finished = some (c, .response s)) :
    (∃ command, f.Serves c command) ∧ e.loss = none := by
  obtain ⟨rfl, command, k, tag, howner⟩ := finished_response h hfin
  refine ⟨⟨command, k, tag, _, howner⟩, ?_⟩
  have h : f.resumeCaller = some (f', e) := h
  unfold resumeCaller at h
  rw [howner] at h
  rw [← show _ = e from congrArg Prod.snd (Option.some.inj h)]
  unfold afterExchange
  dsimp only
  split <;> rfl

end Flight

end DonutServer
