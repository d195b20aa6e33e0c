/-
Which flight a prepare goes to.

`select` says of itself that only its last branch can block.  Its first branch takes
a flight that is primed with the very command, and does not ask whether that flight
is idle; so a prepare may queue behind a run while another flight stands by.  What
the docstring says is true of every other choice it makes.
-/
import DonutServer.Server.Stranded

namespace DonutServer

open Function

variable {κ : Type} {n : Nat}

namespace Server

/-! ### The flight used longest ago

The least recently used flight is the head of a stable sort, so that flights used equally long ago
are taken in the order of the pool.
-/

theorem lru_mem {coords : List (FlightId n)} (h : coords ≠ []) (s : Server κ n) :
    s.lru coords ∈ coords := by
  unfold lru
  rcases hmin : coords.argmin s.lastUsed with _ | i
  · exact absurd (List.argmin_eq_none.mp hmin) h
  · exact List.argmin_mem hmin

/-- None of the flights given was used earlier. -/
theorem lru_oldest {coords : List (FlightId n)} {i : FlightId n} (hi : i ∈ coords)
    (s : Server κ n) : s.lastUsed (s.lru coords) ≤ s.lastUsed i := by
  unfold lru
  rcases hmin : coords.argmin s.lastUsed with _ | j
  · rw [List.argmin_eq_none.mp hmin] at hi
    exact absurd hi List.not_mem_nil
  · exact List.le_of_mem_argmin hi hmin

/-! ### What is chosen from

The docstring's words, as predicates on the state that `select` is called in.  Whether a flight is
busy is asked of its lock and of its thread, as the source asks it.
-/

/-- The flight is READY, and idle. -/
def StandsBy (s : Server κ n) (i : FlightId n) : Prop :=
  (s.flights i).state = .ready ∧ (s.flights i).busy = false

/-- The flight is READY, and primed with exactly this command. -/
def PrimedFor (command : Command) (s : Server κ n) (i : FlightId n) : Prop :=
  (s.flights i).state = .ready ∧ (s.flights i).primedArgs.map Command.prepare = some command

/-- The flight is the first that is primed with the command. -/
def FirstPrimedFor (command : Command) (s : Server κ n) (i : FlightId n) : Prop :=
  s.PrimedFor command i ∧ ∀ j, j < i → ¬ s.PrimedFor command j

/-- The flights that are READY and idle, in the order of the pool. -/
def idle (s : Server κ n) : List (FlightId n) :=
  ((List.finRange (n + 1)).filter fun i => (s.flights i).state = .ready).filter
    fun i => !(s.flights i).busy

theorem mem_idle {s : Server κ n} {i : FlightId n} : i ∈ s.idle ↔ s.StandsBy i := by
  simp [idle, StandsBy, and_comm]

theorem idle_ne_nil {s : Server κ n} : s.idle ≠ [] ↔ ∃ i, s.StandsBy i := by
  constructor
  · intro h
    obtain ⟨i, hi⟩ := List.exists_mem_of_ne_nil _ h
    exact ⟨i, mem_idle.mp hi⟩
  · intro hc
    obtain ⟨i, hi⟩ := hc
    exact List.ne_nil_of_mem (mem_idle.mpr hi)

variable {command : Command} {s : Server κ n} {i : FlightId n}

/-! ### The three branches

The first branch searches the flights that are READY for one primed with the command, the second
the idle ones among them, the third all.  Only the first takes a flight without having asked
whether it is idle.
-/

/-- A search through the pool finds the first flight that will do. -/
theorem find_finRange {p : FlightId n → Bool} :
    (List.finRange (n + 1)).find? p = some i ↔ p i = true ∧ ∀ j, j < i → p j = false := by
  rw [List.find?_eq_some_iff_getElem]
  simp only [List.getElem_finRange, List.length_finRange, Bool.not_eq_true']
  constructor
  · intro h
    obtain ⟨hi, k, hk, rfl, hfirst⟩ := h
    exact ⟨hi, fun j hj => hfirst j hj⟩
  · intro h
    obtain ⟨hi, hfirst⟩ := h
    exact ⟨hi, i, i.isLt, rfl, fun j hj => hfirst ⟨j, _⟩ hj⟩

/-- What the search for a primed flight finds. -/
theorem find_primed_iff :
    ((List.finRange (n + 1)).filter fun i => (s.flights i).state = .ready).find?
        (fun i => (s.flights i).primedArgs.map Command.prepare = some command) = some i ↔
      s.FirstPrimedFor command i := by
  rw [List.find?_filter, find_finRange]
  simp only [FirstPrimedFor, PrimedFor, decide_eq_true_eq, decide_eq_false_iff_not]

theorem select_firstPrimedFor (h : s.FirstPrimedFor command i) : s.select command = i := by
  unfold select
  simp only [find_primed_iff.mpr h]

/-- No flight is primed with the command: the second branch, or the third. -/
theorem select_unprimed (h : ∀ i, ¬ s.FirstPrimedFor command i) :
    s.select command = s.lru (if s.idle = [] then List.finRange (n + 1) else s.idle) := by
  have hnone : ((List.finRange (n + 1)).filter fun i => (s.flights i).state = .ready).find?
      (fun i => (s.flights i).primedArgs.map Command.prepare = some command) = none := by
    rw [Option.eq_none_iff_forall_ne_some]
    intro i hi
    exact h i (find_primed_iff.mp hi)
  unfold select
  simp only [hnone]
  rfl

/-- Where a flight stands by and none is primed, one that stands by is taken. -/
theorem select_standsBy (h : ∀ i, ¬ s.FirstPrimedFor command i) (hfree : ∃ i, s.StandsBy i) :
    s.StandsBy (s.select command) := by
  have hidle : s.idle ≠ [] := idle_ne_nil.mpr hfree
  rw [select_unprimed h, if_neg hidle]
  exact mem_idle.mp (lru_mem hidle s)

/-- Among the flights that stand by, the one used longest ago. -/
theorem select_oldest (h : ∀ i, ¬ s.FirstPrimedFor command i) (hi : s.StandsBy i) :
    s.lastUsed (s.select command) ≤ s.lastUsed i := by
  have hidle : s.idle ≠ [] := idle_ne_nil.mpr ⟨i, hi⟩
  rw [select_unprimed h, if_neg hidle]
  exact lru_oldest (mem_idle.mpr hi) s

/-- **A flight that is not READY is the last choice.** -/
theorem select_ready (hfree : ∃ i, s.StandsBy i) : (s.flights (s.select command)).state = .ready := by
  by_cases h : ∃ i, s.FirstPrimedFor command i
  · obtain ⟨i, hi⟩ := h
    rw [select_firstPrimedFor hi]
    exact hi.1.1
  · exact (select_standsBy (fun i hi => h ⟨i, hi⟩) hfree).1

/-! ### When a prepare blocks needlessly

A needless wait is one that another flight would have spared.  It can come of the first branch
alone, and does exactly if the flight that is found there is busy: the condition is about that one
flight and not about the choice.
-/

/-- **Selection.**  A flight that stands by is chosen whenever there is one, exactly if the
first flight that is primed with the command is then idle. -/
theorem select_never_blocks_needlessly (command : Command) (s : Server κ n) :
    ((∃ i, s.StandsBy i) → s.StandsBy (s.select command)) ↔
      ((∃ i, s.StandsBy i) → ∀ i, s.FirstPrimedFor command i → (s.flights i).busy = false) := by
  constructor
  · intro h hfree i hi
    have hchosen := h hfree
    rw [select_firstPrimedFor hi] at hchosen
    exact hchosen.2
  · intro h hfree
    by_cases hprimed : ∃ i, s.FirstPrimedFor command i
    · obtain ⟨i, hi⟩ := hprimed
      rw [select_firstPrimedFor hi]
      exact ⟨hi.1.1, h hfree i hi⟩
    · exact select_standsBy (fun i hi => hprimed ⟨i, hi⟩) hfree

/-- Both flights come up, a prepare is answered by the first, and another request sends
the same prepare again. -/
def benchRepeated : List (ServerAction Msg 1) :=
  bringUp spareFlight ++ preparedJob "first" ++ [.prepare 1 .bench "second"]

/-- **A prepare that queues for nothing.**  The first flight is primed with the command and
at work on it; the second stands by, and the prepare goes to the first. -/
theorem select_blocks :
    ∃ s : Server Unit 1, (serverSystem 1 .standard .scripted).Reach System.always s ∧
      s.StandsBy spareFlight ∧ ¬ s.StandsBy (s.select (.prepare .bench)) := by
  have hrun : (Server.follow .standard .scripted benchRepeated
      (Server.started .scripted 1 fun _ => List.replicate 64 0 : Server Unit 1)).any
      (fun s => (s.flights spareFlight).state = .ready && !(s.flights spareFlight).busy &&
        (s.flights (s.select (.prepare .bench))).busy) = true := by decide +kernel
  obtain ⟨s, hs, hcheck⟩ := (Option.any_eq_true _ _).mp hrun
  simp only [Bool.and_eq_true, decide_eq_true_eq, Bool.not_eq_true'] at hcheck
  obtain ⟨hspare, hbusy⟩ := hcheck
  refine ⟨s, Server.follow_reach hs, hspare, fun h => ?_⟩
  rw [h.2] at hbusy
  exact absurd hbusy (by simp)

end Server

end DonutServer
