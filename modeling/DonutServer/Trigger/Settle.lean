/-
The settle window, in polls and in observations.

The loop measures its window from the start of the poll that opens it to the start of the
poll it returns on; a file is stat'ed some time after its poll has started.  How long after
may differ between the two polls, so the window in which a file was observed not to change
is longer or shorter than the one that was measured.  A sensor whose size did not change
when the window opened was observed before, and loses nothing by this.
-/
import Mathlib.Algebra.Order.Ring.Rat
import Mathlib.Tactic.Linarith
import DonutServer.Trigger.Poll

namespace DonutServer.Trigger

open Timeline

/-! ### What was observed of a sensor

`poll_once` keeps a size, and the claim is about when the file had it.  So the fold over the
files of a poll is taken once more with the whole observation in place of the size; the sizes
that are kept are those of the observations (`get?_pollOnce`).
-/

/-- What is known of a sensor's file when one more has been looked at. -/
def Poll.observe (p : Poll) (sensor : String) (seen : Option Stat) (path : String) : Option Stat :=
  if sensorOf path = sensor then (p.counted path).or seen else seen

/-- What a poll observed of a sensor's file: of two files for one sensor, the one whose size
is kept. -/
def Poll.observed (directory sensor : String) (p : Poll) : Option Stat :=
  (p.paths directory).foldl (p.observe sensor) none

/-- What was observed of a sensor's file, poll after poll. -/
def observations (directory sensor : String) (polls : List Poll) : List Stat :=
  polls.filterMap (Poll.observed directory sensor)

/-- How long after the start of the poll a sensor's file was stat'ed. -/
def Poll.lag (directory sensor : String) (p : Poll) : ℚ :=
  ((p.observed directory sensor).map fun o => o.time - p.polledAt).getD 0

variable {p last opening : Poll} {polls before earlier rest : List Poll} {directory sensor : String}

/-- The sizes that are kept are those observed. -/
theorem get?_pollOnce :
    (pollOnce directory p).get? sensor = (p.observed directory sensor).map (·.value) := by
  suffices h : ∀ (paths : List String) (found : OrderedDict String Nat) (seen : Option Stat),
      found.get? sensor = seen.map (·.value) →
      (paths.foldl p.addTo found).get? sensor =
        (paths.foldl (p.observe sensor) seen).map (·.value) from
    h (p.paths directory) .empty none rfl
  intro paths
  induction paths with
  | nil => intro found seen h; exact h
  | cons path paths ih =>
      intro found seen h
      rw [List.foldl_cons, List.foldl_cons]
      refine ih _ _ ?_
      unfold Poll.addTo Poll.observe
      rcases p.counted path with _ | stat
      · rw [Option.none_or, ite_self]
        exact h
      · by_cases hs : sensorOf path = sensor
        · rw [if_pos hs, OrderedDict.get?_set, if_pos hs.symm]
          rfl
        · rw [if_neg hs, OrderedDict.get?_set, if_neg (Ne.symm hs)]
          exact h

theorem mem_pollOnce :
    sensor ∈ (pollOnce directory p).keys ↔ ∃ o, p.observed directory sensor = some o := by
  rw [← OrderedDict.get?_ne_none, get?_pollOnce, ← Option.ne_none_iff_exists']
  exact not_congr Option.map_eq_none_iff

/-- What is observed is the size of some file of the sensor that counts. -/
theorem mem_of_observed {o : Stat} (h : p.observed directory sensor = some o) :
    ∃ path ∈ p.paths directory, sensorOf path = sensor ∧ p.counted path = some o := by
  suffices hfold : ∀ (paths : List String) (seen : Option Stat),
      paths.foldl (p.observe sensor) seen = some o → seen = some o ∨
        ∃ path ∈ paths, sensorOf path = sensor ∧ p.counted path = some o by
    rcases hfold (p.paths directory) none h with hnone | hmem
    · exact absurd hnone (by simp)
    · exact hmem
  intro paths
  induction paths with
  | nil => intro seen h; exact Or.inl h
  | cons path paths ih =>
      intro seen h
      rw [List.foldl_cons] at h
      rcases ih _ h with hseen | ⟨path', hpath', hcounted⟩
      · unfold Poll.observe at hseen
        by_cases hs : sensorOf path = sensor
        · rw [if_pos hs] at hseen
          rcases Option.or_eq_some_iff.mp hseen with hcounted | ⟨-, hseen⟩
          · exact Or.inr ⟨path, List.mem_cons_self .., hs, hcounted⟩
          · exact Or.inl hseen
        · rw [if_neg hs] at hseen
          exact Or.inl hseen
      · exact Or.inr ⟨path', List.mem_cons_of_mem _ hpath', hcounted⟩

theorem stat_of_counted {path : String} {o : Stat} (h : p.counted path = some o) :
    p.getsize path = some o := by
  unfold Poll.counted at h
  split at h
  · exact h
  · exact absurd h (by simp)

/-! ### The clock

Time only goes on.  Of the instants of a poll it is known that each file is looked at after the
poll has started and before the clock is looked at again, and that the next poll starts later;
nothing is said of how far they lie apart.
-/

/-- The clock of the polls: a file is stat'ed while its poll is going on, and one poll comes
after the other. -/
structure Clocked (polls : List Poll) : Prop where
  during : ∀ p ∈ polls, ∀ path o, p.getsize path = some o →
    p.polledAt ≤ o.time ∧ o.time ≤ p.checkedAt
  apart : polls.Pairwise fun p p' => p.checkedAt ≤ p'.polledAt

namespace Clocked

theorem observed (h : Clocked polls) (hp : p ∈ polls) {o : Stat}
    (ho : p.observed directory sensor = some o) :
    p.polledAt ≤ o.time ∧ o.time ≤ p.checkedAt := by
  obtain ⟨path, -, -, hcounted⟩ := mem_of_observed ho
  exact h.during p hp path o (stat_of_counted hcounted)

theorem inOrder (h : Clocked polls) : InOrder (observations directory sensor polls) := by
  unfold InOrder observations
  rw [List.pairwise_filterMap]
  refine h.apart.imp_of_mem fun {p p'} hp hp' hapart o ho o' ho' => ?_
  have hdone := (h.observed hp ho).2
  have hbegun := (h.observed hp' ho').1
  linarith

end Clocked

/-! ### The window

A list of polls ends in a window: the polls from some point on that found the same, with one before
them that did not, if there was any.  The window is opened by its first poll, and it grows by a
poll that finds the same or starts anew with one that does not.
-/

/-- The last polls that all found the same, and what came before them. -/
structure Window (directory : String) (polls earlier : List Poll) (opening : Poll)
    (rest : List Poll) : Prop where
  split : polls = earlier ++ opening :: rest
  same : ∀ p ∈ rest, (pollOnce directory p).Same (pollOnce directory opening)
  changed : ∀ p, earlier.getLast? = some p →
    ¬ (pollOnce directory p).Same (pollOnce directory opening)

/-- The poll that opens the window is the first to observe what the sensor's size is now. -/
def FirstSeen (directory sensor : String) (earlier : List Poll) (opening : Poll) : Prop :=
  ∀ o, (observations directory sensor earlier).getLast? = some o →
    (pollOnce directory opening).get? sensor ≠ some o.value

namespace Window

theorem single (directory : String) (p : Poll) : Window directory [p] [] p [] where
  split := rfl
  same := fun p' hp' => absurd hp' List.not_mem_nil
  changed := fun p' hp' => absurd hp' (by simp)

/-- The window goes on with a poll that finds the same. -/
theorem extend (h : Window directory polls earlier opening rest)
    (hp : (pollOnce directory p).Same (pollOnce directory opening)) :
    Window directory (polls ++ [p]) earlier opening (rest ++ [p]) where
  split := by rw [h.split, List.append_assoc, List.cons_append]
  same := by
    intro p' hp'
    rcases List.mem_append.mp hp' with hp' | hp'
    · exact h.same p' hp'
    · rw [List.mem_singleton.mp hp']
      exact hp
  changed := h.changed

/-- A poll that finds something else opens a window of its own. -/
theorem reopen (hlast : polls.getLast? = some last)
    (hp : ¬ (pollOnce directory last).Same (pollOnce directory p)) :
    Window directory (polls ++ [p]) polls p [] where
  split := rfl
  same := fun p' hp' => absurd hp' List.not_mem_nil
  changed := by
    intro p' hp'
    rw [← Option.some.inj (hlast.symm.trans hp')]
    exact hp

/-- The last poll of a window finds what the others do. -/
theorem last_same (h : Window directory polls earlier opening rest)
    (hlast : polls.getLast? = some last) :
    (pollOnce directory last).Same (pollOnce directory opening) := by
  rw [h.split, List.getLast?_append_cons] at hlast
  rcases List.mem_cons.mp (List.mem_of_getLast? hlast) with rfl | hmem
  · exact fun _ => rfl
  · exact h.same last hmem

end Window

/-! ### What the loop keeps track of

The loop has three variables, and no list of polls.  `Tracks` says what they stand for: what the
last poll found, when it started and, once a second poll has found the same eight sensors, when the
window was opened.  The step lemma takes it from one iteration to the next, and the run lemma
through the loop.
-/

/-- What the loop remembers after some polls: what the last of them found, and where its
window was opened once a second poll has found the same eight sensors. -/
structure Tracks (directory : String) (w : Watch) (polls : List Poll) : Prop where
  fresh : polls = [] → w.previous = none
  last : ∀ p, polls.getLast? = some p →
    w.previous = some (pollOnce directory p) ∧ w.previousAt = p.polledAt
  window : polls ≠ [] → ∃ earlier opening rest, Window directory polls earlier opening rest ∧
    (∀ t, w.completeAt = some t → t = opening.polledAt) ∧
    (w.completeAt = none → rest = [] ∨ (pollOnce directory opening).size ≠ expectedSensors)

namespace Tracks

variable {q : Waiting} {w w' : Watch}

/-- The end of an iteration remembers what its poll found. -/
theorem next_goesOn {completeAt : Option ℚ} (h : q.next p completeAt = .goesOn w') :
    w' = ⟨some (pollOnce q.directory p), p.polledAt, completeAt⟩ := by
  unfold Waiting.next at h
  split at h
  · exact absurd h (by simp)
  · exact (Verdict.goesOn.inj h).symm

theorem of_window {polls : List Poll} {completeAt : Option ℚ}
    (hwindow : Window directory (polls ++ [p]) earlier opening rest)
    (hsome : ∀ t, completeAt = some t → t = opening.polledAt)
    (hnone : completeAt = none → rest = [] ∨ (pollOnce directory opening).size ≠ expectedSensors) :
    Tracks directory ⟨some (pollOnce directory p), p.polledAt, completeAt⟩ (polls ++ [p]) where
  fresh := fun hnil => absurd hnil (by simp)
  last := by
    intro p' hp'
    rw [List.getLast?_concat] at hp'
    rw [← Option.some.inj hp']
    exact ⟨rfl, rfl⟩
  window := fun _ => ⟨earlier, opening, rest, hwindow, hsome, hnone⟩

/-- A poll that finds eight sensors as the one before did goes on with the window, which
was opened when the loop says it was. -/
theorem match_window {polls : List Poll} (h : Tracks directory w polls)
    (hsize : (pollOnce directory p).size = expectedSensors)
    (hmatch : w.previous.any (pollOnce directory p).same = true) :
    ∃ earlier opening rest, Window directory (polls ++ [p]) earlier opening (rest ++ [p]) ∧
      w.completeAt.getD w.previousAt = opening.polledAt := by
  rcases List.eq_nil_or_concat' polls with rfl | ⟨before, last, rfl⟩
  · rw [h.fresh rfl] at hmatch
    exact absurd hmatch (by simp)
  · obtain ⟨hprevious, hat⟩ := h.last last List.getLast?_concat
    obtain ⟨earlier, opening, rest, hwindow, hsome, hnone⟩ := h.window (by simp)
    rw [hprevious, Option.any_some, OrderedDict.same_iff] at hmatch
    have hopening : (pollOnce directory p).Same (pollOnce directory opening) := fun k =>
      (hmatch k).trans (hwindow.last_same List.getLast?_concat k)
    refine ⟨earlier, opening, rest, hwindow.extend hopening, ?_⟩
    rcases hc : w.completeAt with _ | t
    · rcases hnone hc with rfl | hother
      · -- The poll before is the one that opened the window.
        obtain ⟨-, hlast⟩ := List.append_inj' hwindow.split rfl
        rw [Option.getD_none, hat, (List.cons.inj hlast).1]
      · exact absurd (hopening.size.symm.trans hsize) hother
    · exact hsome t hc

/-- **An iteration keeps track.** -/
theorem poll {polls : List Poll} (h : Tracks q.directory w polls) (hgoes : q.poll w p = .goesOn w') :
    Tracks q.directory w' (polls ++ [p]) := by
  unfold Waiting.poll at hgoes
  simp only at hgoes
  split at hgoes
  · rename_i hmatch
    rw [Bool.and_eq_true, decide_eq_true_eq] at hmatch
    obtain ⟨hsize, hmatch⟩ := hmatch
    obtain ⟨earlier, opening, rest, hwindow, hat⟩ := h.match_window hsize hmatch
    split at hgoes
    · exact absurd hgoes (by simp)
    · rw [next_goesOn hgoes]
      refine of_window hwindow ?_ fun hnone => absurd hnone (by simp)
      intro t ht
      rw [← Option.some.inj ht]
      exact hat
  · rename_i hmatch
    rw [next_goesOn hgoes]
    rcases List.eq_nil_or_concat' polls with rfl | ⟨before, last, rfl⟩
    · exact of_window (.single _ p) (fun t ht => absurd ht (by simp)) fun _ => Or.inl rfl
    · by_cases hsame : (pollOnce q.directory last).Same (pollOnce q.directory p)
      · -- It finds the same, so it is the number of sensors that is wrong.
        obtain ⟨earlier, opening, rest, hwindow, -, -⟩ := h.window (by simp)
        have hopening := hwindow.last_same List.getLast?_concat
        have hp : (pollOnce q.directory p).Same (pollOnce q.directory opening) :=
          fun k => (hsame k).symm.trans (hopening k)
        refine of_window (hwindow.extend hp) (fun t ht => absurd ht (by simp)) fun _ => Or.inr ?_
        intro hsize
        refine hmatch ?_
        rw [Bool.and_eq_true, decide_eq_true_eq, (h.last last List.getLast?_concat).1,
          Option.any_some, OrderedDict.same_iff]
        exact ⟨hp.size.trans hsize, fun k => (hsame k).symm⟩
      · exact of_window (.reopen List.getLast?_concat hsame) (fun t ht => absurd ht (by simp))
          fun _ => Or.inl rfl

/-- The loop keeps track as long as it goes on. -/
theorem loop {polls more : List Poll} (h : Tracks q.directory w polls)
    (hwaiting : q.loop w more = none) :
    ∃ w', Tracks q.directory w' (polls ++ more) ∧
      ∀ further, q.loop w (more ++ further) = q.loop w' further := by
  induction more generalizing w polls with
  | nil =>
      rw [List.append_nil]
      exact ⟨w, h, fun _ => rfl⟩
  | cons p more ih =>
      unfold Waiting.loop at hwaiting
      split at hwaiting
      · rename_i w₁ hgoes
        obtain ⟨w', htracks, hloop⟩ := ih (h.poll hgoes) hwaiting
        refine ⟨w', by rwa [List.append_assoc] at htracks, fun further => ?_⟩
        rw [List.cons_append, Waiting.loop, hgoes]
        exact hloop further
      · exact absurd hwaiting (by simp)
      · exact absurd hwaiting (by simp)

/-- Where it returns, it has watched a window of its own measure. -/
theorem returns {polls : List Poll} {paths : List String} {completeAt : ℚ}
    (h : Tracks q.directory w polls) (hreturns : q.poll w p = .returns paths completeAt) :
    ∃ earlier opening rest, Window q.directory (polls ++ [p]) earlier opening (rest ++ [p]) ∧
      (pollOnce q.directory p).size = expectedSensors ∧ completeAt = opening.polledAt ∧
      q.settleTime ≤ p.polledAt - completeAt ∧ paths = sortedPaths p.again q.directory := by
  unfold Waiting.poll at hreturns
  simp only at hreturns
  split at hreturns
  · rename_i hmatch
    rw [Bool.and_eq_true, decide_eq_true_eq] at hmatch
    obtain ⟨earlier, opening, rest, hwindow, hat⟩ := h.match_window hmatch.1 hmatch.2
    split at hreturns
    · rename_i hsettled
      obtain ⟨rfl, rfl⟩ := Verdict.returns.inj hreturns
      exact ⟨earlier, opening, rest, hwindow, hmatch.1, hat, hsettled, rfl⟩
    · unfold Waiting.next at hreturns
      split at hreturns <;> exact absurd hreturns (by simp)
  · unfold Waiting.next at hreturns
    split at hreturns <;> exact absurd hreturns (by simp)

end Tracks

/-! ### The window that was observed

A return says when the first and the last poll of the window started, and the observations were
made some time after that.  What is left is arithmetic on four instants: where no file was looked
at later after its poll's start in the first poll than in the last, it was observed for as long as
the polls are apart.
-/

variable {timeout interval settleTime startedAt previousAt completeAt : ℚ}
  {paths : List String}

/-- **What a return says.**  The polls end in a window whose first and last polls started at
least `settle_time` apart, and the paths are those of the files listed after the last one. -/
theorem returned_window
    (hwaiting : waitForExposure directory timeout interval settleTime startedAt previousAt before =
      none)
    (hreturned : waitForExposure directory timeout interval settleTime startedAt previousAt
      (before ++ [last]) = some (.ok (paths, completeAt))) :
    ∃ earlier opening rest, Window directory (before ++ [last]) earlier opening (rest ++ [last]) ∧
      (pollOnce directory last).size = expectedSensors ∧ completeAt = opening.polledAt ∧
      settleTime ≤ last.polledAt - completeAt ∧ paths = sortedPaths last.again directory := by
  unfold waitForExposure at hwaiting hreturned
  split at hwaiting
  · exact absurd hwaiting (by simp)
  rename_i hsettle
  split at hwaiting
  · exact absurd hwaiting (by simp)
  rename_i hinterval
  rw [if_neg hsettle, if_neg hinterval] at hreturned
  have hstart : Tracks directory ⟨none, previousAt, none⟩ [] :=
    ⟨fun _ => rfl, fun p hp => absurd hp (by simp), fun hne => absurd rfl hne⟩
  obtain ⟨w, htracks, hloop⟩ := hstart.loop hwaiting
  rw [hloop [last], Waiting.loop] at hreturned
  rcases hpoll : (Waiting.mk directory timeout settleTime (startedAt + timeout)).poll w last with
    w' | ⟨paths', completeAt'⟩ | error
  · rw [hpoll] at hreturned
    exact absurd hreturned (by simp [Waiting.loop])
  · rw [hpoll] at hreturned
    have hpair := Except.ok.inj (Option.some.inj hreturned)
    rw [← (Prod.mk.inj hpair).1, ← (Prod.mk.inj hpair).2]
    exact htracks.returns hpoll
  · rw [hpoll] at hreturned
    exact absurd hreturned (by simp)

/-- What is observed of a sensor in a window: first by the poll that opens it, and then
nothing else. -/
theorem Window.observations {polls : List Poll} (h : Window directory polls earlier opening rest)
    {o : Stat} (ho : opening.observed directory sensor = some o) :
    observations directory sensor polls =
        observations directory sensor earlier ++ o :: observations directory sensor rest ∧
      ∀ o' ∈ Trigger.observations directory sensor rest, o'.value = o.value := by
  refine ⟨?_, fun o' ho' => ?_⟩
  · unfold Trigger.observations
    rw [h.split, List.filterMap_append, List.filterMap_cons_some ho]
  · obtain ⟨p, hp, hpo⟩ := List.mem_filterMap.mp ho'
    have hsame := h.same p hp sensor
    rw [get?_pollOnce, get?_pollOnce, hpo, ho] at hsame
    exact Option.some.inj hsame

/-- The poll that opens the window observes every sensor that the last one counts. -/
theorem Window.observed (h : Window directory (before ++ [last]) earlier opening rest)
    (hsensor : sensor ∈ (pollOnce directory last).keys) :
    ∃ o, opening.observed directory sensor = some o := by
  have hsame := h.last_same List.getLast?_concat
  exact mem_pollOnce.mp (hsame.perm.mem_iff.mp hsensor)

theorem Poll.lag_eq {o : Stat} (ho : p.observed directory sensor = some o) :
    p.lag directory sensor = o.time - p.polledAt := by
  unfold Poll.lag
  rw [ho]
  rfl

/-- The last poll observes every sensor it counts, after all others. -/
theorem observations_last {o : Stat} (ho : last.observed directory sensor = some o) :
    (observations directory sensor (before ++ [last])).getLast? = some o := by
  unfold observations
  rw [List.filterMap_append, List.filterMap_cons_some ho, List.filterMap_nil, List.getLast?_concat]

/-! ### A window that was not cut short

A sensor whose size was new to the poll that opens the window is observed from that poll on,
and from the instant it was stat'ed there; the window is measured from the start of the poll.
So what counts is how long after its start each of the two polls at the ends of the window
got to the file.  If the first was not later than the last, the observations are at least as
far apart as the polls.  A sensor whose size was not new has been observed by an earlier poll,
before the window was opened, and needs no condition.
-/

/-- A sensor that changed when the window opened was steady for as long as the window was
observed to last. -/
theorem steadyFor_of_firstSeen (hclock : Clocked (before ++ [last]))
    (hwindow : Window directory (before ++ [last]) earlier opening rest)
    (hsettled : settleTime ≤ last.polledAt - opening.polledAt)
    (hfirst : FirstSeen directory sensor earlier opening) {o latest : Stat}
    (ho : opening.observed directory sensor = some o)
    (hlatest : last.observed directory sensor = some latest)
    (hlag : opening.lag directory sensor ≤ last.lag directory sensor) :
    SteadyFor settleTime (observations directory sensor (before ++ [last])) := by
  obtain ⟨hobs, hsame⟩ := hwindow.observations ho
  have hchanged : ∀ o', (observations directory sensor earlier).getLast? = some o' →
      o'.value ≠ o.value := by
    intro o' ho' heq
    refine hfirst o' ho' ?_
    rw [get?_pollOnce, ho, heq]
    rfl
  rw [Poll.lag_eq ho, Poll.lag_eq hlatest] at hlag
  rw [steadyFor_iff hclock.inOrder hobs (observations_last hlatest) hsame hchanged]
  linarith

/-- A sensor that did not was observed before the window opened, and so for longer than the
polls of the window took. -/
theorem steadyFor_of_not_firstSeen (hclock : Clocked (before ++ [last]))
    (hwindow : Window directory (before ++ [last]) earlier opening rest)
    (hsettled : settleTime ≤ last.polledAt - opening.polledAt)
    (hfirst : ¬ FirstSeen directory sensor earlier opening) {o latest : Stat}
    (ho : opening.observed directory sensor = some o)
    (hlatest : last.observed directory sensor = some latest) :
    SteadyFor settleTime (observations directory sensor (before ++ [last])) := by
  obtain ⟨hobs, hsame⟩ := hwindow.observations ho
  unfold FirstSeen at hfirst
  push Not at hfirst
  obtain ⟨seen, hseen, hvalue⟩ := hfirst
  rw [get?_pollOnce, ho] at hvalue
  have hvalue : o.value = seen.value := Option.some.inj hvalue
  obtain ⟨older, hearlier⟩ := List.getLast?_eq_some_iff.mp hseen
  -- It was stat'ed before the poll that opens the window started.
  have hbefore : seen.time ≤ opening.polledAt := by
    obtain ⟨p, hp, hpo⟩ := List.mem_filterMap.mp (List.mem_of_getLast? hseen)
    have hdone := (hclock.observed (by rw [hwindow.split]; exact List.mem_append_left _ hp) hpo).2
    have hapart := hclock.apart
    rw [hwindow.split] at hapart
    have hopening := (List.pairwise_append.mp hapart).2.2 p hp opening (List.mem_cons_self ..)
    exact hdone.trans hopening
  have hafter :=
    (hclock.observed (List.mem_append_right _ (List.mem_singleton.mpr rfl)) hlatest).1
  have hlast : (observations directory sensor (before ++ [last])).getLast? = some latest :=
    observations_last hlatest
  rw [hearlier, List.append_assoc, List.singleton_append] at hobs
  rw [hobs, List.getLast?_append_cons] at hlast
  refine ⟨older, seen, _, latest, hobs, hlast, ?_, by linarith⟩
  rw [← hvalue]
  exact List.forall_mem_cons.mpr ⟨rfl, hsame⟩

/-- No file whose size was new to the poll that opens the window was stat'ed later after the
start of that poll than after the start of the last one. -/
def Undelayed (directory : String) (before : List Poll) (last : Poll) : Prop :=
  ∀ earlier opening rest, Window directory (before ++ [last]) earlier opening rest →
    ∀ sensor ∈ (pollOnce directory last).keys, FirstSeen directory sensor earlier opening →
      opening.lag directory sensor ≤ last.lag directory sensor

/-- A return after an undelayed window leaves every sensor steady for `settle_time`. -/
theorem steadyFor_of_undelayed (hclock : Clocked (before ++ [last]))
    (hwaiting : waitForExposure directory timeout interval settleTime startedAt previousAt before =
      none)
    (hreturned : waitForExposure directory timeout interval settleTime startedAt previousAt
      (before ++ [last]) = some (.ok (paths, completeAt)))
    (h : Undelayed directory before last) (hsensor : sensor ∈ (pollOnce directory last).keys) :
    SteadyFor settleTime (observations directory sensor (before ++ [last])) := by
  obtain ⟨earlier, opening, rest, hwindow, -, rfl, hsettled, -⟩ :=
    returned_window hwaiting hreturned
  obtain ⟨latest, hlatest⟩ := mem_pollOnce.mp hsensor
  obtain ⟨o, ho⟩ := hwindow.observed hsensor
  by_cases hfirst : FirstSeen directory sensor earlier opening
  · exact steadyFor_of_firstSeen hclock hwindow hsettled hfirst ho hlatest
      (h _ _ _ hwindow sensor hsensor hfirst)
  · exact steadyFor_of_not_firstSeen hclock hwindow hsettled hfirst ho hlatest

/-! ### Two polls

The condition cannot be weakened as one on the two lags.  Whatever they are, if the first is
the longer one, a poll that takes the first to get to the files and another that starts
`settle_time` later and takes the second are enough for a return, and the files were not
observed for as long as that.
-/

/-- The eight files of an exposure. -/
def benchNames : List String :=
  ["a_R00_SW0.fits", "a_R00_SW1.fits", "a_R04_SW0.fits", "a_R04_SW1.fits",
    "a_R40_SW0.fits", "a_R40_SW1.fits", "a_R44_SW0.fits", "a_R44_SW1.fits"]

/-- A file system with one directory. -/
def oneDirectory (directory : String) (names : List String) : Glob.FileTree where
  listing := fun dir => if dir = directory then names else []
  isDir := fun path => path = directory
  lexists := fun path => path = directory ∨ path ∈ names.map (PyText.joinPath directory)

/-- A poll that stats them all at one instant, each with its sidecar beside it. -/
def benchPoll (polledAt statAt : ℚ) : Poll where
  polledAt := polledAt
  tree := oneDirectory "d" benchNames
  pathExists := fun path => path ∈ benchNames.map fun name => sidecarOf (PyText.joinPath "d" name)
  getsize := fun path =>
    if path ∈ benchNames.map (PyText.joinPath "d") then some ⟨512, statAt⟩ else none
  checkedAt := statAt
  again := oneDirectory "d" benchNames

theorem benchPoll_getsize {a b : ℚ} {path : String} {o : Stat}
    (h : (benchPoll a b).getsize path = some o) : o = ⟨512, b⟩ := by
  unfold benchPoll at h
  dsimp only at h
  split at h
  · exact (Option.some.inj h).symm
  · exact absurd h (by simp)

theorem benchPoll_observed {a b : ℚ} {o : Stat}
    (ho : (benchPoll a b).observed directory sensor = some o) : o.time = b := by
  obtain ⟨path, -, -, hcounted⟩ := mem_of_observed ho
  rw [benchPoll_getsize (stat_of_counted hcounted)]

theorem benchPoll_lag {a b : ℚ} (h : sensor ∈ (pollOnce directory (benchPoll a b)).keys) :
    (benchPoll a b).lag directory sensor = b - a := by
  obtain ⟨o, ho⟩ := mem_pollOnce.mp h
  rw [Poll.lag_eq ho, benchPoll_observed ho]
  rfl

/-- What a poll finds does not depend on the clock. -/
theorem pollOnce_benchPoll (a b : ℚ) : pollOnce "d" (benchPoll a b) = pollOnce "d" (benchPoll 0 0) := by
  have haddTo : (benchPoll a b).addTo = (benchPoll 0 0).addTo := by
    funext found path
    unfold Poll.addTo Poll.counted benchPoll
    dsimp only
    split_ifs <;> rfl
  have htree : (benchPoll a b).tree = (benchPoll 0 0).tree := rfl
  unfold pollOnce Poll.paths
  rw [haddTo, htree]

theorem size_benchPoll (a b : ℚ) : (pollOnce "d" (benchPoll a b)).size = expectedSensors := by
  rw [pollOnce_benchPoll]
  decide +kernel

theorem benchPoll_clocked {a b c d : ℚ} (hab : a ≤ b) (hbc : b ≤ c) (hcd : c ≤ d) :
    Clocked ([benchPoll a b] ++ [benchPoll c d]) where
  during := by
    intro p hp path o ho
    rcases List.mem_pair.mp hp with rfl | rfl
    · rw [benchPoll_getsize ho]
      exact ⟨hab, le_refl _⟩
    · rw [benchPoll_getsize ho]
      exact ⟨hcd, le_refl _⟩
  apart := List.pairwise_pair.mpr hbc

/-- The first of them opens a window. -/
theorem benchPoll_opens {a b : ℚ} (htimeout : b < timeout) :
    (Waiting.mk "d" timeout settleTime (0 + timeout)).poll ⟨none, 0, none⟩ (benchPoll a b) =
      .goesOn ⟨some (pollOnce "d" (benchPoll a b)), a, none⟩ := by
  have hdeadline : ¬ 0 + timeout ≤ (benchPoll a b).checkedAt := by
    rw [zero_add, not_le]
    exact htimeout
  unfold Waiting.poll Waiting.next
  simp only [Option.any_none, Bool.and_false, Bool.false_eq_true, if_false, hdeadline]
  rfl

/-- The loop waits. -/
theorem benchPoll_waits {a b : ℚ} (hsettle : 0 < settleTime) (hinterval : 0 < interval)
    (htimeout : b < timeout) :
    waitForExposure "d" timeout interval settleTime 0 0 [benchPoll a b] = none := by
  unfold waitForExposure
  rw [if_neg (not_le.mpr hsettle), if_neg (not_le.mpr hinterval), Waiting.loop, benchPoll_opens htimeout]
  rfl

/-- A poll that finds eight sensors as the one before did returns if the window has lasted. -/
theorem Waiting.poll_returns {q : Waiting} {w : Watch} {previous : OrderedDict String Nat}
    (hprevious : w.previous = some previous)
    (hsize : (pollOnce q.directory p).size = expectedSensors)
    (hsame : (pollOnce q.directory p).same previous = true)
    (hsettled : q.settleTime ≤ p.polledAt - w.completeAt.getD w.previousAt) :
    q.poll w p = .returns (sortedPaths p.again q.directory) (w.completeAt.getD w.previousAt) := by
  have hmatch : (decide ((pollOnce q.directory p).size = expectedSensors) &&
      w.previous.any (pollOnce q.directory p).same) = true := by
    rw [hprevious, Option.any_some, hsame, decide_eq_true hsize]
    rfl
  unfold Waiting.poll
  dsimp only
  rw [if_pos hmatch, if_pos hsettled]

/-- The second closes it. -/
theorem benchPoll_returns {b c d : ℚ} (hsettle : 0 < settleTime) (hinterval : 0 < interval)
    (htimeout : b < timeout) (hsettled : settleTime ≤ c) :
    waitForExposure "d" timeout interval settleTime 0 0 ([benchPoll 0 b] ++ [benchPoll c d]) =
      some (.ok (sortedPaths (oneDirectory "d" benchNames) "d", 0)) := by
  have hsame : (pollOnce "d" (benchPoll c d)).same (pollOnce "d" (benchPoll 0 b)) = true := by
    rw [OrderedDict.same_iff, pollOnce_benchPoll, pollOnce_benchPoll 0 b]
    exact fun _ => rfl
  have hpolled : settleTime ≤ (benchPoll c d).polledAt - 0 := by
    rw [sub_zero]
    exact hsettled
  have hsecond := Waiting.poll_returns (q := ⟨"d", timeout, settleTime, 0 + timeout⟩)
    (w := ⟨some (pollOnce "d" (benchPoll 0 b)), 0, none⟩) rfl (size_benchPoll c d) hsame hpolled
  unfold waitForExposure
  rw [if_neg (not_le.mpr hsettle), if_neg (not_le.mpr hinterval), List.singleton_append,
    Waiting.loop, benchPoll_opens htimeout]
  dsimp only
  rw [Waiting.loop, hsecond]
  rfl

/-- The files were observed for no longer than the two instants are apart. -/
theorem benchPoll_span {a b c d span : ℚ} (hbd : b ≤ d)
    (h : SteadyOnce span (observations directory sensor ([benchPoll a b] ++ [benchPoll c d]))) :
    span ≤ d - b := by
  refine h.le fun o ho => ?_
  obtain ⟨p, hp, hpo⟩ := List.mem_filterMap.mp ho
  rcases List.mem_pair.mp hp with rfl | rfl
  · rw [benchPoll_observed hpo]
    exact ⟨le_refl _, hbd⟩
  · rw [benchPoll_observed hpo]
    exact ⟨hbd, le_refl _⟩

/-- **The settle window**, whatever the loop is set to.  When `wait_for_exposure` returns after an
undelayed window, every sensor was observed with one size for `settle_time`, up to its last
observation.  And for any two lags of which the first is the longer, there is a run with a window
of these lags, in which the loop has slept its `interval` between the polls, that returns though
no sensor was ever observed with one size for so long. -/
theorem settle_window_exact (timeout interval settleTime : ℚ) :
    (∀ {directory : String} {startedAt previousAt completeAt : ℚ} {before : List Poll}
        {last : Poll} {paths : List String}, Clocked (before ++ [last]) →
      waitForExposure directory timeout interval settleTime startedAt previousAt before = none →
      waitForExposure directory timeout interval settleTime startedAt previousAt
        (before ++ [last]) = some (.ok (paths, completeAt)) →
      Undelayed directory before last →
      ∀ sensor ∈ (pollOnce directory last).keys,
        SteadyFor settleTime (observations directory sensor (before ++ [last]))) ∧
    ∀ {first final : ℚ}, 0 ≤ final → final < first → 0 < interval →
      first + interval ≤ settleTime → settleTime < timeout →
      ∃ (opening last : Poll) (paths : List String),
        Clocked ([opening] ++ [last]) ∧ opening.checkedAt + interval ≤ last.polledAt ∧
        waitForExposure "d" timeout interval settleTime 0 0 [opening] = none ∧
        waitForExposure "d" timeout interval settleTime 0 0 ([opening] ++ [last]) =
          some (.ok (paths, 0)) ∧
        ∀ sensor ∈ (pollOnce "d" last).keys,
          opening.lag "d" sensor = first ∧ last.lag "d" sensor = final ∧
            ¬ SteadyOnce settleTime (observations "d" sensor ([opening] ++ [last])) := by
  refine ⟨fun hclock hwaiting hreturned h sensor hsensor =>
    steadyFor_of_undelayed hclock hwaiting hreturned h hsensor, ?_⟩
  intro first final hfinal hlt hinterval hfirst htimeout
  have hsettle : 0 < settleTime := by linarith
  have hstat : first < timeout := by linarith
  refine ⟨benchPoll 0 first, benchPoll settleTime (settleTime + final), _,
    benchPoll_clocked (by linarith) (by linarith) (by linarith), hfirst,
    benchPoll_waits hsettle hinterval hstat, benchPoll_returns hsettle hinterval hstat (le_refl _),
    fun sensor hsensor => ⟨?_, ?_, fun h => ?_⟩⟩
  · rw [pollOnce_benchPoll, ← pollOnce_benchPoll 0 first] at hsensor
    rw [benchPoll_lag hsensor, sub_zero]
  · rw [benchPoll_lag hsensor, add_sub_cancel_left]
  · have hspan := benchPoll_span (by linarith) h
    linarith

/-- Two prompt polls that start a second apart. -/
theorem settle_window_exact_prompt :
    waitForExposure "d" 120 (1 / 4) 1 0 0 ([benchPoll 0 0] ++ [benchPoll 1 1]) =
        some (.ok (sortedPaths (oneDirectory "d" benchNames) "d", 0)) ∧
      ∀ sensor ∈ (pollOnce "d" (benchPoll 1 1)).keys,
        SteadyFor 1 (observations "d" sensor ([benchPoll 0 0] ++ [benchPoll 1 1])) := by
  have hwaiting : waitForExposure "d" 120 (1 / 4) 1 0 0 [benchPoll 0 0] = none :=
    benchPoll_waits (by norm_num) (by norm_num) (by norm_num)
  have hreturned : waitForExposure "d" 120 (1 / 4) 1 0 0 ([benchPoll 0 0] ++ [benchPoll 1 1]) =
      some (.ok (sortedPaths (oneDirectory "d" benchNames) "d", 0)) :=
    benchPoll_returns (by norm_num) (by norm_num) (by norm_num) (le_refl _)
  have hclock : Clocked ([benchPoll 0 0] ++ [benchPoll 1 1]) :=
    benchPoll_clocked (le_refl 0) (by norm_num) (le_refl 1)
  refine ⟨hreturned, (settle_window_exact 120 (1 / 4) 1).1 hclock hwaiting hreturned ?_⟩
  intro earlier opening rest hwindow sensor hsensor _
  -- Whichever of the two opens the window, it stats as promptly as the last.
  have hopening : opening = benchPoll 0 0 ∨ opening = benchPoll 1 1 :=
    List.mem_pair.mp (by rw [← List.singleton_append, hwindow.split]; simp)
  rw [benchPoll_lag hsensor]
  rcases hopening with rfl | rfl
  · rw [pollOnce_benchPoll, ← pollOnce_benchPoll 0 0] at hsensor
    rw [benchPoll_lag hsensor]
    norm_num
  · rw [benchPoll_lag hsensor]

/-- **A window cut short.**  The first poll takes a second to get to the files, the next one
starts a quarter of a second later: the files were observed for a quarter of a second. -/
theorem settle_window_cut_short :
    Clocked ([benchPoll 0 1] ++ [benchPoll (5 / 4) (5 / 4)]) ∧
      waitForExposure "d" 120 (1 / 4) 1 0 0 [benchPoll 0 1] = none ∧
      waitForExposure "d" 120 (1 / 4) 1 0 0 ([benchPoll 0 1] ++ [benchPoll (5 / 4) (5 / 4)]) =
        some (.ok (sortedPaths (oneDirectory "d" benchNames) "d", 0)) ∧
      ∃ sensor ∈ (pollOnce "d" (benchPoll (5 / 4) (5 / 4))).keys,
        ¬ SteadyOnce 1 (observations "d" sensor
          ([benchPoll 0 1] ++ [benchPoll (5 / 4) (5 / 4)])) := by
  refine ⟨benchPoll_clocked (by norm_num) (by norm_num) (le_refl _),
    benchPoll_waits (by norm_num) (by norm_num) (by norm_num),
    benchPoll_returns (by norm_num) (by norm_num) (by norm_num) (by norm_num), "R00_SW0", by decide +kernel,
    fun h => ?_⟩
  have hspan := benchPoll_span (by norm_num) h
  norm_num at hspan

end DonutServer.Trigger
