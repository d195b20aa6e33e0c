/-
What a job's slice holds.

The slice is looked for by what markers have in common, and only where nothing of the kind
follows by a restart.  A line that merely reads like a marker ends it too early, and a
restart that a later job's marker follows does not end it at all.
-/
import Mathlib.Data.List.TakeWhile
import Mathlib.Data.Set.Basic
import DonutServer.Dashboard.LogTail

namespace DonutServer.Dashboard

open PyText Lines

/-! ### Whose lines are whose

A boundary is a line that starts another job's output or a new coordinator's.  Which ids are jobs
has to be known for that, since a line of a job may read like a marker with something in it that is
no id; so the set of job ids is a parameter here, and what is proved holds for any.

`Misleading` lists what can go wrong in the search, one constructor each.  The last of them needs
nothing unusual in the log, only a restart and a later job.
-/

/-- A line that says that what follows is not the job's: another job is starting, or another
coordinator is ready. -/
def Boundary (jobs : Set Bytes) (id line : Bytes) : Prop :=
  (∃ other ∈ jobs, other ≠ id ∧ needleOf other <:+: line) ∨ restartMarker <:+: line

noncomputable instance (jobs : Set Bytes) (id : Bytes) : DecidablePred (Boundary jobs id) :=
  Classical.decPred _

/-- The lines up to a boundary. -/
noncomputable def ownLines (jobs : Set Bytes) (id : Bytes) (later : List Bytes) : List Bytes :=
  later.takeWhile fun l => ¬ Boundary jobs id l

/-- What belongs to a job: its line, and those that follow up to a boundary, as far as a slice
may go. -/
noncomputable def ownText (jobs : Set Bytes) (id own : Bytes) (later : List Bytes) : Bytes :=
  (own ++ (ownLines jobs id later).flatten).take sliceMaxBytes

/-- **What a slice is to be**: what belongs to the job, from where its line starts. -/
structure IsOwn (jobs : Set Bytes) (id : Bytes) (pre : List Bytes) (own : Bytes)
    (later : List Bytes) (slice : Slice) : Prop where
  start : slice.start = pre.flatten.length
  stop : slice.stop = slice.start + (ownText jobs id own later).length
  text : slice.text = clean (ownText jobs id own later)

/-- What misleads the search, where `rest` is what follows the marker in its line and the
search goes back to `start`. -/
inductive Misleading (jobs : Set Bytes) (id : Bytes) (start : Nat) (pre : List Bytes)
    (own rest : Bytes) (later : List Bytes) : Prop
  /-- The search does not go back to the start of the line. -/
  | cut : pre.flatten.length < start → Misleading jobs id start pre own rest later
  /-- The line goes on with what every marker ends with. -/
  | marked : markerSuffix <:+: rest → Misleading jobs id start pre own rest later
  /-- It goes on with what a restart says, and there is no marker-like text behind it. -/
  | restarted : restartMarker <:+: rest → (∀ l ∈ later, ¬ markerSuffix <:+: l) →
      Misleading jobs id start pre own rest later
  /-- An ordinary line of the job reads like a marker. -/
  | ordinary (before : List Bytes) (line : Bytes) (after : List Bytes) :
      later = before ++ line :: after → (∀ l ∈ before ++ [line], ¬ Boundary jobs id l) →
      own.length + before.flatten.length < sliceMaxBytes → markerSuffix <:+: line →
      Misleading jobs id start pre own rest later
  /-- The job ends with a restart, and there is marker-like text somewhere behind it. -/
  | passed (before : List Bytes) (line : Bytes) (after : List Bytes) :
      later = before ++ line :: after → (∀ l ∈ before, ¬ Boundary jobs id l) →
      restartMarker <:+: line → ¬ markerSuffix <:+: line →
      own.length + before.flatten.length < sliceMaxBytes → (∃ l ∈ after, markerSuffix <:+: l) →
      Misleading jobs id start pre own rest later

variable {jobs : Set Bytes} {id own rest data : Bytes} {pre later : List Bytes} {start k : Nat}

/-- A marker ends like all markers. -/
theorem markerSuffix_infix_needleOf : markerSuffix <:+: needleOf id :=
  (List.suffix_append _ _).isInfix

/-- A boundary reads like a marker or like a restart. -/
theorem Boundary.suffix_or_restart {line : Bytes} (h : Boundary jobs id line) :
    markerSuffix <:+: line ∨ restartMarker <:+: line := by
  rcases h with ⟨other, -, -, hheld⟩ | hheld
  · exact Or.inl (markerSuffix_infix_needleOf.trans hheld)
  · exact Or.inr hheld

/-! ### Where the slice ends

The search looks for the end of a marker first, and for a restart only where it finds none; what is
meant is the first of either.  Both ends are computed from the lines here, so that they can be
compared: they agree where nothing misleads the search, and differ in each of the cases in which
something does.
-/

/-- The end that is found: the marker's line is left out of the slice too where it goes on
like a marker or a restart. -/
def foundEnd (own rest : Bytes) (later : List Bytes) : Nat :=
  if markerSuffix <:+: rest then 0
  else if ∃ l ∈ later, markerSuffix <:+: l then
    own.length + (later.takeWhile fun l => ¬ markerSuffix <:+: l).flatten.length
  else if restartMarker <:+: rest then 0
  else own.length + (later.takeWhile fun l => ¬ restartMarker <:+: l).flatten.length

theorem sliceEnd_lineFrom (data : Bytes) (after : Nat) :
    sliceEnd data after =
      ((lineFrom lineFeed markerSuffix data after).or
        (lineFrom lineFeed restartMarker data after)).getD data.length := by
  unfold sliceEnd lineFrom
  rcases findFrom markerSuffix data after with _ | e
  · rcases findFrom restartMarker data after with _ | e
    · rfl
    · rfl
  · rfl

theorem sliceEnd_eq (h : IsLines lineFeed (pre ++ own :: later))
    (hk : lineFeed ∉ own.take k) (hle : k ≤ own.length) :
    sliceEnd (pre ++ own :: later).flatten (pre.flatten.length + k) =
      pre.flatten.length + foundEnd own (own.drop k) later := by
  rw [sliceEnd_lineFrom, lineFrom_lines h (by decide) (by decide) hk hle,
    lineFrom_lines h (by decide) (by decide) hk hle]
  unfold foundEnd
  by_cases hmarked : markerSuffix <:+: own.drop k
  · rw [if_pos hmarked, if_pos hmarked]
    rfl
  rw [if_neg hmarked, if_neg hmarked]
  by_cases hmarker : ∃ l ∈ later, markerSuffix <:+: l
  · rw [if_pos hmarker, if_pos hmarker, ← Nat.add_assoc]
    rfl
  rw [if_neg hmarker, if_neg hmarker, Option.none_or]
  by_cases hrestarted : restartMarker <:+: own.drop k
  · rw [if_pos hrestarted, if_pos hrestarted]
    rfl
  rw [if_neg hrestarted, if_neg hrestarted]
  by_cases hrestart : ∃ l ∈ later, restartMarker <:+: l
  · rw [if_pos hrestart, ← Nat.add_assoc]
    rfl
  · rw [if_neg hrestart]
    have hall : later.takeWhile (fun l => ¬ restartMarker <:+: l) = later := by
      rw [List.takeWhile_eq_self_iff]
      intro l hl
      exact decide_eq_true fun hc => hrestart ⟨l, hl, hc⟩
    rw [hall, List.flatten_append, List.flatten_cons, Option.getD_none, List.length_append,
      List.length_append]

/-- The end that is meant. -/
noncomputable def ownEnd (jobs : Set Bytes) (id own : Bytes) (later : List Bytes) : Nat :=
  own.length + (ownLines jobs id later).flatten.length

/-- The end that is meant, where the first boundary is known. -/
theorem ownEnd_eq {before after : List Bytes} {line : Bytes}
    (hbefore : ∀ l ∈ before, ¬ Boundary jobs id l) (hline : Boundary jobs id line) :
    ownEnd jobs id own (before ++ line :: after) = own.length + before.flatten.length := by
  unfold ownEnd ownLines
  rw [takeWhile_before hbefore (not_not.mpr hline)]

/-- As long as there is no boundary, all lines are the job's. -/
theorem le_ownEnd {before after : List Bytes} (hbefore : ∀ l ∈ before, ¬ Boundary jobs id l) :
    own.length + before.flatten.length ≤ ownEnd jobs id own (before ++ after) := by
  unfold ownEnd ownLines
  rw [List.takeWhile_append_of_pos fun l hl => decide_eq_true (hbefore l hl), List.flatten_append,
    List.length_append]
  omega

/-- The end that is found, line by line. -/
theorem foundEnd_eq {before after : List Bytes} {line : Bytes} (hrest : ¬ markerSuffix <:+: rest)
    (hbefore : ∀ l ∈ before, ¬ markerSuffix <:+: l) (hline : markerSuffix <:+: line) :
    foundEnd own rest (before ++ line :: after) = own.length + before.flatten.length := by
  unfold foundEnd
  rw [if_neg hrest, if_pos ⟨line, List.mem_append_right _ (List.mem_cons_self ..), hline⟩,
    takeWhile_before hbefore (not_not.mpr hline)]

/-- The search goes no further than a line that reads like a marker. -/
theorem foundEnd_le {before after : List Bytes} {line : Bytes} (hline : markerSuffix <:+: line) :
    foundEnd own rest (before ++ line :: after) ≤ own.length + before.flatten.length := by
  by_cases hrest : markerSuffix <:+: rest
  · unfold foundEnd
    rw [if_pos hrest]
    exact Nat.zero_le _
  · by_cases hbefore : ∃ l ∈ before, markerSuffix <:+: l
    · obtain ⟨first, l, others, rfl, hfirst, hl⟩ := exists_first hbefore
      rw [List.append_assoc, List.cons_append, foundEnd_eq hrest hfirst hl, List.flatten_append,
        List.length_append]
      omega
    · push Not at hbefore
      exact (foundEnd_eq hrest hbefore hline).le

/-- A line that reads like something is not empty. -/
theorem length_pos_of_holds {piece line : Bytes} (hne : piece ≠ []) (h : piece <:+: line) :
    0 < line.length :=
  (List.length_pos_of_ne_nil hne).trans_le h.length_le

/-- Where nothing misleads it, the search ends where it is meant to, or the slice is cut off
before either. -/
theorem ends_agree (h : ¬ Misleading jobs id start pre own rest later) :
    min (foundEnd own rest later) sliceMaxBytes = min (ownEnd jobs id own later) sliceMaxBytes := by
  have hrest : ¬ markerSuffix <:+: rest := fun hc => h (.marked hc)
  by_cases hmarker : ∃ l ∈ later, markerSuffix <:+: l
  · obtain ⟨before, line, after, rfl, hbefore, hline⟩ := exists_first hmarker
    rw [foundEnd_eq hrest hbefore hline]
    by_cases hboundary : ∃ l ∈ before, Boundary jobs id l
    · -- It passes a restart, behind which the slice is cut off.
      obtain ⟨first, l, others, rfl, hfirst, hl⟩ := exists_first hboundary
      have hplain : ¬ markerSuffix <:+: l := hbefore l (by simp)
      have hcap : sliceMaxBytes ≤ own.length + first.flatten.length := by
        by_contra hlt
        refine h (.passed first l (others ++ line :: after) (by simp) hfirst
          (hl.suffix_or_restart.resolve_left hplain) hplain (not_le.mp hlt) ⟨line, by simp, hline⟩)
      rw [List.append_assoc, List.cons_append, ownEnd_eq hfirst hl, List.flatten_append,
        List.length_append]
      omega
    · push Not at hboundary
      by_cases hl : Boundary jobs id line
      · rw [ownEnd_eq hboundary hl]
      · -- It stops at an ordinary line, before which the slice is cut off.
        have hall : ∀ l ∈ before ++ [line], ¬ Boundary jobs id l := by
          intro l hmem
          rcases List.mem_append.mp hmem with hmem | hmem
          · exact hboundary l hmem
          · rwa [List.mem_singleton.mp hmem]
        have hcap : sliceMaxBytes ≤ own.length + before.flatten.length := by
          by_contra hlt
          exact h (.ordinary before line after rfl hall (not_le.mp hlt) hline)
        have hle : own.length + before.flatten.length ≤
            ownEnd jobs id own (before ++ line :: after) := le_ownEnd hboundary
        omega
  · have hrestarted : ¬ restartMarker <:+: rest :=
      fun hc => h (.restarted hc fun l hl hheld => hmarker ⟨l, hl, hheld⟩)
    have hsame : later.takeWhile (fun l => ¬ restartMarker <:+: l) = ownLines jobs id later := by
      refine takeWhile_congr fun l hl => not_congr ⟨Or.inr, fun hb => ?_⟩
      exact hb.suffix_or_restart.resolve_left fun hc => hmarker ⟨l, hl, hc⟩
    unfold foundEnd
    rw [if_neg hrest, if_neg hmarker, if_neg hrestarted, hsame]
    rfl

/-- The search does not end with a restart that marker-like text follows. -/
theorem foundEnd_ne {before after : List Bytes} {line : Bytes} (hown : 0 < own.length)
    (hrestart : restartMarker <:+: line) (hplain : ¬ markerSuffix <:+: line)
    (hmarker : ∃ l ∈ after, markerSuffix <:+: l) :
    foundEnd own rest (before ++ line :: after) ≠ own.length + before.flatten.length := by
  by_cases hrest : markerSuffix <:+: rest
  · unfold foundEnd
    rw [if_pos hrest]
    omega
  by_cases hbefore : ∃ l ∈ before, markerSuffix <:+: l
  · obtain ⟨first, l, others, rfl, hfirst, hl⟩ := exists_first hbefore
    have hlength := length_pos_of_holds (by decide) hl
    rw [List.append_assoc, List.cons_append, foundEnd_eq hrest hfirst hl, List.flatten_append,
      List.flatten_cons, List.length_append, List.length_append]
    omega
  · push Not at hbefore
    obtain ⟨first, l, others, rfl, hfirst, hl⟩ := exists_first hmarker
    have hall : ∀ m ∈ before ++ line :: first, ¬ markerSuffix <:+: m := by
      intro m hm
      rcases List.mem_append.mp hm with hm | hm
      · exact hbefore m hm
      · rcases List.mem_cons.mp hm with rfl | hm
        · exact hplain
        · exact hfirst m hm
    have hlength := length_pos_of_holds (by decide) hrestart
    have hmore : (before ++ line :: first).flatten.length =
        before.flatten.length + (line.length + first.flatten.length) := by
      rw [List.flatten_append, List.flatten_cons, List.length_append, List.length_append]
    rw [← List.cons_append, ← List.append_assoc, foundEnd_eq hrest hall hl]
    omega

/-- Where anything misleads it, the search ends somewhere else. -/
theorem ends_differ (hpos : own ≠ []) (hstart : ¬ pre.flatten.length < start)
    (h : Misleading jobs id start pre own rest later) :
    min (foundEnd own rest later) sliceMaxBytes ≠ min (ownEnd jobs id own later) sliceMaxBytes := by
  have hown := List.length_pos_of_ne_nil hpos
  have hcap : 0 < sliceMaxBytes := by decide
  have hend : own.length ≤ ownEnd jobs id own later := Nat.le_add_right _ _
  rcases h with hcut | hmarked | ⟨hrestarted, hplain⟩ |
    ⟨before, line, after, rfl, hall, hlt, hline⟩ |
    ⟨before, line, after, rfl, hbefore, hrestart, hplain, hlt, hmarker⟩
  · exact absurd hcut hstart
  · unfold foundEnd
    rw [if_pos hmarked]
    omega
  · have hmarker : ¬ ∃ l ∈ later, markerSuffix <:+: l := by
      intro hc
      obtain ⟨l, hl, hheld⟩ := hc
      exact hplain l hl hheld
    have hzero : foundEnd own rest later = 0 := by
      unfold foundEnd
      rw [if_neg hmarker, if_pos hrestarted, ite_self]
    omega
  · have hle : foundEnd own rest (before ++ line :: after) ≤ own.length + before.flatten.length :=
      foundEnd_le hline
    have hmore : own.length + (before ++ [line]).flatten.length ≤
        ownEnd jobs id own (before ++ [line] ++ after) := le_ownEnd hall
    have hpos := length_pos_of_holds (by decide) hline
    rw [List.append_assoc, List.singleton_append, List.flatten_append, List.length_append,
      List.flatten_singleton] at hmore
    omega
  · have hsame : ownEnd jobs id own (before ++ line :: after) = own.length + before.flatten.length :=
      ownEnd_eq hbefore (Or.inr hrestart)
    have hne : foundEnd own rest (before ++ line :: after) ≠ own.length + before.flatten.length :=
      foundEnd_ne hown hrestart hplain hmarker
    omega

/-! ### The slice of a window

Only the last part of the log is searched, and a slice is cut off at a number of bytes.  Both
limits fall where they fall, in the middle of a line or of a character; the lemmas say what of the
lines is inside them.
-/

theorem lineFeed_not_mem_needleOf (hid : lineFeed ∉ id) : lineFeed ∉ needleOf id := by
  intro hc
  rcases List.mem_append.mp hc with hc | hc
  · rcases List.mem_append.mp hc with hc | hc
    · exact absurd hc (by decide)
    · exact hid hc
  · exact absurd hc (by decide)

theorem needleOf_ne_nil : needleOf id ≠ [] := by
  intro hc
  exact absurd (List.append_eq_nil_iff.mp hc).2 (by decide)

/-- A marker ends within its line, before the end of the line. -/
theorem marker_in_line {line : Bytes} {lines' : List Bytes} (hlines : IsLines lineFeed (line :: lines'))
    (hid : lineFeed ∉ id) (hk : rfind (needleOf id) line = some k) :
    k < line.length ∧ k + (needleOf id).length ≤ line.length ∧
      lineFeed ∉ line.take (k + (needleOf id).length) := by
  obtain ⟨tail, htail⟩ := prefix_of_rfind hk
  have hlength := congrArg List.length htail
  rw [List.length_append, List.length_drop] at hlength
  have hpos : 0 < (needleOf id).length := List.length_pos_of_ne_nil needleOf_ne_nil
  have hlt : k < line.length := by omega
  refine ⟨hlt, by omega, fun hc => ?_⟩
  rw [List.take_add, ← htail, List.take_left] at hc
  rcases List.mem_append.mp hc with hc | hc
  · exact hlines.not_mem_take hlt hc
  · exact lineFeed_not_mem_needleOf hid hc

theorem take_drop_flatten (m : Nat) :
    ((pre ++ own :: later).flatten.take (pre.flatten.length + m)).drop pre.flatten.length =
      (own ++ later.flatten).take m := by
  rw [List.flatten_append, List.flatten_cons, List.take_length_add_append, List.drop_left]

theorem capped_eq (first n : Nat) :
    (if decide (sliceMaxBytes < first + n - first) = true then first + sliceMaxBytes
      else first + n) = first + min n sliceMaxBytes := by
  simp only [decide_eq_true_eq]
  split
  · omega
  · omega

theorem sliceAt_eq (base : Searched) (start : Nat) (h : IsLines lineFeed (pre ++ own :: later))
    (hid : lineFeed ∉ id) (hk : rfind (needleOf id) own = some k) :
    let found := min (foundEnd own (own.drop (k + (needleOf id).length)) later) sliceMaxBytes
    let slice := sliceAt base start (pre ++ own :: later).flatten (needleOf id)
      (pre.flatten.length + k)
    slice.start = start + pre.flatten.length ∧ slice.stop = slice.start + found ∧
      slice.text = clean ((own ++ later.flatten).take found) := by
  obtain ⟨hlt, hle, hmem⟩ := marker_in_line h.right hid hk
  have hfirst := lineStart_lines h hlt
  have hnext := sliceEnd_eq h hmem hle
  rw [← Nat.add_assoc] at hnext
  intro found slice
  have hstop : slice.stop = start + (pre.flatten.length + found) := by
    show start + _ = _
    rw [hfirst, hnext, capped_eq]
  have htext : slice.text = clean ((own ++ later.flatten).take found) := by
    show clean _ = _
    rw [hfirst, hnext, capped_eq, take_drop_flatten]
  have hstart : slice.start = start + pre.flatten.length := by
    show start + _ = _
    rw [hfirst]
  exact ⟨hstart, by rw [hstop, hstart, Nat.add_assoc], htext⟩

/-- What belongs to a job is the beginning of what follows, up to where it ends or is cut off. -/
theorem ownText_eq :
    ownText jobs id own later =
      (own ++ later.flatten).take (min (ownEnd jobs id own later) sliceMaxBytes) := by
  have hsplit : later.flatten = (ownLines jobs id later).flatten ++
      (later.dropWhile fun l => ¬ Boundary jobs id l).flatten := by
    rw [← List.flatten_append]
    exact congrArg List.flatten List.takeWhile_append_dropWhile.symm
  have hlength : ownEnd jobs id own later = (own ++ (ownLines jobs id later).flatten).length := by
    rw [List.length_append]
    rfl
  rw [hsplit, ← List.append_assoc, hlength, Nat.min_comm, ← List.take_take, List.take_left]
  rfl

theorem length_ownText :
    (ownText jobs id own later).length = min (ownEnd jobs id own later) sliceMaxBytes := by
  unfold ownText ownEnd
  rw [List.length_take, List.length_append, Nat.min_comm]

/-- The slice holds what it is to hold exactly if nothing misleads the search. -/
theorem isOwn_iff {slice : Slice} (hpos : own ≠ []) (hstart : ¬ pre.flatten.length < start)
    (hfirst : slice.start = pre.flatten.length)
    (hstop : slice.stop = slice.start + min (foundEnd own rest later) sliceMaxBytes)
    (htext : slice.text =
      clean ((own ++ later.flatten).take (min (foundEnd own rest later) sliceMaxBytes))) :
    IsOwn jobs id pre own later slice ↔ ¬ Misleading jobs id start pre own rest later := by
  constructor
  · intro h hmisleading
    have hends := h.stop
    rw [hstop, length_ownText] at hends
    exact ends_differ hpos hstart hmisleading (Nat.add_left_cancel hends)
  · intro h
    have hends := ends_agree h
    refine ⟨hfirst, ?_, ?_⟩
    · rw [hstop, length_ownText, hends]
    · rw [htext, ownText_eq, hends]

/-! ### The slice of a log

The marker is looked for from the end, so that the last run of a job is the one shown.  What stands
before it in the window does not matter, but for where its line starts.
-/

/-- A marker that is there has a last place. -/
theorem exists_rfind {piece : Bytes} (h : piece <:+: data) : ∃ i, rfind piece data = some i := by
  rcases hfind : rfind piece data with _ | i
  · exact absurd h (not_infix_of_rfind hfind)
  · exact ⟨i, rfl⟩

variable {log : LogFile} {content : Bytes} {jobId : CodePoints}

/-- The slice of a job whose marker is found. -/
theorem sliceReply_found {base : Searched} {i : Nat} (hencode : encode base.jobId = some id)
    (hi : rfind (needleOf id) data = some i) :
    sliceReply base start data = .ok (.found (sliceAt base start data (needleOf id) i)) := by
  unfold sliceReply
  rw [hencode]
  dsimp only
  rw [hi]

theorem jobSlice_eq {size : Nat} (hcontent : log.content = some content)
    (hread : readTail content sliceSearchBytes = (size, start, data)) :
    jobSlice log jobId = sliceReply ⟨log.path, size, jobId, data.length⟩ start data := by
  unfold jobSlice
  rw [hcontent]
  dsimp only
  rw [hread]

/-- **A job's slice is its own**, exactly if nothing misleads the search.  The job's line is the
last one of the log with its marker. -/
theorem slice_is_own (jobs : Set Bytes) (hcontent : log.content = some content)
    (hencode : encode jobId = some id) (hid : lineFeed ∉ id)
    (hmarker : needleOf id <:+: (readTail content sliceSearchBytes).2.2) :
    ∃ slice pre own later k, jobSlice log jobId = .ok (.found slice) ∧
      lines lineFeed content = pre ++ own :: later ∧ rfind (needleOf id) own = some k ∧
      (∀ l ∈ later, ¬ needleOf id <:+: l) ∧
      (IsOwn jobs id pre own later slice ↔
        ¬ Misleading jobs id (content.length - sliceSearchBytes) pre own
          (own.drop (k + (needleOf id).length)) later) := by
  have hread : readTail content sliceSearchBytes = _ := readTail_eq _
  rw [hread] at hmarker
  generalize hstart : content.length - sliceSearchBytes = start at hread hmarker ⊢
  obtain ⟨i, hi⟩ := exists_rfind hmarker
  have hslice := (jobSlice_eq hcontent hread).trans (sliceReply_found hencode hi)
  have hlines := isLines_lines lineFeed (content.drop start)
  rw [← flatten_lines lineFeed (content.drop start)] at hi
  obtain ⟨wpre, wown, later, k, hsplit, hlater, hk, rfl⟩ :=
    rfind_lines hlines (lineFeed_not_mem_needleOf hid) needleOf_ne_nil hi
  have hdata : content.drop start = (wpre ++ wown :: later).flatten := by
    rw [← hsplit, flatten_lines]
  rw [hsplit] at hlines
  rw [hdata] at hslice
  obtain ⟨pre, missing, hlog, hlength, hmissing⟩ := lines_of_window hsplit (by omega)
  obtain ⟨hfirst, hstop, htext⟩ := sliceAt_eq
    ⟨log.path, content.length, jobId, (wpre ++ wown :: later).flatten.length⟩ start hlines hid hk
  refine ⟨_, pre, missing ++ wown, later, missing.length + k, hslice, hlog, rfind_append hk, hlater, ?_⟩
  by_cases hcut : missing = []
  · obtain rfl := hcut
    rw [List.length_nil, Nat.add_zero] at hlength
    rw [List.nil_append, List.length_nil, Nat.zero_add]
    exact isOwn_iff hlines.right.ne_nil (by omega) (by rw [hfirst, hlength]) hstop htext
  · refine iff_of_false (fun h => ?_) (not_not.mpr (.cut (hmissing hcut)))
    have hpos := List.length_pos_of_ne_nil hcut
    have hsame := h.start
    rw [hfirst] at hsame
    omega

/-- A log in which a job is followed by another. -/
def followedContent : Bytes :=
  ascii "coordinator ready, pid 6\njob a: starting\nfitting\njob b: starting\nfitting\n"

def followedLog : LogFile := ⟨"donut.log", some followedContent⟩

/-- The slice of the first job ends where the second one starts. -/
theorem slice_is_own_followed :
    ∃ slice, jobSlice followedLog (ofString "a") = .ok (.found slice) ∧
      IsOwn {ascii "a", ascii "b"} (ascii "a") [ascii "coordinator ready, pid 6\n"]
        (ascii "job a: starting\n")
        [ascii "fitting\n", ascii "job b: starting\n", ascii "fitting\n"] slice := by
  have hcontent : followedLog.content = some followedContent := rfl
  have hencode : encode (ofString "a") = some (ascii "a") := by decide +kernel
  have hsplit : lines lineFeed followedContent = [ascii "coordinator ready, pid 6\n"] ++
      ascii "job a: starting\n" ::
        [ascii "fitting\n", ascii "job b: starting\n", ascii "fitting\n"] := by
    decide +kernel
  obtain ⟨slice, pre, own, later, k, hslice, hlines, hk, hlater, hiff⟩ :=
    slice_is_own {ascii "a", ascii "b"} hcontent hencode (by decide +kernel) (by decide +kernel)
  have hheld : needleOf (ascii "a") <:+: own :=
    (prefix_of_rfind hk).isInfix.trans (List.drop_suffix k own).isInfix
  obtain ⟨rfl, rfl, rfl⟩ := split_unique (hlines.symm.trans hsplit) hheld (by decide +kernel) hlater
    (by decide +kernel)
  obtain rfl : k = 0 := Option.some.inj (hk.symm.trans (by decide +kernel))
  refine ⟨slice, hslice, hiff.mpr fun hbad => ?_⟩
  have hplain : ∀ l ∈ [ascii "fitting\n", ascii "job b: starting\n", ascii "fitting\n"],
      ¬ restartMarker <:+: l ∧ (markerSuffix <:+: l → needleOf (ascii "b") <:+: l) := by
    decide +kernel
  cases hbad with
  | cut hcut => exact absurd hcut (by decide +kernel)
  | marked hmarked => exact absurd hmarked (by decide +kernel)
  | restarted hrestarted => exact absurd hrestarted (by decide +kernel)
  | ordinary before line after hsame hall hlt hline =>
      have hmem := (hplain line (hsame ▸ by simp)).2 hline
      exact hall line (by simp) (Or.inl ⟨ascii "b", by simp, by decide +kernel, hmem⟩)
  | passed before line after hsame hall hrestart hmarker hlt hafter =>
      exact (hplain line (hsame ▸ by simp)).1 hrestart

/-- A log of two jobs, with a restart in between. -/
def restartedContent : Bytes :=
  ascii "job a: starting\nfitting\ncoordinator ready, pid 7\njob b: starting\n"

def restartedLog : LogFile := ⟨"donut.log", some restartedContent⟩

/-- **A slice that runs on.**  The first job ended with the restart; its slice ends where the
second job starts. -/
theorem slice_passes_restart :
    ∃ slice own later, jobSlice restartedLog (ofString "a") = .ok (.found slice) ∧
      lines lineFeed restartedContent = own :: later ∧ needleOf (ascii "a") <:+: own ∧
      slice.text = ofString "job a: starting\nfitting\ncoordinator ready, pid 7\n" ∧
      ¬ IsOwn {ascii "a", ascii "b"} (ascii "a") [] own later slice := by
  have hslice : jobSlice restartedLog (ofString "a") =
      .ok (.found ⟨⟨"donut.log", 65, ofString "a", 65⟩, 0, 49, 49, false,
        ofString "job a: starting\nfitting\ncoordinator ready, pid 7\n"⟩) := by decide +kernel
  refine ⟨_, ascii "job a: starting\n", [ascii "fitting\n"] ++
    ascii "coordinator ready, pid 7\n" :: [ascii "job b: starting\n"], hslice, by decide +kernel,
    by decide +kernel, rfl, fun h => ?_⟩
  have hfitting : ∀ l ∈ [ascii "fitting\n"],
      ¬ Boundary {ascii "a", ascii "b"} (ascii "a") l := by
    intro l hl hb
    rw [List.mem_singleton.mp hl] at hb
    rcases hb.suffix_or_restart with hc | hc
    · exact absurd hc (by decide +kernel)
    · exact absurd hc (by decide +kernel)
  have hstop := h.stop
  rw [length_ownText, ownEnd_eq hfitting (Or.inr (by decide +kernel))] at hstop
  exact absurd hstop (by decide +kernel)

end DonutServer.Dashboard
