/-
A hook that fires twice.

`SUBMITTED` is read when a submit knows its visit, and written when its prepare has
succeeded; in between the submit waits for a whole prepare.  So the guard holds against
submits that come when the first is prepared, and not against one that comes while the
first is still being prepared, or after its prepare has failed.
-/
import DonutServer.Server.Stranded

namespace DonutServer

open Function

variable {κ σ : Type} {n : Nat} {cfg : CoordSettings} {prog : ChildProgram κ σ}

/-! ### What a hook leaves behind

A hook stands at one of the later stages of a submit until it is answered.  To count the hooks for
a visit that got through, it is enough to ask of each request which visit it is for and whether it
was turned away by the guard.
-/

/-- What a submit that knows what its directory holds was given, at any later stage. -/
def Progress.submission : Progress n → Option Submission
  | .resolved sub => some sub
  | .preparing _ _ _ sub => sub
  | .submitted _ _ sub => some sub
  | .ingesting _ _ _ _ _ sub => sub.map Prod.snd
  | _ => none

/-- The visit a submit wants to run, if it is one that the duplicate guard is for. -/
def Submission.fires (sub : Submission) : Option Int :=
  if sub.request.dryRun = false ∧ sub.imgtypeAccepted = true then sub.guardedVisit else none

theorem Submission.fires_visit {sub : Submission} {visit : Int} (h : sub.fires = some visit) :
    sub.request.dryRun = false ∧ sub.imgtypeAccepted = true ∧ sub.guardedVisit = some visit ∧
      sub.found.visit = some visit := by
  unfold Submission.fires at h
  split at h
  · rename_i hruns
    refine ⟨hruns.1, hruns.2, h, ?_⟩
    unfold Submission.guardedVisit at h
    split at h
    · exact absurd h (by simp)
    · exact h
  · exact absurd h (by simp)

theorem Submission.record_self {submitted : Int → Option JobId} {jobId : JobId} {visit : Int}
    (sub : Submission) (h : sub.found.visit = some visit) :
    sub.record jobId submitted visit = some jobId := by
  unfold Submission.record
  rw [h]
  exact update_self _ _ _

theorem Submission.record_grows {submitted : Int → Option JobId} {jobId : JobId} {visit : Int}
    (sub : Submission) (h : submitted visit ≠ none) : sub.record jobId submitted visit ≠ none := by
  cases hv : sub.found.visit with
  | none =>
      unfold Submission.record
      rw [hv]
      exact h
  | some v =>
      by_cases hvisit : v = visit
      · rw [sub.record_self (hv.trans (congrArg some hvisit))]
        simp
      · unfold Submission.record
        rw [hv]
        exact (update_of_ne (Ne.symm hvisit) _ _).trans_ne h

namespace Handler

/-- The visit the request is a hook for. -/
def fires (h : Handler n) : Option Int := h.progress.submission.bind Submission.fires

/-- It was answered 409 by the duplicate guard. -/
def refused (h : Handler n) : Bool :=
  match h.progress, h.reply with
  | .resolved _, some (.httpException status _) => status = 409
  | _, _ => false

/-- It got past the guard, and `SUBMITTED` has not heard of it: its prepare is still to
come or to come back, or has failed. -/
def unrecorded (h : Handler n) : Bool :=
  match h.progress with
  | .resolved _ => !h.refused
  | .preparing _ _ _ _ => true
  | _ => false

end Handler

namespace Server

variable {s s' : Server κ n} {c : CallId}

/-- Of two hooks for one visit at least one is answered 409. -/
def SubmitsOnce (s : Server κ n) : Prop :=
  ∀ visit c c' h h', s.handlers c = some h → s.handlers c' = some h' → h.fires = some visit →
    h'.fires = some visit → c ≠ c' → h.refused = true ∨ h'.refused = true

/-! ### The condition

`SUBMITTED` speaks for a hook from the step on in which its prepare has succeeded.  A hook that
finds no entry is in order as long as there is no other one past the guard that `SUBMITTED` has not
heard of.
-/

/-- A hook that is past the guard and on the books is in `SUBMITTED`. -/
def Recorded (s : Server κ n) : Prop :=
  ∀ c h visit, s.handlers c = some h → h.fires = some visit →
    h.refused = true ∨ h.unrecorded = true ∨ s.submitted visit ≠ none

/-- The request that goes on is a hook, and finds no entry for its visit. -/
def firing (s : Server κ n) : Option (CallId × Int) :=
  match s.running with
  | some (c, .result result) =>
      match s.handlers c with
      | some ⟨.resolving _ request directory, none⟩ =>
          (result.found.bind fun found => (Submission.mk request directory found).fires).bind
            fun visit => if s.submitted visit = none then some (c, visit) else none
      | _ => none
  | _ => none

/-- Runs in which a hook that finds no entry for its visit is the only one past the guard. -/
def firesAlone (s : Server κ n) (_ : ServerAction σ n) (_ : Server κ n) : Prop :=
  ∀ c visit, s.firing = some (c, visit) → ∀ c' h, s.handlers c' = some h →
    h.fires = some visit → h.unrecorded = false

/-! ### What one request does

A step changes one request, so it is enough to say what that one was before and after: no hook at
all, a hook that goes on as what it was, one that gets on the books, or the one that gets past the
guard just now.
-/

/-- The request was a hook before, is refused, or no other hook for its visit stands. -/
def Comes (s : Server κ n) (c : CallId) (handler : Handler n) : Prop :=
  ∀ visit, handler.fires = some visit → handler.refused = true ∨
    (∃ h, s.handlers c = some h ∧ h.fires = some visit ∧ h.refused = false) ∨
    ∀ c' h', s.handlers c' = some h' → h'.fires = some visit → h'.refused = true

theorem SubmitsOnce.step {handler : Handler n} (h : s.SubmitsOnce)
    (hhandlers : s'.handlers = update s.handlers c (some handler)) (hcomes : s.Comes c handler) :
    s'.SubmitsOnce := by
  have hself : ∀ visit c' h', c' ≠ c → s.handlers c' = some h' → handler.fires = some visit →
      h'.fires = some visit → handler.refused = true ∨ h'.refused = true := by
    intro visit c' h' hne hh' hfires hfires'
    rcases hcomes visit hfires with hrefused | ⟨g, hg, hgfires, hgrefused⟩ | hall
    · exact Or.inl hrefused
    · rcases h visit c c' g h' hg hh' hgfires hfires' (Ne.symm hne) with hr | hr
      · exact absurd (hgrefused.symm.trans hr) (by simp)
      · exact Or.inr hr
    · exact Or.inr (hall c' h' hh' hfires')
  intro visit c₁ c₂ h₁ h₂ hh₁ hh₂ hf₁ hf₂ hne
  rw [hhandlers] at hh₁ hh₂
  by_cases hc₁ : c₁ = c
  · subst hc₁
    rw [update_self] at hh₁
    rw [update_of_ne (Ne.symm hne)] at hh₂
    obtain rfl := Option.some.inj hh₁
    exact hself visit c₂ h₂ (Ne.symm hne) hh₂ hf₁ hf₂
  · rw [update_of_ne hc₁] at hh₁
    by_cases hc₂ : c₂ = c
    · subst hc₂
      rw [update_self] at hh₂
      obtain rfl := Option.some.inj hh₂
      exact (hself visit c₁ h₁ hne hh₁ hf₂ hf₁).symm
    · rw [update_of_ne hc₂] at hh₂
      exact h visit c₁ c₂ h₁ h₂ hh₁ hh₂ hf₁ hf₂ hne

theorem Recorded.step {handler : Handler n} (h : s.Recorded)
    (hhandlers : s'.handlers = update s.handlers c (some handler))
    (hsubmitted : ∀ visit, s.submitted visit ≠ none → s'.submitted visit ≠ none)
    (hself : ∀ visit, handler.fires = some visit →
      handler.refused = true ∨ handler.unrecorded = true ∨ s'.submitted visit ≠ none) :
    s'.Recorded := by
  intro c' h' visit hh' hfires
  rw [hhandlers] at hh'
  by_cases hc : c' = c
  · subst hc
    rw [update_self] at hh'
    obtain rfl := Option.some.inj hh'
    exact hself visit hfires
  · rw [update_of_ne hc] at hh'
    exact (h c' h' visit hh' hfires).imp_right (Or.imp_right (hsubmitted visit))

/-- Both, as they are kept together. -/
structure Guarded (s : Server κ n) : Prop where
  once : s.SubmitsOnce
  recorded : s.Recorded

/-- A request that is no hook. -/
theorem Guarded.other {handler : Handler n} (h : s.Guarded)
    (hhandlers : s'.handlers = update s.handlers c (some handler))
    (hsubmitted : s'.submitted = s.submitted) (hfires : handler.fires = none) : s'.Guarded := by
  refine ⟨h.once.step hhandlers fun visit hv => ?_, h.recorded.step hhandlers ?_ fun visit hv => ?_⟩
  · exact absurd (hfires.symm.trans hv) (by simp)
  · rw [hsubmitted]
    exact fun _ => id
  · exact absurd (hfires.symm.trans hv) (by simp)

/-- A hook that goes on, or is answered, as what it was. -/
theorem Guarded.goes {handler : Handler n} {progress : Progress n} (h : s.Guarded)
    (hc : s.At c progress) (hhandlers : s'.handlers = update s.handlers c (some handler))
    (hsubmitted : ∀ visit, s.submitted visit ≠ none → s'.submitted visit ≠ none)
    (hsame : handler.progress.submission = progress.submission)
    (hself : ∀ visit, handler.fires = some visit →
      handler.refused = true ∨ handler.unrecorded = true ∨ s'.submitted visit ≠ none) :
    s'.Guarded := by
  refine ⟨h.once.step hhandlers fun visit hv => Or.inr (Or.inl ⟨_, hc, ?_, ?_⟩), ?_⟩
  · show progress.submission.bind Submission.fires = _
    rw [← hsame]
    exact hv
  · cases progress <;> rfl
  · exact h.recorded.step hhandlers hsubmitted hself

/-- Once it is in `SUBMITTED`, a hook stays on the books. -/
theorem Guarded.booked {progress : Progress n} {visit : Int} (h : s.Guarded)
    (hc : s.At c progress) (hfires : progress.submission.bind Submission.fires = some visit)
    (hpast : Handler.unrecorded (⟨progress, none⟩ : Handler n) = false) :
    s.submitted visit ≠ none := by
  rcases h.recorded c _ visit hc hfires with hrefused | hun | hbooked
  · cases progress <;> exact absurd hrefused (by simp [Handler.refused])
  · exact absurd (hpast.symm.trans hun) (by simp)
  · exact hbooked

/-- A hook that finds nothing in `SUBMITTED` is the one that is named as firing. -/
theorem firing_eq {i : FlightId n} {request : SubmitRequest} {directory : String} {result : Result}
    {sub : Submission} {visit : Int} (hr : s.running = some (c, .result result))
    (hc : s.At c (.resolving i request directory))
    (hfound : result.found.map (Submission.mk request directory) = some sub)
    (hfires : sub.fires = some visit) (hnone : s.submitted visit = none) :
    s.firing = some (c, visit) := by
  obtain ⟨found, hf, rfl⟩ := Option.map_eq_some_iff.mp hfound
  have hc : s.handlers c = some ⟨.resolving i request directory, none⟩ := hc
  unfold firing
  simp only [hr, hc, hf, Option.bind_some, hfires, hnone, if_true]

/-- What is known where a hook is named as firing. -/
theorem firing_inv {visit : Int} (h : s.firing = some (c, visit)) :
    ∃ i request directory r found, s.running = some (c, .result (.response r)) ∧
      s.At c (.resolving i request directory) ∧ r.msg = .resolved found ∧
      (Submission.mk request directory found).fires = some visit ∧ s.submitted visit = none := by
  unfold firing at h
  split at h
  · rename_i c' result hr
    split at h
    · rename_i i request directory hc
      obtain ⟨visit', hfires, hnone⟩ := Option.bind_eq_some_iff.mp h
      obtain ⟨found, hfound, hfires⟩ := Option.bind_eq_some_iff.mp hfires
      split at hnone
      · rename_i hfree
        obtain ⟨rfl, rfl⟩ := Prod.mk.inj (Option.some.inj hnone)
        unfold Result.found at hfound
        split at hfound
        · rename_i r
          split at hfound
          · rename_i found' hmsg
            obtain rfl := Option.some.inj hfound
            exact ⟨i, request, directory, r, found', hr, hc, hmsg, hfires, hfree⟩
          · exact absurd hfound (by simp)
        · exact absurd hfound (by simp)
      · exact absurd hnone (by simp)
    · exact absurd h (by simp)
  · exact absurd h (by simp)

/-- The hook that is named as firing gets past the guard. -/
theorem firing_next {visit : Int} {a : ServerAction σ n} (h : s.firing = some (c, visit))
    (hstep : s.next cfg prog a = some s') :
    ∃ handler, handler.fires = some visit ∧ handler.refused = false ∧
      (∀ g, s.handlers c = some g → g.fires = none) ∧
      s'.handlers = update s.handlers c (some handler) := by
  obtain ⟨i, request, directory, r, found, hr, hc, hmsg, hfires, hfree⟩ := firing_inv h
  have hc : s.handlers c = some ⟨.resolving i request directory, none⟩ := hc
  obtain ⟨hrun, himg, hguard, _⟩ := Submission.fires_visit hfires
  refine ⟨⟨.resolved ⟨request, directory, found⟩, none⟩, hfires, rfl, fun g hg => ?_, ?_⟩
  · rw [← Option.some.inj (hc.symm.trans hg)]
    rfl
  · cases a with
    | resume uuid =>
        unfold next at hstep
        have hrun : request.dryRun = false := hrun
        simp only [hr, resume, hc, afterResolve, if_true, hmsg, guardSubmit, hrun, himg, hguard,
          Option.bind_some, hfree, Bool.false_eq_true, if_false] at hstep
        rw [← Option.some.inj hstep]
        rfl
    | _ =>
        unfold next at hstep
        rw [hr] at hstep
        exact absurd hstep (by simp)

/-! ### One step, and every run

Only in the last case are the others looked at, and there the condition says that none of them is
for the same visit and unrecorded.  The converse is the same case read backwards.
-/

/-- The step lemma. -/
theorem Guarded.next {a : ServerAction σ n} (h : s.Guarded) (hok : firesAlone s a s')
    (hstep : s.next cfg prog a = some s') : s'.Guarded := by
  have hm := next_moves hstep
  generalize hr : s.running = r at hm
  have h₀ : Guarded { s with running := none } := ⟨h.once, h.recorded⟩
  have hsame : ∀ visit, s.submitted visit ≠ none → s.submitted visit ≠ none := fun _ => id
  cases hm with
  | tick => exact ⟨h.once, h.recorded⟩
  | refused c | resolve c | unresolved c | prepare c | prepared c | pushQueued c | pushBegun c
  | pushGranted c | chunkHeader c | chunkBody c | headerRefused c | headerAccepted c
  | layoutRefused c | layoutCrashed c | dispatched c | pushed c => exact h₀.other rfl rfl rfl
  | overflow c _ _ _ _ _ _ hp | disconnect c _ _ _ _ hp =>
      exact h₀.other rfl rfl (by cases hp <;> rfl)
  | turnedDown c _ _ _ _ sub reply _ hc hreply =>
      cases hreply with
      | dryRun hdry =>
          refine h₀.other rfl rfl (if_neg fun hruns => ?_)
          exact absurd (hdry.symm.trans hruns.1) (by simp)
      | skipped _ hskip =>
          refine h₀.other rfl rfl (if_neg fun hruns => ?_)
          exact absurd (hskip.symm.trans hruns.2) (by simp)
      | duplicate visit previous detail hvisit hprevious =>
          exact ⟨h₀.once.step rfl fun _ _ => Or.inl rfl,
            h₀.recorded.step rfl hsame fun _ _ => Or.inl rfl⟩
  | guarded c i request directory result sub _ hc hrun himg hguard hfound =>
      refine ⟨h₀.once.step rfl fun visit hfires => ?_,
        h₀.recorded.step rfl hsame fun _ _ => Or.inr (Or.inl rfl)⟩
      have hnone := hguard visit (Submission.fires_visit hfires).2.2.1
      refine Or.inr (Or.inr fun c' h' hh' hfires' => ?_)
      rcases h.recorded c' h' visit hh' hfires' with hrefused | hun | hbooked
      · exact hrefused
      · have hfalse := hok c visit (firing_eq hr hc hfound hfires hnone) c' h' hh' hfires'
        exact absurd (hfalse.symm.trans hun) (by simp)
      · exact absurd hnone hbooked
  | prepareSubmitted c _ sub _ hc => exact h₀.goes hc rfl hsame rfl fun _ _ => Or.inr (Or.inl rfl)
  | invalid c sub reply _ hc hreply =>
      refine h₀.goes hc rfl hsame rfl fun _ _ => Or.inr (Or.inl ?_)
      have hnot : Handler.refused (⟨.resolved sub, some reply⟩ : Handler n) = false := by
        unfold Handler.refused
        split
        · rename_i status detail _ heq
          obtain rfl := Option.some.inj heq
          refine decide_eq_false ?_
          intro hx
          subst hx
          exact hreply detail rfl
        · rfl
      show (!Handler.refused _) = true
      rw [hnot]
      rfl
  | unprepared c _ _ _ sub _ _ _ hc =>
      exact h₀.goes hc rfl hsame rfl fun _ _ => Or.inr (Or.inl rfl)
  | prepareFailed c _ _ _ sub _ _ _ hc =>
      exact h₀.goes hc rfl hsame rfl fun _ _ => Or.inr (Or.inl rfl)
  | preparedSubmitted c _ jobId _ sub _ _ hc =>
      refine h₀.goes hc rfl (fun _ => sub.record_grows) rfl fun visit hfires => Or.inr (Or.inr ?_)
      show sub.record jobId s.submitted visit ≠ none
      rw [sub.record_self (Submission.fires_visit hfires).2.2.2]
      simp
  | ingest c jobId _ _ _ sub _ _ hc =>
      rcases hc with ⟨_, _, rfl⟩ | ⟨timings, sb, hc, _, rfl⟩
      · exact h₀.other rfl rfl rfl
      · exact h₀.goes hc rfl hsame rfl fun _ hfires => Or.inr (Or.inr (h₀.booked hc hfires rfl))
  | uningested c _ _ _ _ _ hc | ingested c _ _ _ _ _ _ _ _ _ _ hc =>
      exact h₀.goes hc rfl hsame rfl fun _ hfires => Or.inr (Or.inr (h₀.booked hc hfires rfl))
  | flight i a f e =>
      have hhandlers := noteLoss_handlers (s := { s with running := none }) i e.loss
      have hsubmitted : (noteLoss i e.loss { s with running := none }).submitted = s.submitted := by
        unfold noteLoss
        split <;> rfl
      refine ⟨fun visit c c' h₁ h₂ hh₁ hh₂ => ?_, fun c h₁ visit hh₁ => ?_⟩
      · exact h.once visit c c' h₁ h₂ ((congrFun hhandlers c).symm.trans hh₁)
          ((congrFun hhandlers c').symm.trans hh₂)
      · show _ → _ ∨ _ ∨ (noteLoss i e.loss { s with running := none }).submitted visit ≠ none
        rw [hsubmitted]
        exact h.recorded c h₁ visit ((congrFun hhandlers c).symm.trans hh₁)

/-- A hook that fires beside another one that is past the guard is not refused. -/
theorem firesAlone_of_submitsOnce {a : ServerAction σ n} (h : s'.SubmitsOnce)
    (hstep : s.next cfg prog a = some s') : firesAlone s a s' := by
  intro c visit hfiring c' h' hh' hfires'
  obtain ⟨handler, hfires, hrefused, hother, hhandlers⟩ := firing_next hfiring hstep
  by_contra hun
  have hun : h'.unrecorded = true := Bool.not_eq_false _ ▸ hun
  have hne : c' ≠ c := by
    intro heq
    subst heq
    exact absurd ((hother h' hh').symm.trans hfires') (by simp)
  have hc : s'.handlers c = some handler := by rw [hhandlers, update_self]
  have hc' : s'.handlers c' = some h' := by rw [hhandlers, update_of_ne hne, hh']
  rcases h visit c c' handler h' hc hc' hfires hfires' (Ne.symm hne) with hr | hr
  · exact absurd (hrefused.symm.trans hr) (by simp)
  · unfold Handler.unrecorded at hun
    split at hun
    · rw [hr] at hun
      exact absurd hun (by simp)
    · rename_i hp
      unfold Handler.refused at hr
      rw [hp] at hr
      exact absurd hr (by simp)
    · exact absurd hun (by simp)

/-- **A doubly fired hook submits once**, in every run in which a hook that finds nothing in
`SUBMITTED` is the only one for its visit to be past the guard; and a step in which it is
not lets two of them through. -/
theorem hook_submits_once (h : (serverSystem n cfg prog).Reach firesAlone s) :
    s.SubmitsOnce ∧
      ∀ a s', s.next cfg prog a = some s' → (s'.SubmitsOnce ↔ firesAlone s a s') := by
  have hgood : s.Guarded := by
    refine h.invariant ?_ fun s a s' hs hok hstep => hs.next hok hstep
    intro _ hc
    obtain ⟨_, _, rfl⟩ := hc
    exact ⟨fun _ _ _ _ _ hh => absurd hh (by simp [Server.started]),
      fun _ _ _ hh => absurd hh (by simp [Server.started])⟩
  exact ⟨hgood.once, fun a s' hstep =>
    ⟨fun h' => firesAlone_of_submitsOnce h' hstep, fun hok => (hgood.next hok hstep).once⟩⟩

/-! ### Two hooks to follow

Both hooks are for one visit.  In the first run the second comes when the first has been run and is
refused; in the other it comes while the first waits to be prepared.
-/

/-- A submit of a directory. -/
def benchSubmit : SubmitRequest where
  directory := some "/data/7"
  numWorkers := none
  configOverrides := []
  anyImgtype := false
  resubmit := false
  dryRun := false

/-- What is found there. -/
def benchExposure : Exposure := ⟨some 7, "r_57", 0, 0, "2026-01-01T00:00:00", "CWFS", [0]⟩

/-- A hook has had its visit resolved. -/
def benchResolved : List (ServerAction Msg 0) :=
  bringUp benchFlight ++ [.submit 0 benchSubmit] ++ (benchAnswered (.resolved benchExposure)).dropLast

/-- It is prepared and run, and the hook fires again. -/
def benchFiredTwice : List (ServerAction Msg 0) :=
  [.resume "job"] ++ benchAnswered .benchPrepared ++ [.resume ""] ++
    benchAnswered (.ran { tableParquet := [], report := [1] }) ++
    [.flight benchFlight (.finishDeferred 0), .submit 1 benchSubmit] ++
    benchAnswered (.resolved benchExposure)

/-- Requests 0 and 1 are hooks for visit 7, and this is whether they are refused. -/
def benchHooks (refused refused' : Bool) (s : Server Unit 0) : Bool :=
  match s.handlers 0, s.handlers 1 with
  | some h, some h' =>
      h.fires = some 7 ∧ h'.fires = some 7 ∧ h.refused = refused ∧ h'.refused = refused'
  | _, _ => false

theorem benchHooks_inv {refused refused' : Bool} {s : Server Unit 0}
    (h : benchHooks refused refused' s = true) :
    ∃ h h', s.handlers 0 = some h ∧ s.handlers 1 = some h' ∧ h.fires = some 7 ∧
      h'.fires = some 7 ∧ h.refused = refused ∧ h'.refused = refused' := by
  unfold benchHooks at h
  split at h
  · rename_i g g' hg hg'
    exact ⟨g, g', hg, hg', of_decide_eq_true h⟩
  · exact absurd h (by simp)

/-- A hook that fires again when the first one has been run. -/
theorem hook_submits_once_apart :
    ∃ (s : Server Unit 0) (h h' : Handler 0), s.handlers 0 = some h ∧ s.handlers 1 = some h' ∧
      h.fires = some 7 ∧ h'.fires = some 7 ∧ (h.refused = true ∨ h'.refused = true) := by
  let check : Server Unit 0 → ServerAction Msg 0 → Bool := fun s _ => s.firing.isNone
  let next : Server Unit 0 → ServerAction Msg 0 → Option (Server Unit 0) :=
    Server.next .standard .scripted
  obtain ⟨s₀, hs₀, halone, hrest⟩ : ∃ s₀ : Server Unit 0,
      System.followWhen check next benchResolved benchServer = some s₀ ∧
      (∀ c g, s₀.handlers c = some g → g.fires = none) ∧
      ((next s₀ (.resume "")).bind (System.followWhen check next benchFiredTwice)).any
        (benchHooks false true) = true := by
    refine ⟨_, rfl, fun c g hg => ?_, by decide +kernel⟩
    rcases c with _ | c
    · rw [← Option.some.inj hg]
      rfl
    · exact absurd (show none = some g from hg) (by simp)
  obtain ⟨s, hs, hhooks⟩ := Option.any_eq_true _ _ |>.mp hrest
  obtain ⟨s₁, hs₁, hs⟩ := Option.bind_eq_some_iff.mp hs
  obtain ⟨h, h', hh, hh', hfires, hfires', _⟩ := benchHooks_inv hhooks
  have hcheck : ∀ (s : Server Unit 0) (a : ServerAction Msg 0) (s' : Server Unit 0),
      check s a = true → firesAlone s a s' := by
    intro s a s' hnone c visit hfiring
    have hnone : s.firing.isNone = true := hnone
    rw [hfiring] at hnone
    exact absurd hnone (by simp)
  have hreach₀ := System.Reach.followWhen (M := serverSystem 0 .standard .scripted)
    (fun _ _ _ hstep => hstep) hcheck (.init ⟨1, _, rfl⟩) hs₀
  have hreach₁ : (serverSystem 0 .standard .scripted).Reach firesAlone s₁ := by
    refine .step hreach₀ (a := .resume "") ?_ hs₁
    exact fun c visit _ c' g hg hv => absurd ((halone c' g hg).symm.trans hv) (by simp)
  have hreach := System.Reach.followWhen (M := serverSystem 0 .standard .scripted)
    (fun _ _ _ hstep => hstep) hcheck hreach₁ hs
  exact ⟨s, h, h', hh, hh', hfires, hfires',
    (hook_submits_once hreach).1 7 0 1 h h' hh hh' hfires hfires' (by decide)⟩

/-- **Two submits of one visit.**  The second is resolved while the first waits to be
prepared, and neither is answered 409. -/
theorem two_submits_of_a_visit :
    ∃ s : Server Unit 0, (serverSystem 0 .standard .scripted).Reach System.always s ∧
      ¬ s.SubmitsOnce := by
  have hrun : (Server.follow .standard .scripted (bringUp 0 ++
      [.submit 0 benchSubmit, .submit 1 benchSubmit] ++ benchAnswered (.resolved benchExposure) ++
      [.resume "job", .flight 0 .takeLock] ++ benchAnswered (.resolved benchExposure))
      benchServer).any (benchHooks false false) = true := by decide +kernel
  obtain ⟨s, hs, hhooks⟩ := Option.any_eq_true _ _ |>.mp hrun
  obtain ⟨h, h', hh, hh', hfires, hfires', hrefused, hrefused'⟩ := benchHooks_inv hhooks
  refine ⟨s, Server.follow_reach hs, fun honce => ?_⟩
  rcases honce 7 0 1 h h' hh hh' hfires hfires' (by decide) with hr | hr
  · exact absurd (hrefused.symm.trans hr) (by simp)
  · exact absurd (hrefused'.symm.trans hr) (by simp)

end Server

end DonutServer
