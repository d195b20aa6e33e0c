/-
Whose job a record is.

A record is made by the one prepare that drew its id, and keeps the key that prepare was
answered with.  Whoever runs the job carries that key, so an answer that ends the run is
worth what `KeyedRun` says of the key.  `Ledger` is all of this at one time: what stands in
each record, and what each request that is still going on has in hand.
-/
import DonutServer.Coordinator.Plain
import DonutServer.Server.Block
import DonutServer.Server.Incoming

namespace DonutServer

open Function

variable {S : Stack} {n : Nat}

/-! ### What a request is about

A request that goes on has its job in hand in one of several forms: the arguments of a prepare, the
id and key a prepare came back with, the route it is dispatched by.  `Progress.preparation` and
`Progress.jobRun` read the job off any of them, so that the invariants speak of a job and not of
the point its request has reached.

A record is `Right` when somebody prepared its job with the fields it shows, when its key is the
one that prepare earned and, once it is DONE, when what it holds came of a run under that very key.
-/

/-- The job a request prepares, or has prepared, and the prepare's fields. -/
def Progress.preparation : Progress n → Option (JobId × PrepareCommand)
  | .preparing _ jobId command _ => some (jobId, command)
  | .submitted jobId _ sub => some (jobId, sub.command)
  | .ingesting _ jobId _ _ _ (some (_, sub)) => some (jobId, sub.command)
  | _ => none

/-- A run of a job: the key it goes by and where it finds its raws. -/
structure JobRun (S : Stack) where
  jobId : JobId
  key : Option PrepareKey
  numWorkers : Option Int
  raws : World S → Except Exn (Exposures S)

/-- The run a request asks for. -/
def Progress.jobRun (env : Env S) : Progress n → Option (JobRun S)
  | .dispatched _ request layout key =>
      some ⟨request.jobId, key, request.numWorkers, fun _ => bodyExposures env request.body layout⟩
  | .ingesting _ jobId directory numWorkers key _ =>
      some ⟨jobId, key, numWorkers, fun world => world.raws directory numWorkers⟩
  | _ => none

/-- `out` came of the run, under its key, in a world there may be. -/
def JobRun.Gave (env : Env S) (W : World S → Prop) (run : JobRun S) (out : JobOutput) : Prop :=
  ∃ world exposures k, W world ∧ run.raws world = .ok exposures ∧ run.key = some k ∧
    KeyedRun env world k exposures run.numWorkers out

/-- What a request may take its answer for. -/
structure Progress.Earned (env : Env S) (W : World S → Prop) (progress : Progress n) (msg : Msg) :
    Prop where
  prepared : ∀ i jobId command sub, progress = .preparing i jobId command sub → msg.ok = true →
    ∃ timings dump k, msg = .prepared timings dump k ∧ Keyed env k command
  ran : ∀ run k, progress.jobRun env = some run → run.key = some k → msg.ok = true →
    ∃ out, msg = .ran out ∧ run.Gave env W out

namespace Server

variable {cfg : CoordSettings} {env : Env S} {W : World S → Prop} {s s' : Server (Globals S) n}
  {c : CallId} {jobId : JobId} {command : PrepareCommand}

/-- Request `c` prepares the job, or has prepared it. -/
def Prepares (s : Server (Globals S) n) (c : CallId) (jobId : JobId) (command : PrepareCommand) :
    Prop :=
  ∃ handler, s.handlers c = some handler ∧ handler.progress.preparation = some (jobId, command)

/-- Some request has run the job, and the record says what came of it. -/
def Ran (env : Env S) (W : World S → Prop) (s : Server (Globals S) n) (jobId : JobId)
    (record : JobRecord) : Prop :=
  ∃ c progress reply run out, s.handlers c = some ⟨progress, some reply⟩ ∧
    progress.jobRun env = some run ∧ run.jobId = jobId ∧ record.preparedKey = run.key ∧
    run.Gave env W out ∧ record.result = some out.report ∧
      record.tableParquet = some out.tableParquet

/-- A record that is right about its job. -/
structure Right (env : Env S) (W : World S → Prop) (s : Server (Globals S) n) (jobId : JobId)
    (record : JobRecord) : Prop where
  prepared : ∃ c command, s.Prepares c jobId command ∧
    ∀ k, record.preparedKey = some k → Keyed env k command
  keyed : record.state = .prepared → record.preparedKey ≠ none
  done : record.state = .done → s.Ran env W jobId record

/-- The job has a record, and this is the config key in it. -/
def HasKey (s : Server (Globals S) n) (jobId : JobId) (key : Option PrepareKey) : Prop :=
  key ≠ none ∧ ∃ record, s.jobs jobId = some record ∧ record.preparedKey = key

/-- What a request that is still going on has in hand. -/
def Fits (s : Server (Globals S) n) : Handler n → Prop
  | ⟨_, some _⟩ => True
  | ⟨.preparing _ jobId command sub, none⟩ =>
      s.jobs jobId = none ∧ ∀ sb, sub = some sb → sb.command = command
  | ⟨.queued _ request, none⟩ => ∃ key, s.HasKey request.jobId key
  | ⟨.header _ request _, none⟩ => ∃ key, s.HasKey request.jobId key
  | ⟨.body _ request _, none⟩ => ∃ key, s.HasKey request.jobId key
  | ⟨.dispatched _ request _ key, none⟩ => s.HasKey request.jobId key
  | ⟨.ingesting _ jobId _ _ key _, none⟩ => s.HasKey jobId key
  | _ => True

/-- Every record is right, and every request fits it. -/
structure Ledger (env : Env S) (W : World S → Prop) (s : Server (Globals S) n) : Prop where
  right : ∀ jobId record, s.jobs jobId = some record → s.Right env W jobId record
  fits : ∀ c handler, s.handlers c = some handler → s.Fits handler
  routed : ∀ c jobId command, s.Prepares c jobId command → s.byJob jobId ≠ none
  once : ∀ c c' jobId command command', s.Prepares c jobId command →
    s.Prepares c' jobId command' → c = c'

/-! ### What goes on being so

A record is never taken away and never changes its key; a request that has prepared a job has
prepared it for good; an id is drawn once.  `Extends` is these three, and everything the ledger
says of a job is monotone in it.  So a step need only be looked at where it writes a record or
moves the request it belongs to.

There is one lemma for each shape such a write takes: an id that is drawn, a record that is made, a
record that is written again, a request that goes on with no write at all.  `Rewritten` says what a
record may become without having to be looked at again.
-/

/-- What the ledger has of `s` it still has in `s'`. -/
structure Extends (s s' : Server (Globals S) n) : Prop where
  prepares : ∀ c jobId command, s.Prepares c jobId command → s'.Prepares c jobId command
  answered : ∀ c progress reply, s.handlers c = some ⟨progress, some reply⟩ →
    s'.handlers c = some ⟨progress, some reply⟩
  keys : ∀ jobId key, s.HasKey jobId key → s'.HasKey jobId key

/-- A run that has been made stays one, and so does what came of it. -/
theorem Ran.extends {record : JobRecord} (h : s.Ran env W jobId record) (hext : Extends s s') :
    s'.Ran env W jobId record := by
  obtain ⟨c, progress, reply, run, out, hc, hrest⟩ := h
  exact ⟨c, progress, reply, run, out, hext.answered c progress reply hc, hrest⟩

/-- A record that is left alone stays right, whoever else goes on. -/
theorem Right.extends {record : JobRecord} (h : s.Right env W jobId record)
    (hext : Extends s s') : s'.Right env W jobId record := by
  obtain ⟨c, command, hc, hkeyed⟩ := h.prepared
  exact ⟨⟨c, command, hext.prepares c jobId command hc, hkeyed⟩, h.keyed,
    fun hdone => (h.done hdone).extends hext⟩

/-- A record that is written again, and is not PREPARED any more. -/
theorem Right.rewrite {record record' : JobRecord} (h : s.Right env W jobId record)
    (hext : Extends s s') (hkey : record'.preparedKey = record.preparedKey)
    (hstate : record'.state ≠ .prepared) (hdone : record'.state = .done → s'.Ran env W jobId record') :
    s'.Right env W jobId record' := by
  obtain ⟨c, command, hc, hkeyed⟩ := h.prepared
  refine ⟨⟨c, command, hext.prepares c jobId command hc, fun k hk => ?_⟩,
    fun hprepared => absurd hprepared hstate, hdone⟩
  exact hkeyed k (hkey.symm.trans hk)

/-- A request still fits, where no prepare of its job has come back meanwhile. -/
theorem Fits.extends {handler : Handler n} (h : s.Fits handler) (hext : Extends s s')
    (hnone : ∀ i jobId command sub, handler = ⟨.preparing i jobId command sub, none⟩ →
      s'.jobs jobId = none) : s'.Fits handler := by
  obtain ⟨progress, reply⟩ := handler
  cases reply with
  | some reply => trivial
  | none =>
      cases progress with
      | preparing i jobId command sub => exact ⟨hnone i jobId command sub rfl, h.2⟩
      | queued i request | header i request received | body i request received =>
          obtain ⟨key, hkey⟩ := h
          exact ⟨key, hext.keys _ key hkey⟩
      | dispatched i request layout key => exact hext.keys _ key h
      | ingesting i jobId directory numWorkers key sub => exact hext.keys _ key h
      | _ => trivial

/-- A step that prepares nothing new. -/
theorem Ledger.core (h : s.Ledger env W) (hext : Extends s s')
    (hbyJob : ∀ jobId, s.byJob jobId ≠ none → s'.byJob jobId ≠ none)
    (hrecords : ∀ jobId record, s'.jobs jobId = some record →
      s.jobs jobId = some record ∨ s'.Right env W jobId record)
    (hprepares : ∀ c jobId command, s'.Prepares c jobId command → s.Prepares c jobId command)
    (hfits : ∀ c handler, s'.handlers c = some handler → s'.Fits handler) : s'.Ledger env W where
  right jobId record hrecord := by
    rcases hrecords jobId record hrecord with hbefore | hright
    · exact (h.right jobId record hbefore).extends hext
    · exact hright
  fits := hfits
  routed c jobId command hc := hbyJob jobId (h.routed c jobId command (hprepares c jobId command hc))
  once c c' jobId command command' hc hc' :=
    h.once c c' jobId command command' (hprepares c jobId command hc)
      (hprepares c' jobId command' hc')

variable {handler : Handler n} {g : JobId → JobRecord → JobRecord}

/-- What is prepared by a request that goes on from where it was. -/
theorem Prepares.before (h : s'.Prepares c jobId command) {c₀ : CallId}
    (hhandlers : s'.handlers = update s.handlers c₀ (some handler))
    (hprep : handler.progress.preparation =
      (s.handlers c₀).bind fun handler => handler.progress.preparation) :
    s.Prepares c jobId command := by
  obtain ⟨handler', hc, hprepared⟩ := h
  rw [hhandlers] at hc
  by_cases hne : c = c₀
  · subst hne
    rw [update_self] at hc
    obtain rfl := Option.some.inj hc
    rw [hprep] at hprepared
    exact Option.bind_eq_some_iff.mp hprepared
  · rw [update_of_ne hne] at hc
    exact ⟨handler', hc, hprepared⟩

/-- One request goes on, and every record keeps its key. -/
theorem extends_of (hopen : ∀ progress reply, s.handlers c ≠ some ⟨progress, some reply⟩)
    (hhandlers : s'.handlers = update s.handlers c (some handler))
    (hprep : ∀ jobId command, s.Prepares c jobId command →
      handler.progress.preparation = some (jobId, command))
    (hkeys : ∀ jobId record, s.jobs jobId = some record →
      ∃ record', s'.jobs jobId = some record' ∧ record'.preparedKey = record.preparedKey) :
    Extends s s' where
  prepares c' jobId command hc' := by
    by_cases hne : c' = c
    · subst hne
      exact ⟨handler, by rw [hhandlers, update_self], hprep jobId command hc'⟩
    · obtain ⟨handler', hat, hprepared⟩ := hc'
      exact ⟨handler', by rw [hhandlers, update_of_ne hne, hat], hprepared⟩
  answered c' progress reply hc' := by
    have hne : c' ≠ c := by
      intro heq
      subst heq
      exact hopen progress reply hc'
    rw [hhandlers, update_of_ne hne, hc']
  keys jobId key hkey := by
    obtain ⟨hne, record, hrecord, heq⟩ := hkey
    obtain ⟨record', hrecord', hsame⟩ := hkeys jobId record hrecord
    exact ⟨hne, record', hrecord', hsame.trans heq⟩

/-- What fits a request fits whatever has the same job in hand. -/
theorem Fits.map {handler : Handler n} (h : s.Fits handler) (hext : Extends s s')
    (hjobs : ∀ jobId, s'.jobs jobId = (s.jobs jobId).map (g jobId)) : s'.Fits handler := by
  refine h.extends hext ?_
  intro i jobId command sub heq
  subst heq
  rw [hjobs, h.1]
  rfl

/-- A record that is written again is right if it is still what it was, or is not PREPARED
any more and, if it is DONE, says what came of a run. -/
def Rewritten (env : Env S) (W : World S → Prop) (s' : Server (Globals S) n) (jobId : JobId)
    (record record' : JobRecord) : Prop :=
  record' = record ∨ record'.preparedKey = record.preparedKey ∧ record'.state ≠ .prepared ∧
    (record'.state = .done → s'.Ran env W jobId record')

/-- A record that is written again keeps its key. -/
theorem Rewritten.key {record record' : JobRecord} (h : Rewritten env W s' jobId record record') :
    record'.preparedKey = record.preparedKey := by
  rcases h with rfl | h
  · rfl
  · exact h.1

/-- A record that is written again is right, where it was so before. -/
theorem Rewritten.right {record record' : JobRecord} (h : Rewritten env W s' jobId record record')
    (hright : s.Right env W jobId record) (hext : Extends s s') :
    s'.Right env W jobId record' := by
  rcases h with rfl | ⟨hkey, hstate, hdone⟩
  · exact hright.extends hext
  · exact hright.rewrite hext hkey hstate hdone

theorem Ledger.rewrites (h : s.Ledger env W) (hext : Extends s s')
    (hjobs : ∀ jobId, s'.jobs jobId = (s.jobs jobId).map (g jobId))
    (hg : ∀ jobId record, s.jobs jobId = some record →
      Rewritten env W s' jobId record (g jobId record)) (jobId : JobId) (record : JobRecord)
    (hrecord : s'.jobs jobId = some record) : s'.Right env W jobId record := by
  rw [hjobs] at hrecord
  obtain ⟨before, hbefore, rfl⟩ := Option.map_eq_some_iff.mp hrecord
  exact (hg jobId before hbefore).right (h.right jobId before hbefore) hext

/-- **A request goes on**, and records are written again. -/
theorem Ledger.step (h : s.Ledger env W)
    (hopen : ∀ progress reply, s.handlers c ≠ some ⟨progress, some reply⟩)
    (hhandlers : s'.handlers = update s.handlers c (some handler))
    (hbyJob : ∀ jobId, s.byJob jobId ≠ none → s'.byJob jobId ≠ none)
    (hprep : handler.progress.preparation =
      (s.handlers c).bind fun handler => handler.progress.preparation)
    (hjobs : ∀ jobId, s'.jobs jobId = (s.jobs jobId).map (g jobId))
    (hg : ∀ jobId record, s.jobs jobId = some record →
      Rewritten env W s' jobId record (g jobId record))
    (hself : s.Fits handler) : s'.Ledger env W := by
  have hext : Extends s s' := by
    refine extends_of hopen hhandlers ?_ ?_
    · intro jobId command hc
      obtain ⟨before, hbefore, hprepared⟩ := hc
      rw [hprep, hbefore]
      exact hprepared
    · exact fun jobId record hrecord =>
        ⟨g jobId record, by rw [hjobs, hrecord]; rfl, (hg jobId record hrecord).key⟩
  refine h.core hext hbyJob ?_ ?_ ?_
  · exact fun jobId record hrecord => Or.inr (h.rewrites hext hjobs hg jobId record hrecord)
  · exact fun c' jobId command hc' => hc'.before hhandlers hprep
  · intro c' handler' hc'
    rw [hhandlers] at hc'
    by_cases hne : c' = c
    · rw [hne, update_self] at hc'
      exact Option.some.inj hc' ▸ hself.map hext hjobs
    · rw [update_of_ne hne] at hc'
      exact (h.fits c' handler' hc').map hext hjobs

/-- No request goes on, and records are written again. -/
theorem Ledger.quiet (h : s.Ledger env W) (hhandlers : s'.handlers = s.handlers)
    (hbyJob : ∀ jobId, s.byJob jobId ≠ none → s'.byJob jobId ≠ none)
    (hjobs : ∀ jobId, s'.jobs jobId = (s.jobs jobId).map (g jobId))
    (hg : ∀ jobId record, s.jobs jobId = some record →
      Rewritten env W s' jobId record (g jobId record)) : s'.Ledger env W := by
  have hprepares : ∀ c jobId command, s'.Prepares c jobId command ↔ s.Prepares c jobId command := by
    intro c jobId command
    unfold Prepares
    rw [hhandlers]
  have hext : Extends s s' := by
    refine ⟨fun c jobId command => (hprepares c jobId command).mpr, ?_, ?_⟩
    · intro c progress reply hc
      rw [hhandlers, hc]
    · intro jobId key hkey
      obtain ⟨hne, record, hrecord, heq⟩ := hkey
      exact ⟨hne, g jobId record, by rw [hjobs, hrecord]; rfl,
        (hg jobId record hrecord).key.trans heq⟩
  refine h.core hext hbyJob ?_ (fun c jobId command => (hprepares c jobId command).mp) ?_
  · exact fun jobId record hrecord => Or.inr (h.rewrites hext hjobs hg jobId record hrecord)
  · intro c handler hc
    rw [hhandlers] at hc
    exact (h.fits c handler hc).map hext hjobs

/-- Nothing of this is touched. -/
theorem Ledger.same (h : s.Ledger env W) (hhandlers : s'.handlers = s.handlers)
    (hbyJob : s'.byJob = s.byJob) (hjobs : s'.jobs = s.jobs) : s'.Ledger env W := by
  refine h.quiet (g := fun _ => id) hhandlers (fun jobId hjob => hbyJob ▸ hjob) ?_
    fun _ _ _ => Or.inl rfl
  intro jobId
  rw [hjobs, Option.map_id_fun, id]

/-- A request goes on, and no record is written. -/
theorem Ledger.stay (h : s.Ledger env W)
    (hopen : ∀ progress reply, s.handlers c ≠ some ⟨progress, some reply⟩)
    (hhandlers : s'.handlers = update s.handlers c (some handler))
    (hbyJob : ∀ jobId, s.byJob jobId ≠ none → s'.byJob jobId ≠ none)
    (hprep : handler.progress.preparation =
      (s.handlers c).bind fun handler => handler.progress.preparation)
    (hjobs : s'.jobs = s.jobs) (hself : s.Fits handler) : s'.Ledger env W := by
  refine h.step (g := fun _ => id) hopen hhandlers hbyJob hprep ?_ (fun _ _ _ => Or.inl rfl) hself
  intro jobId
  rw [hjobs, Option.map_id_fun, id]

/-- A request goes on, and writes the record of its job again. -/
theorem Ledger.write {w : JobRecord → JobRecord} (h : s.Ledger env W)
    (hopen : ∀ progress reply, s.handlers c ≠ some ⟨progress, some reply⟩)
    (hhandlers : s'.handlers = update s.handlers c (some handler))
    (hbyJob : ∀ jobId, s.byJob jobId ≠ none → s'.byJob jobId ≠ none)
    (hprep : handler.progress.preparation =
      (s.handlers c).bind fun handler => handler.progress.preparation)
    (hjobs : s'.jobs = update s.jobs jobId ((s.jobs jobId).map w))
    (hw : ∀ record, s.jobs jobId = some record → Rewritten env W s' jobId record (w record))
    (hself : s.Fits handler) : s'.Ledger env W := by
  refine h.step (g := fun job => if job = jobId then w else id) hopen hhandlers hbyJob hprep ?_ ?_
    hself
  · intro job
    rw [hjobs]
    by_cases hjob : job = jobId
    · rw [hjob, update_self, if_pos rfl]
    · rw [update_of_ne hjob, if_neg hjob, Option.map_id_fun, id]
  · intro job record hrecord
    split
    · rename_i heq
      subst heq
      exact hw record hrecord
    · exact Or.inl rfl

/-- **A prepare draws an id** that was never drawn. -/
theorem Ledger.draw {i : FlightId n} {sub : Option Submission} (h : s.Ledger env W)
    (hopen : ∀ handler, s.handlers c = some handler →
      handler.reply = none ∧ handler.progress.preparation = none)
    (hhandlers : s'.handlers = update s.handlers c (some ⟨.preparing i jobId command sub, none⟩))
    (hroute : s.byJob jobId = none) (hbyJob : s'.byJob = update s.byJob jobId (some i))
    (hnone : s.jobs jobId = none) (hjobs : s'.jobs = s.jobs)
    (hsub : ∀ sb, sub = some sb → sb.command = command) : s'.Ledger env W := by
  have hmap : ∀ job, s'.jobs job = (s.jobs job).map id := by
    intro job
    rw [hjobs, Option.map_id_fun, id]
  have hext : Extends s s' := by
    refine extends_of ?_ hhandlers ?_ fun job record hrecord => ⟨record, hjobs ▸ hrecord, rfl⟩
    · intro progress reply hc
      exact absurd (hopen _ hc).1 (by simp)
    · intro job command' hc
      obtain ⟨handler, hat, hprepared⟩ := hc
      exact absurd ((hopen handler hat).2.symm.trans hprepared) (by simp)
  -- Whoever prepares a job now did so before, or has just drawn its id.
  have hprepares : ∀ c' job command', s'.Prepares c' job command' →
      s.Prepares c' job command' ∨ c' = c ∧ job = jobId := by
    intro c' job command' hc'
    obtain ⟨handler, hat, hprepared⟩ := hc'
    rw [hhandlers] at hat
    by_cases hne : c' = c
    · rw [hne, update_self] at hat
      obtain rfl := Option.some.inj hat
      exact Or.inr ⟨hne, (Prod.mk.inj (Option.some.inj hprepared)).1.symm⟩
    · rw [update_of_ne hne] at hat
      exact Or.inl ⟨handler, hat, hprepared⟩
  have hunrouted : ∀ c' command', ¬ s.Prepares c' jobId command' :=
    fun c' command' hc' => h.routed c' jobId command' hc' hroute
  refine ⟨?_, ?_, ?_, ?_⟩
  · intro job record hrecord
    rw [hjobs] at hrecord
    exact (h.right job record hrecord).extends hext
  · intro c' handler hc'
    rw [hhandlers] at hc'
    by_cases hne : c' = c
    · rw [hne, update_self] at hc'
      obtain rfl := Option.some.inj hc'
      exact ⟨hjobs ▸ hnone, hsub⟩
    · rw [update_of_ne hne] at hc'
      exact (h.fits c' handler hc').map (g := fun _ => id) hext hmap
  · intro c' job command' hc'
    rw [hbyJob]
    by_cases hjob : job = jobId
    · rw [hjob, update_self]
      simp
    · rw [update_of_ne hjob]
      rcases hprepares c' job command' hc' with hbefore | hnew
      · exact h.routed c' job command' hbefore
      · exact absurd hnew.2 hjob
  · intro c₁ c₂ job command₁ command₂ h₁ h₂
    rcases hprepares c₁ job command₁ h₁ with hold₁ | hnew₁
    · rcases hprepares c₂ job command₂ h₂ with hold₂ | hnew₂
      · exact h.once c₁ c₂ job command₁ command₂ hold₁ hold₂
      · exact absurd (hnew₂.2 ▸ hold₁) (hunrouted c₁ command₁)
    · rcases hprepares c₂ job command₂ h₂ with hold₂ | hnew₂
      · exact absurd (hnew₁.2 ▸ hold₂) (hunrouted c₂ command₂)
      · exact hnew₁.1.trans hnew₂.1.symm

/-- **A prepare has come back**, and makes the record. -/
theorem Ledger.create {i : FlightId n} {sub : Option Submission} {record : JobRecord}
    (h : s.Ledger env W) (hc : s.At c (.preparing i jobId command sub))
    (hhandlers : s'.handlers = update s.handlers c (some handler))
    (hprep : handler.progress.preparation = some (jobId, command)) (hself : s'.Fits handler)
    (hbyJob : s'.byJob = s.byJob) (hjobs : s'.jobs = update s.jobs jobId (some record))
    (hkeyed : ∀ k, record.preparedKey = some k → Keyed env k command)
    (hstate : record.state = .prepared → record.preparedKey ≠ none)
    (hdone : record.state ≠ .done) : s'.Ledger env W := by
  have hnone : s.jobs jobId = none := (h.fits c _ hc).1
  have hbefore : s.Prepares c jobId command := ⟨_, hc, rfl⟩
  have hat : s.handlers c = some ⟨.preparing i jobId command sub, none⟩ := hc
  have hsame : handler.progress.preparation =
      (s.handlers c).bind fun handler => handler.progress.preparation := by
    rw [hprep, hat]
    rfl
  have hold : ∀ job record', s.jobs job = some record' → s'.jobs job = some record' := by
    intro job record' hrecord
    rw [hjobs, update_of_ne, hrecord]
    intro heq
    subst heq
    exact absurd (hnone.symm.trans hrecord) (by simp)
  have hext : Extends s s' := by
    refine extends_of ?_ hhandlers ?_
      fun job record' hrecord => ⟨record', hold job record' hrecord, rfl⟩
    · intro progress reply hc'
      exact absurd (hat.symm.trans hc') (by simp)
    · intro job command' hc'
      obtain ⟨before, hat', hprepared⟩ := hc'
      obtain rfl := Option.some.inj (hat.symm.trans hat')
      exact hprep.trans hprepared
  refine h.core hext (fun job hjob => hbyJob ▸ hjob) ?_
    (fun c' job command' hc' => hc'.before hhandlers hsame) ?_
  · intro job record' hrecord
    rw [hjobs] at hrecord
    by_cases hjob : job = jobId
    · subst hjob
      rw [update_self] at hrecord
      obtain rfl := Option.some.inj hrecord
      exact Or.inr ⟨⟨c, command, hext.prepares c job command hbefore, hkeyed⟩, hstate,
        fun h => absurd h hdone⟩
    · rw [update_of_ne hjob] at hrecord
      exact Or.inl hrecord
  · intro c' handler' hc'
    rw [hhandlers] at hc'
    by_cases hne : c' = c
    · rw [hne, update_self] at hc'
      exact Option.some.inj hc' ▸ hself
    · rw [update_of_ne hne] at hc'
      refine (h.fits c' handler' hc').extends hext ?_
      intro j job command' sub' heq
      subst heq
      have hjob : job ≠ jobId := by
        intro heq
        subst heq
        exact hne (h.once c' c job command' command ⟨_, hc', rfl⟩ hbefore)
      rw [hjobs, update_of_ne hjob]
      exact (h.fits c' _ hc').1

/-- A request nobody has heard of has nothing in hand. -/
theorem open_of_none (h : s.handlers c = none) (progress : Progress n) (reply : Reply n) :
    s.handlers c ≠ some ⟨progress, some reply⟩ := by
  rw [h]
  simp

/-- A request that has its result has nothing in hand any more. -/
theorem open_of_at {progress : Progress n} (h : s.At c progress) (progress' : Progress n)
    (reply : Reply n) : s.handlers c ≠ some ⟨progress', some reply⟩ := by
  have h : s.handlers c = some ⟨progress, none⟩ := h
  rw [h]
  simp

/-- A request comes in. -/
theorem Ledger.arrive (h : s.Ledger env W) (hc : s.handlers c = none)
    (hhandlers : s'.handlers = update s.handlers c (some handler))
    (hbyJob : ∀ jobId, s.byJob jobId ≠ none → s'.byJob jobId ≠ none)
    (hprep : handler.progress.preparation = none) (hjobs : s'.jobs = s.jobs)
    (hself : s.Fits handler) : s'.Ledger env W :=
  h.stay (open_of_none hc) hhandlers hbyJob (by rw [hc, hprep]; rfl) hjobs hself

/-- A request goes on, and prepares what it prepared. -/
theorem Ledger.onward {progress : Progress n} (h : s.Ledger env W) (hc : s.At c progress)
    (hhandlers : s'.handlers = update s.handlers c (some handler))
    (hbyJob : ∀ jobId, s.byJob jobId ≠ none → s'.byJob jobId ≠ none)
    (hprep : handler.progress.preparation = progress.preparation) (hjobs : s'.jobs = s.jobs)
    (hself : s.Fits handler) : s'.Ledger env W := by
  refine h.stay (open_of_at hc) hhandlers hbyJob ?_ hjobs hself
  rw [show s.handlers c = some ⟨progress, none⟩ from hc, hprep]
  rfl

/-- A request goes on, prepares what it prepared, and writes the record of its job again. -/
theorem Ledger.rewrite {progress : Progress n} {w : JobRecord → JobRecord} (h : s.Ledger env W)
    (hc : s.At c progress) (hhandlers : s'.handlers = update s.handlers c (some handler))
    (hbyJob : ∀ jobId, s.byJob jobId ≠ none → s'.byJob jobId ≠ none)
    (hprep : handler.progress.preparation = progress.preparation)
    (hjobs : s'.jobs = update s.jobs jobId ((s.jobs jobId).map w))
    (hw : ∀ record, s.jobs jobId = some record → Rewritten env W s' jobId record (w record))
    (hself : s.Fits handler) : s'.Ledger env W := by
  refine h.write (open_of_at hc) hhandlers hbyJob ?_ hjobs hw hself
  rw [show s.handlers c = some ⟨progress, none⟩ from hc, hprep]
  rfl

/-! ### One step

The cases of the server's step, each answered by the lemma of its shape.  What the answers are
worth is assumed here: it is shown of the flights elsewhere, where the child that made the answer
is in sight.
-/

/-- Nothing but the state of a record is written, and the state is one of a run. -/
theorem rewritten_state {record : JobRecord} {state : JobState}
    (h : state = .receiving ∨ state = .computing) :
    Rewritten env W s' jobId record { record with state := state } := by
  refine Or.inr ⟨rfl, ?_, fun hdone => ?_⟩ <;> rcases h with rfl | rfl
  · exact JobState.noConfusion
  · exact JobState.noConfusion
  · exact JobState.noConfusion hdone
  · exact JobState.noConfusion hdone

/-- A record that fails. -/
theorem rewritten_error {record : JobRecord} {error : Option String} :
    Rewritten env W s' jobId record { record with state := .error, error := error } :=
  Or.inr ⟨rfl, JobState.noConfusion, fun hdone => JobState.noConfusion hdone⟩

/-- A record that is failed with a text, whatever state it is in. -/
theorem rewritten_failed {record : JobRecord} {reason : String} :
    Rewritten env W s' jobId record (record.failed reason) := by
  unfold JobRecord.failed
  split
  · exact rewritten_error
  · exact Or.inl rfl

/-- **A run has ended.**  The record is DONE where the answer was worth something, and says
what it gave. -/
theorem rewritten_concluded {progress : Progress n} {run : JobRun S} {result : Result}
    {record : JobRecord} (hrun : progress.jobRun env = some run)
    (hkey : s.HasKey run.jobId run.key) (hrecord : s.jobs run.jobId = some record)
    (hearned : ∀ r, result = .response r → progress.Earned env W r.msg)
    (hc : ∃ reply, s'.handlers c = some ⟨progress, some reply⟩) :
    Rewritten env W s' run.jobId record (record.concluded result) := by
  obtain ⟨reply, hc⟩ := hc
  obtain ⟨hne, record', hrecord', hsame⟩ := hkey
  obtain rfl := Option.some.inj (hrecord.symm.trans hrecord')
  unfold JobRecord.concluded
  split
  · exact rewritten_error
  · exact rewritten_error
  · rename_i r
    split
    · rename_i hok
      obtain ⟨k, hk⟩ := Option.ne_none_iff_exists'.mp hne
      obtain ⟨out, hout, hgave⟩ := (hearned r rfl).ran run k hrun hk hok
      refine Or.inr ⟨rfl, JobState.noConfusion, fun _ => ?_⟩
      refine ⟨c, progress, reply, run, out, hc, hrun, rfl, hsame, hgave, ?_, ?_⟩
      · rw [hout]
        rfl
      · rw [hout]
        rfl
    · exact rewritten_error

/-- The record a prepare makes. -/
theorem ofPrepare_right {progress : Progress n} {i : FlightId n} {sub : Option Submission}
    {msg : Msg} (hearned : progress.Earned env W msg)
    (hprogress : progress = .preparing i jobId command sub) :
    (∀ k, (JobRecord.ofPrepare msg).preparedKey = some k → Keyed env k command) ∧
      ((JobRecord.ofPrepare msg).state = .prepared → (JobRecord.ofPrepare msg).preparedKey ≠ none) ∧
        (JobRecord.ofPrepare msg).state ≠ .done := by
  unfold JobRecord.ofPrepare
  split
  · rename_i hok
    obtain ⟨timings, dump, k, hmsg, hkeyed⟩ := hearned.prepared i jobId command sub hprogress hok
    rw [hmsg]
    refine ⟨fun k' hk' => Option.some.inj hk' ▸ hkeyed, fun _ => by simp [Msg.preparedKey], ?_⟩
    exact JobState.noConfusion
  · exact ⟨fun k hk => absurd hk (by simp), fun h => JobState.noConfusion h, JobState.noConfusion⟩

/-- A push is dispatched with the key that its job's record has, and not with one from its own
query. -/
theorem next_dispatched {uuid : JobId} {i : FlightId n} {request : PushRequest} {received : Nat}
    {layout layout' : List PartLayout} {key : Option PrepareKey} {reply : Option (Reply n)}
    (hr : s.running = some (c, .bodyRead)) (hc : s.At c (.body i request received))
    (hparse : parseLayout (slice (s.blocks i) 0 received) = .ok layout)
    (hstep : s.next cfg (coordinatorProgram env) (.resume uuid) = some s')
    (hc' : s'.handlers c = some ⟨.dispatched i request layout' key, reply⟩) :
    key = (s.jobs request.jobId).bind JobRecord.preparedKey := by
  have hc : s.handlers c = some ⟨.body i request received, none⟩ := hc
  unfold next resume at hstep
  simp only [hr, hc] at hstep
  unfold afterBody at hstep
  simp only [hparse] at hstep
  obtain rfl := Option.some.inj hstep
  have hc' : update s.handlers c _ c = _ := hc'
  rw [update_self] at hc'
  exact (Progress.dispatched.inj (congrArg Handler.progress (Option.some.inj hc'))).2.2.2.symm

/-- A loss fails some records, and leaves the others alone. -/
theorem noteLoss_map (i : FlightId n) (loss : Option Loss) :
    ∃ g : JobId → JobRecord → JobRecord,
      (∀ jobId, (s.noteLoss i loss).jobs jobId = (s.jobs jobId).map (g jobId)) ∧
        ∀ jobId record, g jobId record = record ∨ ∃ reason, g jobId record = record.failed reason := by
  cases loss with
  | none =>
      refine ⟨fun _ => id, fun jobId => ?_, fun _ _ => Or.inl rfl⟩
      rw [Option.map_id_fun, id]
      rfl
  | some loss =>
      refine ⟨fun jobId => if s.byJob jobId = some i then JobRecord.failed loss.reason else id,
        fun jobId => ?_, fun jobId record => ?_⟩
      · show (if s.byJob jobId = some i then (s.jobs jobId).map (JobRecord.failed loss.reason)
          else s.jobs jobId) = _
        by_cases hroute : s.byJob jobId = some i
        · simp only [hroute, if_true]
        · simp only [hroute, if_false, Option.map_id_fun, id]
      · by_cases hroute : s.byJob jobId = some i
        · exact Or.inr ⟨loss.reason, by simp only [hroute, if_true]⟩
        · exact Or.inl (by simp only [hroute, if_false, id])

/-- **The step lemma**, where every answer that has come back is worth what it is taken for. -/
theorem Ledger.next {a : ServerAction (World S) n} (h : s.Ledger env W)
    (hearned : ∀ c r progress, s.running = some (c, .result (.response r)) → s.At c progress →
      progress.Earned env W r.msg)
    (hstep : s.next cfg (coordinatorProgram env) a = some s') : s'.Ledger env W := by
  have hroutes : ∀ jobId, s.byJob jobId ≠ none → s'.byJob jobId ≠ none := by
    intro jobId hroute
    obtain ⟨i, hi⟩ := Option.ne_none_iff_exists'.mp hroute
    rw [next_byJob hi hstep]
    simp
  have hm := next_moves hstep
  generalize hr : s.running = q at hm
  have h₀ : Ledger env W { s with running := none } := h.same rfl rfl rfl
  have hcome : ∀ {c : CallId} {result : Result} {progress : Progress n},
      q = some (c, .result result) → s.At c progress → ∀ r, result = .response r →
        progress.Earned env W r.msg := by
    intro c result progress hq hc r hresult
    refine hearned c r progress ?_ hc
    rw [hr, hq, hresult]
  cases hm with
  | tick => exact h.same rfl rfl rfl
  | refused c _ _ _ hc | resolve c _ _ _ _ hc =>
      exact h₀.arrive hc rfl hroutes rfl rfl trivial
  | unresolved c _ _ _ _ _ _ hc | turnedDown c _ _ _ _ _ _ _ hc | guarded c _ _ _ _ _ _ hc
  | invalid c _ _ _ hc | unprepared c _ _ _ _ _ _ _ hc | uningested c _ _ _ _ _ hc
  | layoutCrashed c _ _ _ _ hc | headerRefused c _ _ _ _ _ _ hc =>
      exact h₀.onward hc rfl hroutes rfl rfl trivial
  | overflow c _ _ _ _ _ _ hp hc | disconnect c _ _ _ _ hp hc =>
      cases hp with
      | header | body => exact h₀.onward hc rfl hroutes rfl rfl trivial
  | prepare c i command uuid hc hroute hjob =>
      refine h₀.draw ?_ rfl hroute rfl hjob rfl fun sb heq => absurd heq (by simp)
      exact fun handler hat => absurd (hc.symm.trans hat) (by simp)
  | prepareSubmitted c i sub uuid hc hroute hjob =>
      refine h₀.draw ?_ rfl hroute rfl hjob rfl fun sb heq => by rw [Option.some.inj heq]
      intro handler hat
      obtain rfl := Option.some.inj (hc.symm.trans hat)
      exact ⟨rfl, rfl⟩
  | prepareFailed c i jobId command sub r reply uuid hc
  | prepared c i jobId command r reply uuid hc =>
      obtain ⟨hkeyed, hstate, hdone⟩ := ofPrepare_right (hcome rfl hc r rfl) rfl
      exact h₀.create hc rfl rfl trivial rfl rfl hkeyed hstate hdone
  | preparedSubmitted c i jobId command sub r uuid hc =>
      obtain ⟨hkeyed, hstate, hdone⟩ := ofPrepare_right (hcome rfl hc r rfl) rfl
      have hown : sub.command = command := (h.fits c _ hc).2 sub rfl
      refine h₀.create hc rfl ?_ trivial rfl rfl hkeyed hstate hdone
      rw [← hown]
      rfl
  | ingest c jobId directory numWorkers record sub r a hc hjob hstate =>
      have hkey : s.HasKey jobId record.preparedKey :=
        ⟨(h.right jobId record hjob).keyed hstate, record, hjob, rfl⟩
      rcases hc with ⟨hc, -, rfl⟩ | ⟨timings, sb, hc, -, rfl⟩
      · exact h₀.write (open_of_none hc) rfl hroutes (by rw [hc]; rfl) rfl
          (fun _ _ => rewritten_state (Or.inr rfl)) hkey
      · exact h₀.rewrite hc rfl hroutes rfl rfl (fun _ _ => rewritten_state (Or.inr rfl)) hkey
  | ingested c i jobId directory numWorkers key sub result reply plots uuid hc =>
      have hkey : s.HasKey jobId key := h.fits c _ hc
      refine h₀.rewrite hc rfl hroutes rfl rfl (fun record hrecord => ?_) trivial
      refine rewritten_concluded (s := s) (c := c) rfl hkey hrecord (hcome rfl hc) ⟨reply, ?_⟩
      exact update_self _ _ _
  | pushQueued c request record hc hjob hstate | pushBegun c request record hc hjob hstate =>
      have hkey : ∃ key, s.HasKey request.jobId key :=
        ⟨_, (h.right request.jobId record hjob).keyed hstate, record, hjob, rfl⟩
      exact h₀.arrive hc rfl hroutes rfl rfl hkey
  | pushGranted c i j request lock hlock hc =>
      have hkey : ∃ key, s.HasKey request.jobId key := h.fits c _ hc
      exact h₀.onward hc rfl hroutes rfl rfl hkey
  | chunkHeader c count last i request received _ hc
  | chunkBody c count last i request received _ hc =>
      have hkey : ∃ key, s.HasKey request.jobId key := h.fits c _ hc
      exact h₀.onward hc rfl hroutes rfl rfl hkey
  | headerAccepted c last i request received header uuid _ hc =>
      have hkey : ∃ key, s.HasKey request.jobId key := h.fits c _ hc
      exact h₀.rewrite hc rfl hroutes rfl rfl (fun _ _ => rewritten_state (Or.inl rfl)) hkey
  | layoutRefused c i request received message uuid hc =>
      exact h₀.rewrite hc rfl hroutes rfl rfl (fun _ _ => rewritten_error) trivial
  | dispatched c i request received layout key uuid hc hparse =>
      have hkey : s.HasKey request.jobId key := by
        obtain ⟨key', hne, record, hrecord, heq⟩ : ∃ key, s.HasKey request.jobId key := h.fits c _ hc
        obtain rfl : key = key' := by
          rw [next_dispatched hr hc hparse hstep (update_self _ _ _), hrecord]
          exact heq
        exact ⟨hne, record, hrecord, heq⟩
      exact h₀.rewrite hc rfl hroutes rfl rfl (fun _ _ => rewritten_state (Or.inr rfl)) hkey
  | pushed c i request layout key result reply plots uuid hc =>
      have hkey : s.HasKey request.jobId key := h.fits c _ hc
      refine h₀.rewrite hc rfl hroutes rfl rfl (fun record hrecord => ?_) trivial
      refine rewritten_concluded (s := s) (c := c) rfl hkey hrecord (hcome rfl hc) ⟨reply, ?_⟩
      exact update_self _ _ _
  | flight i a f e hcall hflight =>
      obtain ⟨g, hjobs, hg⟩ := noteLoss_map (s := { s with running := none }) i e.loss
      refine h₀.quiet noteLoss_locks.2 hroutes hjobs fun jobId record _ => ?_
      rcases hg jobId record with heq | ⟨reason, heq⟩
      · exact Or.inl heq
      · rw [heq]
        exact rewritten_failed

end Server

end DonutServer
