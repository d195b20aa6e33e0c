/-
A flight's block is used again and again, and never cleared.

A push writes its body over whatever is there, chunk by chunk, and what is read back while
it holds `push_lock` is read from the bytes it wrote itself: the header once there is one,
the framing once the body is over, and the parts for as long as the child works on them.
So each of these is a function of the body: `framing`, which knows of no block and no chunk,
says what the push is answered or which layout it is dispatched with.
-/
import DonutServer.Producer.Parallel
import DonutServer.Server.Awaited
import DonutServer.Server.Stranded

namespace DonutServer

open Function

variable {κ σ : Type} {n : Nat} {cfg : CoordSettings} {prog : ChildProgram κ σ}

namespace Server

/-! ### What a body comes to

The handler cannot check a body all at once, because it never has all of it in hand: the header is
looked at as soon as its bytes are there, and the framing when the stream ends.  `framing` makes
the same checks of the body as a whole, in the order in which the handler comes to them, so that
which of two faults is reported is settled here and nowhere else.
-/

/-- What the framing checks make of a body: how it is turned down, or the layout of its parts. -/
def framing (body : Bytes) : Except (Reply n) (List PartLayout) :=
  match checkHeader (n := n) body.length (slice body 0 headerSize) with
  | .error reply => .error reply
  | .ok _ =>
      match parseLayout body with
      | .error (.protocolError message) => .error (.httpException 400 message)
      | .error .unicodeDecodeError => .error .internalError
      | .ok layout => .ok layout

/-- The header of the body is accepted. -/
def HeaderOk (n : Nat) (body : Bytes) : Prop :=
  ∃ header, checkHeader (n := n) body.length (slice body 0 headerSize) = .ok header

theorem framing_of_header {body : Bytes} {reply : Reply n}
    (h : checkHeader body.length (slice body 0 headerSize) = .error reply) :
    framing body = .error reply := by
  unfold framing
  rw [h]

theorem framing_of_parse {body : Bytes} (h : HeaderOk n body) :
    framing (n := n) body =
      match parseLayout body with
      | .error (.protocolError message) => .error (.httpException 400 message)
      | .error .unicodeDecodeError => .error .internalError
      | .ok layout => .ok layout := by
  obtain ⟨header, hheader⟩ := h
  unfold framing
  rw [hheader]

/-! ### What a block holds of a body

The block is longer than the body, and what lies behind the body is left from an earlier push.
Nothing that is read may depend on it.  So it is enough that the first bytes of the block are those
of the body, and that every range that is read ends inside it; the second is what `parse_layout`
checks of each part before it returns a layout.
-/

/-- The first bytes of the block are the first bytes of the body. -/
structure Holds (block body : Bytes) (received : Nat) : Prop where
  sent : received ≤ body.length
  fits : received ≤ block.length
  same : block.take received = body.take received

theorem Holds.zero (block body : Bytes) : Holds block body 0 :=
  ⟨Nat.zero_le _, Nat.zero_le _, rfl⟩

/-- One chunk more is written behind the others. -/
theorem Holds.absorb {block body : Bytes} {received count : Nat} (h : Holds block body received)
    (hcount : received + count ≤ body.length) (hfits : received + count ≤ block.length) :
    Holds (block.take received ++ slice body received count ++
        block.drop (received + (slice body received count).length)) body (received + count) ∧
      (block.take received ++ slice body received count ++
        block.drop (received + (slice body received count).length)).length = block.length := by
  have hchunk : (slice body received count).length = count := by
    unfold slice
    rw [List.length_take, List.length_drop]
    omega
  have hlength : (block.take received ++ slice body received count ++
      block.drop (received + (slice body received count).length)).length = block.length := by
    rw [List.length_append, List.length_append, List.length_take, List.length_drop, hchunk]
    omega
  refine ⟨⟨hcount, by omega, ?_⟩, hlength⟩
  have hfront : (block.take received ++ slice body received count).length = received + count := by
    rw [List.length_append, List.length_take, hchunk]
    omega
  rw [List.take_left' hfront, h.same]
  unfold slice
  rw [List.take_add]

/-- What is read of the bytes that are there is read of the body. -/
theorem Holds.slice {block body : Bytes} {received pos count : Nat} (h : Holds block body received)
    (hinside : pos + count ≤ received) : slice block pos count = slice body pos count := by
  have hcut : ∀ l : Bytes, DonutServer.slice l pos count =
      DonutServer.slice (l.take received) pos count := by
    intro l
    unfold DonutServer.slice
    rw [List.drop_take, List.take_take, Nat.min_eq_left (by omega)]
  rw [hcut block, hcut body, h.same]

/-- All of the body is there. -/
theorem Holds.whole {block body : Bytes} (h : Holds block body body.length) :
    DonutServer.slice block 0 body.length = body := by
  rw [h.slice (Nat.le_of_eq (Nat.zero_add _))]
  unfold DonutServer.slice
  rw [List.drop_zero, List.take_length]

/-- The header is checked once it is there, or once there is no more. -/
theorem Holds.checkHeader {block body : Bytes} {received : Nat} (h : Holds block body received)
    (hready : headerSize ≤ received ∨ received = body.length) :
    checkHeader (n := n) received (DonutServer.slice block 0 headerSize) =
      checkHeader body.length (DonutServer.slice body 0 headerSize) := by
  have hsent := h.sent
  by_cases hshort : received < headerSize
  · unfold Server.checkHeader
    rw [if_pos hshort, if_pos (by omega)]
  · have hbody : ¬ body.length < headerSize := by omega
    rw [h.slice (by omega : 0 + headerSize ≤ received)]
    unfold Server.checkHeader
    rw [if_neg hshort, if_neg hbody]

/-- **What the coordinator rebuilds** from a block that holds a body is what it would
rebuild from the body alone: every range of the layout ends inside it. -/
theorem Holds.reconstruct {A : Producer.Afw} (env : Producer.CameraEnv A) {block body : Bytes}
    {layout : List PartLayout} (h : Holds block body body.length)
    (hparse : parseLayout body = .ok layout) :
    Producer.reconstructExposures env block layout =
      Producer.reconstructExposures env body layout := by
  have hparts : (layout.map fun part => (part.name, DonutServer.slice block part.offset part.byteCount)) =
      layout.map fun part => (part.name, DonutServer.slice body part.offset part.byteCount) := by
    refine List.map_congr_left fun part hpart => ?_
    rw [h.slice (parseLayout_within hparse part hpart)]
  unfold Producer.reconstructExposures
  rw [hparts]

/-! ### What is kept of a push

The invariant has two halves.  `Holds` is about the bytes and `Judged` about the answer; both are
kept by every step of every other request, because a block is written by the holder of its
`push_lock` only, and by the steps of the push itself, one lemma for each thing it can do: take in
a chunk, check the header, close the body.

A task runs on until it has to wait, and in the middle of that the invariant need not hold.
`Ready` says how far the task has got, and `Insulated` is the invariant with that one exception.
-/

/-- How a push may be answered before it is dispatched: as its body comes to, unless the client
goes away or the body is longer than the block.  These two are told before the body is over, and so
before anything is known of what it would have come to. -/
def Judged (block body : Bytes) (reply : Reply n) : Prop :=
  reply = .clientDisconnect ∨ block.length < body.length ∨ framing body = .error reply

/-- A push has what it wrote at the start of its block, and has been judged by its body. -/
def Kept (blocks : FlightId n → Bytes) : Handler n → Prop
  | ⟨.header i request received, none⟩ => Holds (blocks i) request.body received
  | ⟨.body i request received, none⟩ =>
      Holds (blocks i) request.body received ∧ HeaderOk n request.body
  | ⟨.dispatched i request layout _, none⟩ =>
      Holds (blocks i) request.body request.body.length ∧ framing (n := n) request.body = .ok layout
  | ⟨.header i request _, some reply⟩ => Judged (blocks i) request.body reply
  | ⟨.body i request _, some reply⟩ => Judged (blocks i) request.body reply
  | ⟨.dispatched _ request layout _, some _⟩ => framing (n := n) request.body = .ok layout
  | _ => True

/-- Only the block of the flight it holds the lock of matters to a push, and after its
answer only how long that is. -/
theorem Kept.mono {blocks blocks' : FlightId n → Bytes} {handler : Handler n}
    (h : Kept blocks handler) (hlength : ∀ i, (blocks' i).length = (blocks i).length)
    (hsame : ∀ i, handler.station = some (i, true) → blocks' i = blocks i) :
    Kept blocks' handler := by
  obtain ⟨progress, reply⟩ := handler
  cases progress with
  | header i request received =>
      cases reply with
      | none =>
          show Holds (blocks' i) request.body received
          rw [hsame i rfl]
          exact h
      | some reply =>
          show Judged (blocks' i) request.body reply
          unfold Judged
          rw [hlength i]
          exact h
  | body i request received =>
      cases reply with
      | none =>
          show Holds (blocks' i) request.body received ∧ HeaderOk n request.body
          rw [hsame i rfl]
          exact h
      | some reply =>
          show Judged (blocks' i) request.body reply
          unfold Judged
          rw [hlength i]
          exact h
  | dispatched i request layout key =>
      cases reply with
      | none =>
          show Holds (blocks' i) request.body request.body.length ∧
            framing (n := n) request.body = .ok layout
          rw [hsame i rfl]
          exact h
      | some reply => exact h
  | _ => cases reply <;> trivial

variable {s s' : Server κ n} {c : CallId} {i : FlightId n}

/-- The push has got as far as the rest of its task takes for granted. -/
def Ready (r : Resumption) (progress : Progress n) : Prop :=
  match r, progress with
  | .headerRead last, .header _ request received =>
      (headerSize ≤ received ∨ received = request.body.length) ∧
        (last = true → received = request.body.length)
  | .bodyRead, .body _ request received => received = request.body.length
  | _, _ => True

/-- Every push is kept, and the one that is being run has got far enough. -/
structure Insulated (s : Server κ n) : Prop where
  kept : ∀ c handler, s.handlers c = some handler → Kept s.blocks handler
  ready : ∀ c r progress, s.running = some (c, r) → s.At c progress → Ready r progress

/-- Nothing is left to be run of a task that reads a body: it waits for bytes, or is past its body,
or was never at one. -/
def Unread (running : Option (CallId × Resumption)) : Prop :=
  ∀ c r (progress : Progress n), running = some (c, r) → Ready r progress

theorem unread_none : Unread (n := n) none := fun _ _ _ heq => absurd heq (by simp)

theorem unread_goOn (c : CallId) : Unread (n := n) (some (c, .goOn)) := by
  intro c' r progress heq
  rw [← (Prod.mk.inj (Option.some.inj heq)).2]
  exact True.intro

theorem unread_result (q : Option (CallId × Result)) :
    Unread (n := n) (q.map fun q => (q.1, .result q.2)) := by
  intro c r progress heq
  obtain ⟨_, _, heq⟩ := Option.map_eq_some_iff.mp heq
  rw [← (Prod.mk.inj heq).2]
  exact True.intro

/-- The next bytes of a body, in the block they are for. -/
theorem absorb_holds {body : Bytes} {received count : Nat}
    (h : Holds (s.blocks i) body received) (hcount : received + count ≤ body.length)
    (hfits : received + count ≤ (s.blocks i).length) :
    Holds ((s.absorb i received (slice body received count)).blocks i) body (received + count) ∧
      ((s.absorb i received (slice body received count)).blocks i).length =
        (s.blocks i).length := by
  unfold absorb
  dsimp only
  rw [update_self]
  exact h.absorb hcount hfits

/-- A request that writes to no block takes a step. -/
theorem Insulated.step {handler : Handler n} (h : s.Insulated) (hblocks : s'.blocks = s.blocks)
    (hhandlers : s'.handlers = update s.handlers c (some handler))
    (hself : Kept s.blocks handler) (hrunning : Unread (n := n) s'.running) : s'.Insulated := by
  refine ⟨fun c' handler' hc' => ?_, fun c' r progress hr _ => hrunning c' r progress hr⟩
  rw [hhandlers] at hc'
  rw [hblocks]
  by_cases hne : c' = c
  · rw [hne, update_self] at hc'
    exact Option.some.inj hc' ▸ hself
  · rw [update_of_ne hne] at hc'
    exact h.kept c' handler' hc'

/-- The push that holds the lock takes in bytes, or goes on with the bytes that are there. -/
theorem Insulated.advance {progress progress' : Progress n} {b : Prop} [Decidable b]
    {r : Resumption} (h : s.Insulated)
    (hlinks : s.PushLinks) (hc : s.At c progress) (hstation : progress.station = some (i, true))
    (hother : ∀ j, j ≠ i → s'.blocks j = s.blocks j)
    (hlength : (s'.blocks i).length = (s.blocks i).length)
    (hhandlers : s'.handlers = update s.handlers c (some ⟨progress', none⟩))
    (hself : Kept s'.blocks ⟨progress', none⟩)
    (hrunning : s'.running = if b then some (c, r) else none) (hready : b → Ready r progress') :
    s'.Insulated := by
  have hlengths : ∀ j, (s'.blocks j).length = (s.blocks j).length := by
    intro j
    by_cases hj : j = i
    · rw [hj, hlength]
    · rw [hother j hj]
  refine ⟨fun c' handler hc' => ?_, fun c' r' p hr hp => ?_⟩
  · rw [hhandlers] at hc'
    by_cases hne : c' = c
    · rw [hne, update_self] at hc'
      exact Option.some.inj hc' ▸ hself
    · rw [update_of_ne hne] at hc'
      refine (h.kept c' handler hc').mono hlengths fun j hj => hother j ?_
      -- Two pushes past the lock of one flight are one push.
      intro hji
      refine hne (hlinks.alone ?_ ((stationOf_at hc).trans hstation))
      rw [hji] at hj
      unfold stationOf
      rw [hc']
      exact hj
  · rw [hrunning] at hr
    by_cases hb : b
    · rw [if_pos hb] at hr
      obtain ⟨rfl, rfl⟩ := Prod.mk.inj (Option.some.inj hr)
      have hp : s'.handlers c = some ⟨p, none⟩ := hp
      rw [hhandlers, update_self] at hp
      rw [← show progress' = p from congrArg Handler.progress (Option.some.inj hp)]
      exact hready hb
    · rw [if_neg hb] at hr
      exact absurd hr (by simp)

/-- What is kept of a push whose header is in, or whose body is. -/
theorem Insulated.header {request : PushRequest} {received : Nat} {last : Bool} (h : s.Insulated)
    (hr : s.running = some (c, .headerRead last)) (hc : s.At c (.header i request received)) :
    Holds (s.blocks i) request.body received ∧
      checkHeader (n := n) received (slice (s.blocks i) 0 headerSize) =
        checkHeader request.body.length (slice request.body 0 headerSize) ∧
      (last = true → received = request.body.length) := by
  have hholds : Holds (s.blocks i) request.body received := h.kept c _ hc
  obtain ⟨hready, hlast⟩ := h.ready c _ _ hr hc
  exact ⟨hholds, hholds.checkHeader hready, hlast⟩

theorem Insulated.body {request : PushRequest} {received : Nat} (h : s.Insulated)
    (hr : s.running = some (c, .bodyRead)) (hc : s.At c (.body i request received)) :
    Holds (s.blocks i) request.body request.body.length ∧ HeaderOk n request.body ∧
      slice (s.blocks i) 0 received = request.body := by
  obtain ⟨hholds, hheader⟩ : Holds (s.blocks i) request.body received ∧ HeaderOk n request.body :=
    h.kept c _ hc
  obtain rfl : received = request.body.length := h.ready c _ _ hr hc
  exact ⟨hholds, hheader, hholds.whole⟩

/-- The step lemma. -/
theorem Insulated.next {a : ServerAction σ n} (h : s.Insulated) (hlinks : s.PushLinks)
    (hstep : s.next cfg prog a = some s') : s'.Insulated := by
  have hm := next_moves hstep
  generalize hr : s.running = r at hm
  have h₀ : Insulated { s with running := none } := ⟨h.kept, fun c r p heq _ => unread_none c r p heq⟩
  have hl₀ : PushLinks { s with running := none } := hlinks.same rfl fun _ => rfl
  cases hm with
  | tick => exact ⟨h.kept, fun c r p heq _ => unread_none c r p heq⟩
  | refused c | unresolved c | turnedDown c | invalid c | unprepared c | prepareFailed c
  | prepared c | uningested c | ingested c | pushQueued c =>
      exact h₀.step rfl rfl True.intro unread_none
  | guarded c | preparedSubmitted c => exact h₀.step rfl rfl True.intro (unread_goOn c)
  | resolve c | prepare c | prepareSubmitted c | ingest c =>
      exact h₀.step rfl rfl True.intro (unread_result _)
  | pushBegun c request | pushGranted c i j request =>
      exact h₀.step rfl rfl (Holds.zero _ _) unread_none
  | overflow c count last i request received progress hp hc hcount hfull =>
      have hjudged : Judged (s.blocks i) request.body
          (.httpException 413 "payload too large" : Reply n) :=
        Or.inr (Or.inl (Nat.lt_of_lt_of_le hfull hcount))
      cases hp with
      | header | body => exact h₀.step rfl rfl hjudged unread_none
  | disconnect c i request received progress hp hc =>
      have hjudged : Judged (s.blocks i) request.body (.clientDisconnect : Reply n) := Or.inl rfl
      cases hp with
      | header | body => exact h₀.step rfl rfl hjudged unread_none
  | chunkHeader c count last i request received _ hc hcount hlast hfits hrunning =>
      have hholds : Holds (s.blocks i) request.body received := h.kept c _ hc
      obtain ⟨hmore, hlength⟩ := absorb_holds hholds hcount hfits
      exact h₀.advance hl₀ hc rfl (fun j hj => update_of_ne hj _ _) hlength rfl hmore hrunning
        fun hready => ⟨hready.imp id hlast, hlast⟩
  | chunkBody c count last i request received _ hc hcount hlast hfits hrunning =>
      obtain ⟨hholds, hheader⟩ : Holds (s.blocks i) request.body received ∧ HeaderOk n request.body :=
        h.kept c _ hc
      obtain ⟨hmore, hlength⟩ := absorb_holds hholds hcount hfits
      exact h₀.advance hl₀ hc rfl (fun j hj => update_of_ne hj _ _) hlength rfl ⟨hmore, hheader⟩
        hrunning hlast
  | headerRefused c last i request received reply _ hc hcheck =>
      obtain ⟨_, heq, _⟩ := h.header hr hc
      exact h₀.step rfl rfl (Or.inr (Or.inr (framing_of_header (heq.symm.trans hcheck)))) unread_none
  | headerAccepted c last i request received header _ _ hc hcheck hrunning =>
      obtain ⟨hholds, heq, hlast⟩ := h.header hr hc
      exact h₀.advance hl₀ hc rfl (fun _ _ => rfl) rfl rfl ⟨hholds, header, heq.symm.trans hcheck⟩
        hrunning hlast
  | layoutRefused c i request received message _ hc hparse
  | layoutCrashed c i request received _ hc hparse =>
      obtain ⟨_, hheader, hwhole⟩ := h.body hr hc
      have hparse := (congrArg parseLayout hwhole).symm.trans hparse
      refine h₀.step rfl rfl (Or.inr (Or.inr ?_)) unread_none
      rw [framing_of_parse hheader, hparse]
  | dispatched c i request received layout key _ hc hparse =>
      obtain ⟨hholds, hheader, hwhole⟩ := h.body hr hc
      have hparse := (congrArg parseLayout hwhole).symm.trans hparse
      refine h₀.step rfl rfl ⟨hholds, ?_⟩ (unread_result _)
      rw [framing_of_parse hheader, hparse]
  | pushed c i request layout key _ _ _ _ hc =>
      have hkept : Kept s.blocks ⟨.dispatched i request layout key, none⟩ := h.kept c _ hc
      exact h₀.step rfl rfl hkept.2 unread_none
  | flight i a f e hcall hflight =>
      have hblocks : (noteLoss i e.loss { s with running := none }).blocks = s.blocks := by
        unfold noteLoss
        split <;> rfl
      refine ⟨fun c handler hc => ?_, fun c r p heq _ => unread_result e.finished c r p heq⟩
      show Kept (noteLoss i e.loss { s with running := none }).blocks handler
      rw [hblocks]
      exact h.kept c handler
        ((congrFun (noteLoss_locks (s := { s with running := none })).2 c).symm.trans hc)

theorem reach_insulated {ok : Server κ n → ServerAction σ n → Server κ n → Prop}
    (h : (serverSystem n cfg prog).Reach ok s) : s.Insulated := by
  refine h.invariant' ?_ fun s a s' hr hs _ hstep => hs.next (reach_pushLinks hr) hstep
  intro _ hx
  obtain ⟨_, _, rfl⟩ := hx
  exact ⟨fun c handler hc => absurd hc (by simp [started]),
    fun c r p heq _ => unread_none c r p heq⟩

/-! ### What a push shows of its block

While a child works on a push, the task of the push still waits for its answer and holds the lock
all that time.  That is why the child may read the block at any moment of its work, with no copy
being made: `Insulated.reading` puts the two together.
-/

/-- A body that is dispatched parses to the layout it is dispatched with. -/
theorem framing_ok {body : Bytes} {layout : List PartLayout}
    (h : framing (n := n) body = .ok layout) : parseLayout body = .ok layout := by
  unfold framing at h
  split at h
  · exact absurd h (by simp)
  · split at h
    · exact absurd h (by simp)
    · exact absurd h (by simp)
    · rename_i hparse
      rw [hparse, Except.ok.inj h]

/-- **The child of a push reads its body**: whoever sent the command still holds the lock,
and the block holds all that it wrote. -/
theorem Insulated.reading {k : ChildId} {tag : Tag} {jobId : JobId} {layout : List PartLayout}
    {numWorkers : Option Int} {key : Option PrepareKey} (h : s.Insulated) (hawaited : s.Awaited)
    (hsound : s.Sound prog)
    (hreading : ((s.flights i).children k).Reading tag (.push jobId layout numWorkers key)) :
    ∃ c request, s.At c (.dispatched i request layout key) ∧ request.jobId = jobId ∧
      Holds (s.blocks i) request.body request.body.length ∧
        parseLayout request.body = .ok layout := by
  obtain ⟨hi, _, hattended⟩ := hsound i
  rcases hattended.exchange hi.serial hreading with ⟨args, heq⟩ | ⟨c, howner⟩
  · exact absurd heq (by simp)
  · have hcaller : (c, Command.push jobId layout numWorkers key) ∈ (s.flights i).callers := by
      rw [Flight.callers_of_owner howner]
      exact List.mem_append_left _ (by simp [Holder.caller])
    obtain ⟨progress, hc, hsent⟩ := hawaited.waits i c _ hcaller
    cases progress with
    | dispatched j request layout' key' =>
        obtain ⟨rfl, hcommand⟩ := Prod.mk.inj (Option.some.inj hsent)
        obtain ⟨rfl, rfl, _, rfl⟩ := Command.push.inj hcommand
        obtain ⟨hholds, hframing⟩ : Holds (s.blocks j) request.body request.body.length ∧
            framing (n := n) request.body = .ok layout' := h.kept c _ hc
        exact ⟨c, request, hc, rfl, hholds, framing_ok hframing⟩
    | resolving | preparing | ingesting =>
        exact absurd (Prod.mk.inj (Option.some.inj hsent)).2 (by simp)
    | _ => exact absurd hsent (by simp [Progress.sent])

/-- **Isolation of the reused block.**  Whatever the blocks held at first, however the bodies
are cut into chunks, and whatever else goes on: a push whose body fits its block is answered
before it is dispatched as its own body comes to, unless its client went away; it is dispatched
with the layout its own body parses to; and a living child that has a push in hand rebuilds from
the block what it would rebuild from the body of that push alone. -/
theorem block_isolation (h : (serverSystem n cfg prog).Reach restartsSafely s) :
    (∀ c progress i request received reply, s.handlers c = some ⟨progress, some reply⟩ →
      progress.Receiving i request received → request.body.length ≤ (s.blocks i).length →
      reply = .clientDisconnect ∨ framing request.body = .error reply) ∧
    (∀ c i request layout key reply, s.handlers c = some ⟨.dispatched i request layout key, reply⟩ →
      framing (n := n) request.body = .ok layout) ∧
    ∀ i k tag jobId layout numWorkers key,
      ((s.flights i).children k).Reading tag (.push jobId layout numWorkers key) →
      ∃ c request, s.At c (.dispatched i request layout key) ∧ request.jobId = jobId ∧
        ∀ (A : Producer.Afw) (env : Producer.CameraEnv A),
          Producer.reconstructExposures env (s.blocks i) layout =
            Producer.reconstructExposures env request.body layout := by
  have hinsulated := reach_insulated h
  refine ⟨?_, ?_, ?_⟩
  · intro c progress i request received reply hc hp hfits
    have hkept := hinsulated.kept c _ hc
    have hjudged : Judged (s.blocks i) request.body reply := by
      cases hp with
      | header | body => exact hkept
    rcases hjudged with hleft | hlong | hframing
    · exact Or.inl hleft
    · exact absurd hfits (by omega)
    · exact Or.inr hframing
  · intro c i request layout key reply hc
    have hkept := hinsulated.kept c _ hc
    cases reply with
    | none => exact hkept.2
    | some reply => exact hkept
  · intro i k tag jobId layout numWorkers key hreading
    obtain ⟨c, request, hc, hjob, hholds, hparse⟩ :=
      hinsulated.reading (reach_awaited h) (reach_sound h) hreading
    exact ⟨c, request, hc, hjob, fun A env => hholds.reconstruct env hparse⟩

/-- A blob of one part, "a", of two bytes. -/
def benchParts : Bytes :=
  [68, 87, 70, 83, 0, 2, 0, 1, 0, 0, 0, 0, 0, 0, 0, 2] ++
    [1, 0, 0, 0, 0, 0, 0, 0, 0, 0, 0, 0, 0, 0, 0, 0, 2] ++ [97] ++ [7, 8]

/-- One flight with a block that has been used before. -/
def benchUsed : Server Unit 0 := Server.started .scripted 1 fun _ => List.replicate 64 255

/-- The body comes in in three chunks, the first of which ends inside the header; the child
takes the command. -/
def benchReads : List (ServerAction Msg 0) :=
  preparedJob "job" ++ [.push 1 ⟨"job", benchParts, none⟩, .chunk 1 10 false, .chunk 1 20 false,
    .resume "", .chunk 1 6 true, .resume "", .flight benchFlight (.runExecutor none),
    .flight benchFlight (.receive 0)]

/-- A child with a push in hand reads the body of that push. -/
theorem block_isolation_reading :
    ∃ (s : Server Unit 0) (layout : List PartLayout) (key : Option PrepareKey),
      ((s.flights 0).children 0).Reading 1 (.push "job" layout none key) ∧
      ∃ c request, s.At c (.dispatched 0 request layout key) ∧ request.jobId = "job" ∧
        ∀ (A : Producer.Afw) (env : Producer.CameraEnv A),
          Producer.reconstructExposures env (s.blocks 0) layout =
            Producer.reconstructExposures env request.body layout := by
  obtain ⟨s, key, hs, hreading⟩ : ∃ (s : Server Unit 0) (key : Option PrepareKey),
      System.followWhen restartsNone (Server.next .standard .scripted) benchReads benchUsed =
          some s ∧
        ((s.flights 0).children 0).Reading 1 (.push "job" [⟨"a", 34, 2⟩] none key) :=
    ⟨_, _, rfl, rfl, Or.inl rfl⟩
  have hreach : (serverSystem 0 .standard .scripted).Reach restartsSafely s := by
    refine System.Reach.followWhen (fun _ _ _ h => h) ?_ (.init ⟨1, _, rfl⟩) hs
    intro s a s' hcheck
    exact restartsNone_safely hcheck
  exact ⟨s, _, key, hreading,
    (block_isolation hreach).2.2 0 0 1 "job" [⟨"a", 34, 2⟩] none key hreading⟩

end Server

end DonutServer
