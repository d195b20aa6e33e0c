/-
A body nobody vouches for, and what the push handler makes of it.

The handler turns a `ProtocolError` of `parse_layout` into a 400 and puts the job in
ERROR; it catches nothing else there.  So what a body may do to the parser and what its
sender is told are one question: `hostile_body`.

The parser fails in two ways.  A `ProtocolError` says what is wrong with the framing and is meant
for the sender.  Anything else it lets through is a fault of the server's own, and a part name that
is no UTF-8 is the only one there is: the name is decoded with no handler for the error.
`undecodable_body` shows what then becomes of the job.
-/
import DonutServer.Server.Stranded
import DonutServer.Wire.Hostile

namespace DonutServer

open Function

namespace Server

variable {κ : Type} {n : Nat}

/-- The push was answered with a 400, and its job is in ERROR with the same text. -/
def TurnedDown (s s' : Server κ n) (c : CallId) (i : FlightId n) (request : PushRequest)
    (received : Nat) : Prop :=
  ∃ message, s'.handlers c =
      some ⟨.body i request received, some (.httpException 400 message)⟩ ∧
    s'.jobs request.jobId =
      (s.jobs request.jobId).map fun record => { record with state := .error, error := some message }

/-- The handler turns a body down exactly when the parser raises a `ProtocolError`. -/
theorem afterBody_turnedDown (s : Server κ n) (c : CallId) (i : FlightId n)
    (request : PushRequest) (received : Nat) :
    s.TurnedDown (s.afterBody c i request received) c i request received ↔
      ∃ message, parseLayout (slice (s.blocks i) 0 received) = .error (.protocolError message) := by
  unfold afterBody
  cases hparse : parseLayout (slice (s.blocks i) 0 received) with
  | error e =>
      cases e with
      | protocolError message =>
          exact ⟨fun _ => ⟨message, rfl⟩, fun _ => ⟨message, update_self _ _ _, update_self _ _ _⟩⟩
      | unicodeDecodeError =>
          refine ⟨?_, fun ⟨message, herror⟩ => absurd herror (by simp)⟩
          intro h
          obtain ⟨message, hreply, -⟩ := h
          have hself : (s.endPush c i (.body i request received) .internalError).handlers c =
              some ⟨.body i request received, some .internalError⟩ := update_self _ _ _
          exact absurd (hself.symm.trans hreply) (by simp)
  | ok layout =>
      refine ⟨?_, fun ⟨message, herror⟩ => absurd herror (by simp)⟩
      intro h
      obtain ⟨message, hreply, -⟩ := h
      have hself : (s.afterBody c i request received).handlers c =
          some ⟨.dispatched i request layout ((s.jobs request.jobId).bind JobRecord.preparedKey),
            none⟩ := by
        unfold afterBody
        rw [hparse]
        exact update_self _ _ _
      unfold afterBody at hself
      rw [hparse] at hself
      exact absurd (hself.symm.trans hreply) (by simp)

/-- **Which bodies are handled.**  Every body whose names decode, and no other, is parsed to
a layout inside its payload or refused with a `ProtocolError`; and that error is the only way
to a 400 that puts the job in ERROR. -/
theorem hostile_body (blob : Bytes) :
    (ParsesSafely blob ↔ NamesDecode blob) ∧
      ∀ (s : Server κ n) (c : CallId) (i : FlightId n) (request : PushRequest) (received : Nat),
        slice (s.blocks i) 0 received = blob →
          (s.TurnedDown (s.afterBody c i request received) c i request received ↔
            ∃ message, parseLayout blob = .error (.protocolError message)) := by
  refine ⟨parsesSafely_iff blob, ?_⟩
  intro s c i request received heq
  subst heq
  exact afterBody_turnedDown s c i request received

/-- A well-formed header, and one empty part whose one-byte name is no UTF-8. -/
def undecodableBlob : Bytes :=
  [68, 87, 70, 83, 0, 2, 0, 1, 0, 0, 0, 0, 0, 0, 0, 0] ++
    [1, 0, 0, 0, 0, 0, 0, 0, 0, 0, 0, 0, 0, 0, 0, 0, 0] ++ [255]

theorem undecodable_body :
    parseLayout undecodableBlob = .error .unicodeDecodeError ∧ ¬ParsesSafely undecodableBlob := by
  have hparse : parseLayout undecodableBlob = .error .unicodeDecodeError := by decide +kernel
  refine ⟨hparse, fun h => ?_⟩
  exact (parseLayout_undecodable undecodableBlob).mp hparse ((parsesSafely_iff _).mp h)

end Server

end DonutServer
