/-
Bounded reads of the pipeline log.

The log is one file for all jobs and for all coordinators there have been, and is only ever
appended to.  A job's lines are found by the line that says it is starting, and end where
another such line, or a coordinator's first one, says that what follows is not the job's.
-/
import DonutServer.Coordinator.Stack
import DonutServer.Lib.CodePoints
import DonutServer.Lib.Lines
import DonutServer.Protocol

namespace DonutServer.Dashboard

open PyText Lines

/-! ### What is read

The log may be of any length, and the front-end never reads more of it than a fixed number of bytes
from its end.  The size and the bytes are those of one open file, and are taken at one time here.
-/

/-- The least that a tail can be asked for. -/
def minTailBytes : Nat := 4 * 1024

/-- And the most. -/
def maxTailBytes : Nat := 1024 * 1024

/-- How far back a job is searched for. -/
def sliceSearchBytes : Nat := 8 * 1024 * 1024

/-- How long a slice may get. -/
def sliceMaxBytes : Nat := 512 * 1024

/-- The bytes of a literal. -/
def ascii (s : String) : Bytes := s.toList.map fun c => UInt8.ofNat c.toNat

/-- `b"\n"`. -/
def lineFeed : UInt8 := 10

/-- `_MARKER_SUFFIX`. -/
def markerSuffix : Bytes := ascii ": starting"

/-- `_RESTART_MARKER`. -/
def restartMarker : Bytes := ascii "coordinator ready, pid"

/-- The log, where there is one. -/
structure LogFile where
  path : String
  content : Option Bytes

/-- `_read_tail`: the size of the log, where its last bytes start, and these. -/
def readTail (content : Bytes) (nBytes : Nat) : Nat × Nat × Bytes :=
  let size := content.length
  let start := size - nBytes
  (size, start, (content.drop start).take nBytes)

/-! ### Colour codes

The log has the escape codes of coloured output in it.  A code is an escape, a bracket, digits and
semicolons, and the letter that ends it; anything else that starts like one is left as it is.
-/

/-- The rest of a colour code, counted with the bytes before it. -/
def sgrTail : Nat → Bytes → Option Nat
  | _, [] => none
  | n, b :: rest =>
      if b = 0x6d then some (n + 1)
      else if (0x30 ≤ b ∧ b ≤ 0x39) ∨ b = 0x3b then sgrTail (n + 1) rest
      else none

/-- The length of the colour code that comes first. -/
def sgrLength : Bytes → Option Nat
  | 0x1b :: 0x5b :: rest => sgrTail 2 rest
  | _ => none

/-- The bytes without their colour codes, the first few of them skipped. -/
def stripSgrAfter : Nat → Bytes → Bytes
  | _, [] => []
  | skip + 1, _ :: rest => stripSgrAfter skip rest
  | 0, b :: rest =>
      match sgrLength (b :: rest) with
      | some n => stripSgrAfter (n - 1) rest
      | none => b :: stripSgrAfter 0 rest

/-- `_clean`. -/
def clean (data : Bytes) : CodePoints := decode (stripSgrAfter 0 data)

/-! ### The tail

The tail is what the log page shows while it is open.  How much is read can be asked for, within
two bounds; the first line of what is read is dropped wherever the reading did not start with the
file.
-/

inductive TailReply
  | absent (path : String)
  | read (path : String) (size start returnedBytes : Nat) (truncated : Bool) (text : CodePoints)

def tail (log : LogFile) (nBytes : Int) : TailReply :=
  let n := (max (minTailBytes : Int) (min maxTailBytes nBytes)).toNat
  match log.content with
  | none => .absent log.path
  | some content =>
      let (size, start, data) := readTail content n
      let whole :=
        if 0 < start then
          match find [lineFeed] data with
          | some nl => data.drop (nl + 1)
          | none => []
        else data
      .read log.path size start whole.length (0 < start) (clean whole)

/-! ### The slice of a job

A job's output starts with the line that has its marker.  It is searched for in the last part of
the log only, and a job that is not found there may still be further up: `Searched` says how far
was looked, so that the client can tell.
-/

/-- What is said of a slice, whether it is found or not. -/
structure Searched where
  path : String
  size : Nat
  jobId : CodePoints
  searchedBytes : Nat
  deriving DecidableEq

structure Slice extends Searched where
  start : Nat
  stop : Nat
  returnedBytes : Nat
  truncated : Bool
  text : CodePoints
  deriving DecidableEq

inductive SliceReply
  | absent (path : String) (jobId : CodePoints)
  | notFound (base : Searched)
  | found (slice : Slice)
  deriving DecidableEq

/-- Where a slice ends: at the next marker, or where there is none at the next restart. -/
def sliceEnd (data : Bytes) (after : Nat) : Nat :=
  match findFrom markerSuffix data after with
  | some e => lineStart lineFeed data e
  | none =>
      match findFrom restartMarker data after with
      | some e => lineStart lineFeed data e
      | none => data.length

/-- The marker of a job, as its first line has it. -/
def needleOf (id : Bytes) : Bytes := ascii "job " ++ id ++ markerSuffix

/-- A slice of what was searched, where the marker stands at `i`. -/
def sliceAt (base : Searched) (start : Nat) (data needle : Bytes) (i : Nat) : Slice :=
  let first := lineStart lineFeed data i
  let next := sliceEnd data (i + needle.length)
  let truncated : Bool := sliceMaxBytes < next - first
  let stop := if truncated then first + sliceMaxBytes else next
  { base with
    start := start + first
    stop := start + stop
    returnedBytes := stop - first
    truncated := truncated
    text := clean ((data.take stop).drop first) }

/-- What is said of a job, where this was searched. -/
def sliceReply (base : Searched) (start : Nat) (data : Bytes) : Except Exn SliceReply :=
  match encode base.jobId with
  | none => .error ⟨.other "UnicodeEncodeError", encodeErrorText base.jobId⟩
  | some id =>
      match rfind (needleOf id) data with
      | none => .ok (.notFound base)
      | some i => .ok (.found (sliceAt base start data (needleOf id) i))

/-- `job_slice`. -/
def jobSlice (log : LogFile) (jobId : CodePoints) : Except Exn SliceReply :=
  match log.content with
  | none => .ok (.absent log.path jobId)
  | some content =>
      let (size, start, data) := readTail content sliceSearchBytes
      sliceReply ⟨log.path, size, jobId, data.length⟩ start data

/-! ### What the tail shows

A read of the last bytes starts in the middle of a line, or by chance at the start of one; `tail`
cannot tell which, and drops the first line of what it read in either case.  What it shows is so
a run of whole lines to the end of the log, no more than was asked for, and no line more is left
out than the one that the first byte fell in.
-/

variable {log : LogFile} {content : Bytes} {pre later : List Bytes} {own : Bytes} {start : Nat}

theorem readTail_eq (n : Nat) : readTail content n =
    (content.length, content.length - n, content.drop (content.length - n)) := by
  have htake : (content.drop (content.length - n)).take n = content.drop (content.length - n) :=
    List.take_of_length_le (by rw [List.length_drop]; omega)
  exact congrArg (fun data => (content.length, content.length - n, data)) htake

/-- The lines of a log and those of what is read of it: only the first of these may lack what
stands before. -/
theorem lines_of_window {log : Bytes} (hwindow : lines lineFeed (log.drop start) = pre ++ own :: later)
    (hstart : start ≤ log.length) :
    ∃ before missing, lines lineFeed log = before ++ (missing ++ own) :: later ∧
      before.flatten.length + missing.length = start + pre.flatten.length ∧
      (missing ≠ [] → before.flatten.length < start) := by
  have hlength : (log.take start).length = start := by rw [List.length_take, Nat.min_eq_left hstart]
  rcases pre with _ | ⟨first, pre⟩
  · obtain ⟨p, y, htake, hlines⟩ := lines_append hwindow (log.take start)
    rw [List.take_append_drop] at hlines
    rw [htake, List.length_append] at hlength
    refine ⟨p, y, hlines, by rw [hlength, List.flatten_nil, List.length_nil, Nat.add_zero], ?_⟩
    intro hne
    have hpos := List.length_pos_of_ne_nil hne
    omega
  · obtain ⟨p, y, htake, hlines⟩ := lines_append hwindow (log.take start)
    rw [List.take_append_drop] at hlines
    rw [htake, List.length_append] at hlength
    refine ⟨p ++ (y ++ first) :: pre, [], ?_, ?_, fun hne => absurd rfl hne⟩
    · rw [hlines, List.append_assoc]
      rfl
    · rw [List.flatten_append, List.flatten_cons, List.flatten_cons, List.length_append,
        List.length_append, List.length_append, List.length_append, List.length_nil]
      omega

/-- What stands behind the first line feed is what stands behind the first line. -/
theorem drop_first_line {first : Bytes} {rest : List Bytes} (h : IsLines lineFeed (first :: rest)) :
    (match find [lineFeed] (first :: rest).flatten with
      | some nl => (first :: rest).flatten.drop (nl + 1)
      | none => []) = rest.flatten := by
  cases h with
  | last l hne hmem =>
      have hnone : ¬ [lineFeed] <:+: [first].flatten := by
        simpa [List.singleton_infix_iff] using hmem
      rw [find_eq_none hnone]
      rfl
  | cons body rest hmem hrest =>
      have hfind : find [lineFeed] (((body ++ [lineFeed]) :: rest).flatten) = some body.length := by
        rw [List.flatten_cons, List.append_assoc]
        exact find_single _ hmem
      rw [hfind]
      dsimp only
      rw [List.flatten_cons, List.append_assoc, ← List.append_assoc]
      exact List.drop_left' (by simp)

/-- **The tail is whole lines**, as many as the bytes asked for hold but for the first. -/
theorem tail_whole_lines (hcontent : log.content = some content) (nBytes : Int) :
    ∃ n pre post, minTailBytes ≤ n ∧ n ≤ maxTailBytes ∧
      ((minTailBytes : Int) ≤ nBytes → nBytes ≤ maxTailBytes → (n : Int) = nBytes) ∧
      lines lineFeed content = pre ++ post ∧
      tail log nBytes = .read log.path content.length (content.length - n) post.flatten.length
        (0 < content.length - n) (clean post.flatten) ∧
      post.flatten.length ≤ n ∧ (content.length ≤ n → pre = []) ∧
      ∀ before l, pre = before ++ [l] → n ≤ (l ++ post.flatten).length := by
  obtain ⟨n, hn⟩ : ∃ n, n = (max (minTailBytes : Int) (min maxTailBytes nBytes)).toNat := ⟨_, rfl⟩
  have hmin : minTailBytes ≤ maxTailBytes := by decide
  have hlow : minTailBytes ≤ n := by omega
  have hpositive : 0 < minTailBytes := by decide
  have htail : ∀ whole : Bytes,
      (if 0 < content.length - n then
        match find [lineFeed] (content.drop (content.length - n)) with
        | some nl => (content.drop (content.length - n)).drop (nl + 1)
        | none => []
      else content.drop (content.length - n)) = whole →
      tail log nBytes = .read log.path content.length (content.length - n) whole.length
        (0 < content.length - n) (clean whole) := by
    rintro whole rfl
    unfold tail
    rw [hcontent, ← hn]
    dsimp only
    rw [readTail_eq]
  by_cases hall : content.length ≤ n
  · have hzero : content.length - n = 0 := Nat.sub_eq_zero_of_le hall
    refine ⟨n, [], lines lineFeed content, hlow, by omega, by omega, rfl, htail _ ?_, ?_,
      fun _ => rfl, fun before l heq => absurd heq (by simp)⟩
    · rw [hzero, if_neg (Nat.lt_irrefl 0), List.drop_zero, flatten_lines]
    · rw [flatten_lines]
      exact hall
  · -- The line that the first byte fell in is left out, whole or not.
    have hstart : 0 < content.length - n := by omega
    have hlength : (content.drop (content.length - n)).length = n := by
      rw [List.length_drop]
      omega
    have hlines := isLines_lines lineFeed (content.drop (content.length - n))
    have hflat := flatten_lines lineFeed (content.drop (content.length - n))
    rcases hsplit : lines lineFeed (content.drop (content.length - n)) with _ | ⟨first, rest⟩
    · rw [hsplit] at hflat
      rw [← hflat] at hlength
      exact absurd hlength (by simp; omega)
    · rw [hsplit] at hlines hflat
      have hwindow : lines lineFeed (content.drop (content.length - n)) = [] ++ first :: rest := hsplit
      obtain ⟨before, missing, hlog, -, -⟩ := lines_of_window hwindow (Nat.sub_le _ _)
      have hsum : first.length + rest.flatten.length = n := by
        rw [← hlength, ← hflat, List.flatten_cons, List.length_append]
      refine ⟨n, before ++ [missing ++ first], rest, hlow, by omega, by omega, ?_, htail _ ?_,
        by omega, fun hle => absurd hle hall, ?_⟩
      · rw [hlog, List.append_assoc]
        rfl
      · rw [if_pos hstart, ← hflat]
        exact drop_first_line hlines
      · intro before' l heq
        obtain ⟨-, hl⟩ := List.append_inj' heq rfl
        obtain rfl := List.singleton_inj.mp hl
        simp only [List.length_append]
        omega

end DonutServer.Dashboard
