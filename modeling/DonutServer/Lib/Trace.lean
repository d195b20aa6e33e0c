/-
Traces in which everything has its grounds in what came before it.

The relation is between an event and the whole of what came before it.  So it is kept when a trace
is cut short, and a trace is grounded as soon as each new event is, when it is added at the end.
-/
import Mathlib.Data.List.Infix
import Mathlib.Tactic.Common

namespace Trace

variable {α : Type} {P : List α → α → Prop}

/-- After `done`, each event of the trace stands in `P` to all that came before it. -/
def Grounded (P : List α → α → Prop) : List α → List α → Prop
  | _, [] => True
  | done, e :: rest => P done e ∧ Grounded P (done ++ [e]) rest

theorem grounded_append {done trace trace' : List α} :
    Grounded P done (trace ++ trace') ↔
      Grounded P done trace ∧ Grounded P (done ++ trace) trace' := by
  induction trace generalizing done with
  | nil =>
      rw [List.nil_append, List.append_nil]
      exact ⟨fun h => ⟨trivial, h⟩, fun h => h.2⟩
  | cons e rest ih =>
      show P done e ∧ Grounded P (done ++ [e]) (rest ++ trace') ↔
        (P done e ∧ Grounded P (done ++ [e]) rest) ∧ Grounded P (done ++ e :: rest) trace'
      rw [ih, List.append_assoc, List.singleton_append, and_assoc]

/-- Any one event of it, with what came before. -/
theorem Grounded.at {done before after : List α} {e : α}
    (h : Grounded P done (before ++ e :: after)) : P (done ++ before) e :=
  (grounded_append.mp h).2.1

/-- Cut short, it is grounded as far as it goes. -/
theorem Grounded.cut {done trace part : List α} (h : Grounded P done trace)
    (hpart : part <+: trace) : Grounded P done part := by
  obtain ⟨rest, rfl⟩ := hpart
  exact (grounded_append.mp h).1

end Trace
