/-
How much of a caller's text a list of overrides keeps.

What is counted against the bound are the characters of a field and of its value, and the bytes
of a text.  What the count leaves out are the further bytes of those characters, and names.
-/
import DonutServer.Overrides.Parse

namespace DonutServer.Overrides

open PyText

/-! ### What a caller supplies

Everything here is read off the body as it came in, before any of it is checked.  So what is
counted and what is left out are functions of the caller's own strings, and the bound can be
compared with them without asking what the parser made of the list.
-/

/-- The list that a body holds. -/
def specOf (body : List (CodePoints × Json)) : List Json :=
  match Json.get body "config_overrides" with
  | some (.array spec) => spec
  | _ => []

/-- The string under a key of an entry. -/
def str (entry : Json) (key : String) : CodePoints :=
  match entry with
  | .object members =>
      match Json.get members key with
      | some (.string s) => s
      | _ => []
  | _ => []

/-- The entry is an assignment, as its kind says. -/
def isValue (entry : Json) : Bool := str entry "kind" = ofString "value"

/-- What an entry counts against the bound. -/
def counted (entry : Json) : Nat :=
  if isValue entry then (str entry "field").length + (str entry "value").length
  else utf8Length (str entry "text")

/-- How many bytes a text has more than characters. -/
def surplus (s : CodePoints) : Nat := utf8Length s - s.length

/-- What an entry holds besides, in bytes. -/
def uncounted (entry : Json) : Nat :=
  if isValue entry then surplus (str entry "field") + surplus (str entry "value")
  else utf8Length (str entry "name")

/-- The bytes of a caller's strings that are kept of an entry: a name that was not given is not
the caller's. -/
def keptBytes (entry : Json) : Entry → Nat
  | .value field v => utf8Length field + utf8Length v
  | .python name text => utf8Length text + if str entry "name" = [] then 0 else utf8Length name

/-- The same, of a list. -/
def retainedBytes (spec : List Json) (out : List Entry) : Nat :=
  ((spec.zip out).map fun p => keptBytes p.1 p.2).sum

variable {body members : List (CodePoints × Json)} {entry : Json} {kept : Entry} {size total : Nat}
  {spec : List Json} {out : List Entry}

/-- A text has at least as many bytes as characters, -/
theorem length_le_utf8Length (s : CodePoints) : s.length ≤ utf8Length s := by
  unfold utf8Length
  induction s with
  | nil => exact Nat.le_refl 0
  | cons c s ih =>
      have hwidth : 1 ≤ width c := by
        unfold width
        split_ifs <;> omega
      rw [List.map_cons, List.sum_cons, List.length_cons]
      omega

/-- and its surplus is how many more. -/
theorem length_add_surplus (s : CodePoints) : s.length + surplus s = utf8Length s :=
  Nat.add_sub_of_le (length_le_utf8Length s)

theorem str_eq {key : String} {s : CodePoints} (h : Json.get members key = some (.string s)) :
    str (.object members) key = s := by
  unfold str
  dsimp only
  rw [h]

theorem fileName_str (h : str (.object members) "name" ≠ []) :
    fileName (Json.get members "name") = str (.object members) "name" := by
  unfold str at h ⊢
  dsimp only at h ⊢
  split at h
  next s hs =>
    rw [hs]
    exact if_neg h
  next => exact absurd rfl h

/-- A round counts what it should count, and keeps what it does not count besides. -/
theorem Takes.size_eq (h : Takes entry kept size) :
    size = counted entry ∧ keptBytes entry kept = counted entry + uncounted entry := by
  obtain ⟨hreads, hcounts⟩ := h
  unfold counted uncounted isValue
  cases hreads with
  | value members field v hkind hfield hvalue =>
      have hsame : decide (ofString "value" = ofString "value") = true := decide_eq_true rfl
      rw [str_eq hkind, str_eq hfield, str_eq hvalue, hsame, if_pos rfl, if_pos rfl]
      refine ⟨hcounts.2, ?_⟩
      have hf := length_add_surplus field
      have hv := length_add_surplus v
      show utf8Length field + utf8Length v = _
      omega
  | python members text hkind htext hname =>
      have hother : decide (ofString "python" = ofString "value") = false := by decide
      rw [str_eq hkind, str_eq htext, hother, if_neg (by simp), if_neg (by simp)]
      refine ⟨hcounts.2.1, congrArg (utf8Length text + ·) ?_⟩
      split
      next hempty => rw [hempty]; rfl
      next hgiven => rw [fileName_str hgiven]

/-- A list that is taken counts no more than the bound. -/
theorem TakesAll.counted_le (h : TakesAll total spec out) (hspec : spec ≠ []) :
    total + (spec.map counted).sum ≤ maxOverrideTotalBytes := by
  induction h with
  | nil => exact absurd rfl hspec
  | cons htakes hfits hrest ih =>
      rw [List.map_cons, List.sum_cons, ← htakes.size_eq.1, ← Nat.add_assoc]
      cases hrest with
      | nil => exact hfits
      | cons => exact ih (by simp)

/-- What is kept of it is what was counted and what was not. -/
theorem TakesAll.retained_eq (h : TakesAll total spec out) :
    retainedBytes spec out = (spec.map counted).sum + (spec.map uncounted).sum := by
  unfold retainedBytes
  induction h with
  | nil => rfl
  | cons htakes _ _ ih =>
      rw [List.zip_cons_cons, List.map_cons, List.map_cons, List.map_cons, List.sum_cons,
        List.sum_cons, List.sum_cons, ih, htakes.size_eq.2]
      omega

/-- A list that was parsed was taken, entry by entry. -/
theorem takesAll_of_parse (h : parseOverrides body = .ok out) : TakesAll 0 (specOf body) out := by
  unfold parseOverrides at h
  unfold specOf
  split at h
  next hnone =>
    rw [hnone, ← Except.ok.inj h]
    exact .nil 0
  next hnull =>
    rw [hnull, ← Except.ok.inj h]
    exact .nil 0
  next spec hspec =>
    rw [hspec]
    split at h
    next => exact absurd h (by simp [badRequest])
    next => exact parseFrom_ok.mp h
  next => exact absurd h (by simp [badRequest])

/-- **The bound is real just where what the count leaves out still fits below it.** -/
theorem override_bytes_bounded (h : parseOverrides body = .ok out) :
    retainedBytes (specOf body) out ≤ maxOverrideTotalBytes ↔
      ((specOf body).map uncounted).sum ≤
        maxOverrideTotalBytes - ((specOf body).map counted).sum := by
  have htakes := takesAll_of_parse h
  rw [htakes.retained_eq]
  by_cases hspec : specOf body = []
  · rw [hspec]
    exact ⟨fun _ => Nat.zero_le _, fun _ => Nat.zero_le _⟩
  · have hcounted := htakes.counted_le hspec
    omega

/-- A body with one assignment. -/
def assignment (field v : CodePoints) : List (CodePoints × Json) :=
  bodyOf [.value field v]

theorem parse_assignment {field v : CodePoints} (hblank : isBlankText field = false)
    (hfits : field.length + v.length ≤ maxOverrideTotalBytes) :
    parseOverrides (assignment field v) = .ok [.value field v] := by
  have htakes : Takes (Entry.value field v).toJson (.value field v) (field.length + v.length) :=
    ⟨.value _ field v rfl rfl rfl, hblank, rfl⟩
  unfold parseOverrides assignment
  rw [get_bodyOf]
  dsimp only
  rw [if_neg (by simp [maxOverrides])]
  exact parseFrom_ok.mpr (.cons htakes (by omega) (.nil _))

theorem override_bytes_bounded_ascii :
    retainedBytes (specOf (assignment (ofString "maxFitScatter") (ofString "2.0")))
      [.value (ofString "maxFitScatter") (ofString "2.0")] ≤ maxOverrideTotalBytes :=
  (override_bytes_bounded (parse_assignment (by decide) (by decide))).mpr (by decide)

/-- Characters of two bytes each, as many as the bound counts. -/
theorem accents_exceed_bound : ∃ body out, parseOverrides body = .ok out ∧
    ¬ retainedBytes (specOf body) out ≤ maxOverrideTotalBytes := by
  have hbytes : ∀ n, utf8Length (List.replicate n 0xe9) = n * 2 := by
    intro n
    unfold utf8Length
    rw [List.map_replicate, List.sum_replicate_nat]
    rfl
  have hall : ∀ n, 1 + n ≤ maxOverrideTotalBytes → maxOverrideTotalBytes < 1 + n * 2 →
      ∃ body out, parseOverrides body = .ok out ∧
        ¬ retainedBytes (specOf body) out ≤ maxOverrideTotalBytes := by
    intro n hfits hover
    refine ⟨assignment [0x78] (List.replicate n 0xe9), _, parse_assignment (by decide) ?_, ?_⟩
    · rw [List.length_replicate]
      exact hfits
    · show ¬ (utf8Length [0x78] + utf8Length (List.replicate n 0xe9) + 0 ≤ maxOverrideTotalBytes)
      rw [hbytes]
      exact Nat.not_le_of_lt hover
  exact hall 1048575 (by decide) (by decide)

end DonutServer.Overrides
