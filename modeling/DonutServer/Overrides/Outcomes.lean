/-
What can come of a list of overrides.

It is refused, or it is kept in a normal form that can be echoed.  A lone surrogate spoils
both: in a text it cannot be measured, and in a field, a value or a name it is kept and cannot
be echoed.

That the form is normal means that the validator, given what it has made of a list, gives it back.
A list that was checked once can be checked again, and comes to nothing else.
-/
import DonutServer.Overrides.Bound

namespace DonutServer.Overrides

open PyText

/-- **The validator has two outcomes**: a refusal with 400, or a normalized list which it leaves
as it is, and whose digest is JSON that has UTF-8 bytes. -/
def TwoOutcomes (sha256 : Utf8 → String) (body : List (CodePoints × Json)) : Prop :=
  (∃ detail, parseOverrides body = .error (.httpException 400 detail)) ∨
  ∃ out, parseOverrides body = .ok out ∧ parseOverrides (bodyOf out) = .ok out ∧
    ∃ digest, digestOverrides sha256 out = .ok digest ∧ ∃ data, encode digest.dumps = some data

/-- A string of the entry that is echoed as it is holds a surrogate. -/
def echoesSurrogate (entry : Json) : Bool :=
  if isValue entry then
    (str entry "field").any isSurrogate || (str entry "value").any isSurrogate
  else (str entry "name").any isSurrogate

/-- The same, of what is kept. -/
def Entry.echoesSurrogate : Entry → Bool
  | .value field v => field.any isSurrogate || v.any isSurrogate
  | .python name _ => name.any isSurrogate

variable {body members : List (CodePoints × Json)} {entry : Json} {kept : Entry} {size total : Nat}
  {spec : List Json} {out : List Entry} {sha256 : Utf8 → String}

/-! ### The normal form

What is kept of an entry is an entry again, with every name filled in, and each check that it
passed it passes once more.
-/

theorem fileName_ne_nil (name : Option Json) : fileName name ≠ [] := by
  have hdefault : ofString "<override>" ≠ [] := by decide
  unfold fileName
  split
  next s =>
    split
    next => exact hdefault
    next hne => exact hne
  next => exact hdefault

/-- What was taken is taken again, and kept the same. -/
theorem Takes.again (h : Takes entry kept size) : Takes kept.toJson kept size := by
  obtain ⟨hreads, hcounts⟩ := h
  refine ⟨?_, hcounts⟩
  cases hreads with
  | value members field v => exact .value _ field v rfl rfl rfl
  | python members text =>
      have hname : fileName (some (.string (fileName (Json.get members "name")))) =
          fileName (Json.get members "name") := if_neg (fileName_ne_nil _)
      have hreads : Reads (Entry.python (fileName (Json.get members "name")) text).toJson
          (.python (fileName (some (.string (fileName (Json.get members "name"))))) text) :=
        .python _ text rfl rfl fun v hv => Or.inr ⟨_, (Option.some.inj hv).symm⟩
      rwa [hname] at hreads

theorem TakesAll.again (h : TakesAll total spec out) :
    TakesAll total (out.map Entry.toJson) out := by
  induction h with
  | nil total => exact .nil total
  | cons htakes hfits _ ih => exact .cons htakes.again hfits ih

/-- As many entries are kept as there were. -/
theorem TakesAll.length_eq (h : TakesAll total spec out) : out.length = spec.length := by
  induction h with
  | nil => rfl
  | cons _ _ _ ih => exact congrArg (· + 1) ih

theorem parse_bodyOf (h : TakesAll 0 spec out) (hfew : spec.length ≤ maxOverrides) :
    parseOverrides (bodyOf out) = .ok out := by
  unfold parseOverrides
  rw [get_bodyOf]
  dsimp only
  rw [List.length_map, h.length_eq, if_neg (Nat.not_lt.mpr hfew)]
  exact h.again.parse 0

/-! ### The digest

A digest repeats the fields, the values and the names, and of a text only how long it is and what
it hashes to.  So the strings of an entry that are echoed are all but its text, and they are the
ones that were sent.
-/

theorem digestEntry_eq (h : Takes entry kept size) :
    ∃ j, digestEntry sha256 kept = .ok j ∧ j.anySurrogate = kept.echoesSurrogate := by
  obtain ⟨hreads, hcounts⟩ := h
  cases hreads with
  | value members field v =>
      refine ⟨_, rfl, ?_⟩
      simp only [Entry.toJson, Json.anySurrogate, Json.anySurrogateMember, any_ofString,
        Bool.or_false, Bool.false_or, Entry.echoesSurrogate]
  | python members text =>
      have hencode : encode text = some (text.flatMap encodePoint) := by
        unfold encode
        rw [hcounts.1]
        rfl
      unfold digestEntry
      dsimp only
      rw [hencode]
      refine ⟨_, rfl, ?_⟩
      rw [if_neg (fileName_ne_nil _)]
      simp only [Json.anySurrogate, Json.anySurrogateMember, any_ofString, Bool.or_false,
        Bool.false_or, Entry.echoesSurrogate]

theorem digestOverrides_eq (h : TakesAll total spec out) :
    ∃ digest, digestOverrides sha256 out = .ok digest ∧
      digest.anySurrogate = out.any Entry.echoesSurrogate := by
  have hitems : ∃ items, out.mapM (digestEntry sha256) = .ok items ∧
      Json.anySurrogateItem items = out.any Entry.echoesSurrogate := by
    induction h with
    | nil => exact ⟨[], rfl, rfl⟩
    | cons htakes _ _ ih =>
        obtain ⟨j, hj, hsurrogate⟩ : ∃ j, digestEntry sha256 _ = .ok j ∧ _ := digestEntry_eq htakes
        obtain ⟨items, hitems, hrest⟩ := ih
        refine ⟨j :: items, ?_, ?_⟩
        · rw [List.mapM_cons, hj, hitems]
          rfl
        · rw [List.any_cons, ← hsurrogate, ← hrest]
          rfl
  obtain ⟨items, hitems, hsurrogate⟩ := hitems
  refine ⟨.array items, ?_, hsurrogate⟩
  unfold digestOverrides
  rw [hitems]
  rfl

/-- What is echoed of an entry comes from the entry. -/
theorem Takes.echoes (h : Takes entry kept size) :
    kept.echoesSurrogate = Overrides.echoesSurrogate entry := by
  obtain ⟨hreads, -⟩ := h
  unfold Overrides.echoesSurrogate isValue
  cases hreads with
  | value members field v hkind hfield hvalue =>
      have hsame : decide (ofString "value" = ofString "value") = true := decide_eq_true rfl
      rw [str_eq hkind, str_eq hfield, str_eq hvalue, hsame, if_pos rfl]
      rfl
  | python members text hkind htext hname =>
      have hother : decide (ofString "python" = ofString "value") = false := by decide
      rw [str_eq hkind, hother, if_neg (by simp)]
      show (fileName (Json.get members "name")).any isSurrogate = _
      by_cases hgiven : str (.object members) "name" = []
      · have hdefault : fileName (Json.get members "name") = ofString "<override>" := by
          unfold str at hgiven
          dsimp only at hgiven
          unfold fileName
          split
          next s hs =>
            rw [hs] at hgiven
            exact if_pos hgiven
          next => rfl
        rw [hgiven, hdefault]
        exact any_ofString _
      · rw [fileName_str hgiven]

theorem TakesAll.echoes (h : TakesAll total spec out) :
    out.any Entry.echoesSurrogate = spec.any Overrides.echoesSurrogate := by
  induction h with
  | nil => rfl
  | cons htakes _ _ ih => rw [List.any_cons, List.any_cons, htakes.echoes, ih]

/-! ### The outcomes

A list that is read is the body's own, so both conditions can be put on the body: of each text the
loop comes to, that it can be measured, and of each string that is echoed, that it can be encoded.
-/

/-- Where a list is read, it is the list that the body holds, and not too long. -/
theorem parseOverrides_cases (body : List (CodePoints × Json)) :
    (∃ detail, parseOverrides body = badRequest detail) ∧
        (specOf body = [] ∨ maxOverrides < (specOf body).length) ∨
      parseOverrides body = parseFrom 0 0 (specOf body) ∧ (specOf body).length ≤ maxOverrides := by
  unfold parseOverrides specOf
  split
  next h => rw [h]; exact Or.inr ⟨rfl, Nat.zero_le _⟩
  next h => rw [h]; exact Or.inr ⟨rfl, Nat.zero_le _⟩
  next spec h =>
    rw [h]
    dsimp only
    by_cases hmany : maxOverrides < spec.length
    · rw [if_pos hmany]
      exact Or.inl ⟨⟨_, rfl⟩, Or.inr hmany⟩
    · rw [if_neg hmany]
      exact Or.inr ⟨rfl, Nat.le_of_not_lt hmany⟩
  next v hnull harray h =>
    refine Or.inl ⟨⟨_, rfl⟩, Or.inl ?_⟩
    rw [h]
    split
    next spec hspec => exact absurd (Option.some.inj hspec) (harray spec)
    next => rfl

/-- **The validator has two outcomes just where no surrogate gets in the way**: in a list that is
not too long, of none of whose texts the loop comes to one that holds a surrogate, and which,
if it is taken, has no surrogates in a field, a value or a name. -/
theorem two_outcomes (sha256 : Utf8 → String) (body : List (CodePoints × Json)) :
    TwoOutcomes sha256 body ↔ ((specOf body).length ≤ maxOverrides →
      ¬ StumblesIn 0 (specOf body) ∧ ∀ out, TakesAll 0 (specOf body) out →
        ∀ entry ∈ specOf body, echoesSurrogate entry = false) := by
  rcases parseOverrides_cases body with ⟨⟨detail, hrefused⟩, hspec⟩ | ⟨hread, hfew⟩
  · refine iff_of_true (Or.inl ⟨detail, hrefused⟩) fun hfew => ?_
    rcases hspec with hempty | hmany
    · rw [hempty]
      refine ⟨fun h => ?_, fun out _ entry hentry => absurd hentry List.not_mem_nil⟩
      obtain ⟨front, entry, back, out, hnil, -⟩ := h
      exact absurd hnil (by simp)
    · exact absurd hfew (Nat.not_le_of_lt hmany)
  rcases parseFrom_cases 0 0 (specOf body) with ⟨detail, hrefused⟩ | hstumbles | ⟨out, htakes⟩
  · refine iff_of_true (Or.inl ⟨detail, hread.trans hrefused⟩) fun _ => ⟨fun h => ?_, fun out h => ?_⟩
    · obtain ⟨message, hmessage⟩ := h.parse 0
      exact absurd (hrefused.symm.trans hmessage) (by simp [badRequest])
    · exact absurd (hrefused.symm.trans (h.parse 0)) (by simp [badRequest])
  · refine iff_of_false (fun h => ?_) fun h => (h hfew).1 hstumbles
    obtain ⟨message, hmessage⟩ := hstumbles.parse 0
    rw [← hread] at hmessage
    rcases h with ⟨detail, hrefused⟩ | ⟨out, hout, -⟩
    · exact absurd (hrefused.symm.trans hmessage) (by simp)
    · exact absurd (hout.symm.trans hmessage) (by simp)
  · have hout : parseOverrides body = .ok out := hread.trans (htakes.parse 0)
    obtain ⟨digest, hdigest, hsurrogate⟩ : ∃ digest, digestOverrides sha256 out = .ok digest ∧ _ :=
      digestOverrides_eq htakes
    rw [htakes.echoes] at hsurrogate
    constructor
    · intro h _
      refine ⟨fun hstumbles => ?_, fun _ _ entry hentry => ?_⟩
      · obtain ⟨message, hmessage⟩ := hstumbles.parse 0
        exact absurd ((htakes.parse 0).symm.trans hmessage) (by simp)
      · rcases h with ⟨detail, hrefused⟩ | ⟨out', hout', -, digest', hdigest', hencodes⟩
        · exact absurd (hout.symm.trans hrefused) (by simp)
        · obtain rfl := Except.ok.inj (hout.symm.trans hout')
          obtain rfl := Except.ok.inj (hdigest.symm.trans hdigest')
          rw [Json.encode_dumps, hsurrogate] at hencodes
          exact Bool.not_eq_true _ ▸ List.any_eq_false.mp hencodes entry hentry
    · intro h
      refine Or.inr ⟨out, hout, parse_bodyOf htakes hfew, digest, hdigest, ?_⟩
      rw [Json.encode_dumps, hsurrogate, List.any_eq_false]
      intro entry hentry
      rw [(h hfew).2 out htakes entry hentry]
      simp

/-- A text that is half of a surrogate pair is neither taken nor refused, and a field that holds
one is taken and cannot be echoed. -/
theorem surrogate_is_third_outcome :
    (¬ ∃ sha256, TwoOutcomes sha256 (bodyOf [.python (ofString "override.py") [0xd800]])) ∧
      ¬ ∃ sha256, TwoOutcomes sha256 (assignment [0xd800] (ofString "1")) := by
  constructor
  · have hstumbles : StumblesIn 0 [(Entry.python (ofString "override.py") [0xd800]).toJson] :=
      ⟨[], _, [], [], rfl, .nil 0, _, [0xd800],
        .python _ [0xd800] rfl rfl fun v hv => Or.inr ⟨_, (Option.some.inj hv).symm⟩, rfl⟩
    obtain ⟨message, hmessage⟩ := hstumbles.parse 0
    have hraises : parseOverrides (bodyOf [.python (ofString "override.py") [0xd800]]) =
        .error (.unicodeEncodeError message) := hmessage
    intro h
    obtain ⟨sha256, ⟨detail, hrefused⟩ | ⟨out, hout, -⟩⟩ := h
    · exact absurd (hraises.symm.trans hrefused) (by simp)
    · exact absurd (hraises.symm.trans hout) (by simp)
  · intro h
    have hparse : parseOverrides (assignment [0xd800] (ofString "1")) =
        .ok [.value [0xd800] (ofString "1")] := parse_assignment (by decide) (by decide)
    obtain ⟨sha256, ⟨detail, hrefused⟩ | ⟨out, hout, -, digest, hdigest, hencodes⟩⟩ := h
    · exact absurd (hparse.symm.trans hrefused) (by simp)
    · obtain rfl := Except.ok.inj (hparse.symm.trans hout)
      obtain rfl := Except.ok.inj hdigest
      rw [Json.encode_dumps] at hencodes
      exact absurd hencodes (by decide)

end DonutServer.Overrides
