/-
The override list of a prepare, from JSON to what is kept of it.

Validating looks at shapes only.  A text has to be encoded to be measured, and that is where a
list can be neither taken nor refused: a text that holds a surrogate has no bytes.
-/
import DonutServer.Lib.Json
import DonutServer.Lib.Result

namespace DonutServer.Overrides

open PyText

/-- `MAX_OVERRIDES`. -/
def maxOverrides : Nat := 64

/-- `MAX_OVERRIDE_TEXT_BYTES`. -/
def maxOverrideTextBytes : Nat := 256 * 1024

/-- `MAX_OVERRIDE_TOTAL_BYTES`. -/
def maxOverrideTotalBytes : Nat := 1024 * 1024

/-- `OVERRIDE_KINDS`. -/
def overrideKinds : List String := ["value", "python"]

/-- An entry of a normalized list: a `-c` assignment or a `-C` file. -/
inductive Entry
  | value (field value : CodePoints)
  | python (name text : CodePoints)
  deriving DecidableEq

/-- What a request handler may raise. -/
inductive Raised
  | httpException (status : Nat) (detail : String)
  | unicodeEncodeError (message : String)
  deriving DecidableEq

/-- `len(text.encode())`. -/
def encodedLength (text : CodePoints) : Except Raised Nat :=
  match encode text with
  | none => .error (.unicodeEncodeError (encodeErrorText text))
  | some data => .ok data.length

/-- `not field.strip()`. -/
def isBlankText (s : CodePoints) : Bool := s.all fun c => isSpace (Char.ofNat c.val)

/-- `name or "<override>"`. -/
def fileName : Option Json → CodePoints
  | some (.string name) => if name = [] then ofString "<override>" else name
  | _ => ofString "<override>"

/-- `HTTPException(400, ...)`. -/
def badRequest {α : Type} (detail : String) : Except Raised α := .error (.httpException 400 detail)

/-- An entry of kind `"value"`, and what it counts. -/
def parseValue (i : Nat) (members : List (CodePoints × Json)) : Except Raised (Entry × Nat) :=
  match Json.get members "field" with
  | some (.string field) =>
      if isBlankText field then
        badRequest s!"config_overrides[{i}].field must be a non-empty string"
      else
        match Json.get members "value" with
        | some (.string value) => .ok (.value field value, field.length + value.length)
        | value =>
            badRequest (s!"config_overrides[{i}].value must be a string (got " ++
              s!"{Json.typeName value}); send \"2.0\", not 2.0")
  | _ => badRequest s!"config_overrides[{i}].field must be a non-empty string"

/-- A text that is measured, under a name. -/
def measureText (i : Nat) (name text : CodePoints) : Except Raised (Entry × Nat) := do
  let size ← encodedLength text
  if maxOverrideTextBytes < size then
    badRequest (s!"config_overrides[{i}].text is {size} bytes, over the " ++
      s!"{maxOverrideTextBytes} byte limit")
  else pure (.python name text, size)

/-- An entry of kind `"python"`, and what it counts. -/
def parsePython (i : Nat) (members : List (CodePoints × Json)) : Except Raised (Entry × Nat) :=
  match Json.get members "text" with
  | some (.string text) =>
      let name := Json.get members "name"
      match name with
      | none | some .null | some (.string _) => measureText i (fileName name) text
      | _ => badRequest s!"config_overrides[{i}].name must be a string"
  | _ => badRequest s!"config_overrides[{i}].text must be a string"

/-- One round of the loop. -/
def parseEntry (i : Nat) : Json → Except Raised (Entry × Nat)
  | .object members =>
      let kind := Json.get members "kind"
      match kind with
      | some (.string s) =>
          if s = ofString "value" then parseValue i members
          else if s = ofString "python" then parsePython i members
          else badRequest (s!"config_overrides[{i}].kind must be one of " ++
            s!"{reprList overrideKinds}, got {reprPoints s}")
      | _ => badRequest (s!"config_overrides[{i}].kind must be one of " ++
          s!"{reprList overrideKinds}, got {(kind.getD .null).repr}")
  | _ => badRequest s!"config_overrides[{i}] must be an object"

/-- The loop, from entry `i` on, with what was counted so far. -/
def parseFrom (i total : Nat) : List Json → Except Raised (List Entry)
  | [] => .ok []
  | entry :: rest => do
      let (kept, size) ← parseEntry i entry
      if maxOverrideTotalBytes < total + size then
        badRequest s!"config_overrides total exceeds {maxOverrideTotalBytes} bytes"
      else
        let out ← parseFrom (i + 1) (total + size) rest
        pure (kept :: out)

/-- `_parse_overrides`. -/
def parseOverrides (body : List (CodePoints × Json)) : Except Raised (List Entry) :=
  match Json.get body "config_overrides" with
  | none | some .null => .ok []
  | some (.array spec) =>
      if maxOverrides < spec.length then
        badRequest s!"too many config_overrides (max {maxOverrides})"
      else parseFrom 0 0 spec
  | some _ => badRequest "config_overrides must be a list"

/-! ### What is made of a list

What is kept of a list goes to the coordinator with the prepare.  What is shown of it is a digest,
in which a text is replaced by its hash and how many lines it has.
-/

/-- A normalized entry, as the dict it is. -/
def Entry.toJson : Entry → Json
  | .value field v => .object [(ofString "kind", .string (ofString "value")),
      (ofString "field", .string field), (ofString "value", .string v)]
  | .python name text => .object [(ofString "kind", .string (ofString "python")),
      (ofString "name", .string name), (ofString "text", .string text)]

/-- A body whose overrides are a normalized list. -/
def bodyOf (out : List Entry) : List (CodePoints × Json) :=
  [(ofString "config_overrides", .array (out.map Entry.toJson))]

theorem get_bodyOf (out : List Entry) :
    Json.get (bodyOf out) "config_overrides" = some (.array (out.map Entry.toJson)) := rfl

/-- How many lines a text has. -/
def lineCount (text : CodePoints) : Nat :=
  text.count newline + if text.getLast? = some newline ∨ text = [] then 0 else 1

/-- What is echoed of an entry, with `sha256` the digest of bytes in hexadecimal. -/
def digestEntry (sha256 : Utf8 → String) : Entry → Except Raised Json
  | .value field v => .ok (Entry.value field v).toJson
  | .python name text =>
      match encode text with
      | none => .error (.unicodeEncodeError (encodeErrorText text))
      | some data =>
          .ok (.object [(ofString "kind", .string (ofString "python")),
            (ofString "name", .string (if name = [] then ofString "<override>" else name)),
            (ofString "lines", .number false (toString (lineCount text))),
            (ofString "bytes", .number false (toString data.length)),
            (ofString "sha256", .string (ofString (String.ofList ((sha256 data).toList.take 12))))])

/-- `_digest_overrides`, of a normalized list. -/
def digestOverrides (sha256 : Utf8 → String) (out : List Entry) : Except Raised Json := do
  let digest ← out.mapM (digestEntry sha256)
  pure (.array digest)

/-! ### What one round can do

A round has three ends, and everything later is read off them: the entry is refused, or its text
cannot be measured, or it is taken and so much is counted.  Each is a relation between an entry and
what comes of it, so that the parser itself is unfolded here and nowhere else.
-/

/-- What is kept of an entry, read off its members. -/
inductive Reads : Json → Entry → Prop
  | value (members : List (CodePoints × Json)) (field v : CodePoints)
      (hkind : Json.get members "kind" = some (.string (ofString "value")))
      (hfield : Json.get members "field" = some (.string field))
      (hvalue : Json.get members "value" = some (.string v)) :
      Reads (.object members) (.value field v)
  | python (members : List (CodePoints × Json)) (text : CodePoints)
      (hkind : Json.get members "kind" = some (.string (ofString "python")))
      (htext : Json.get members "text" = some (.string text))
      (hname : ∀ v, Json.get members "name" = some v → v = .null ∨ ∃ s, v = .string s) :
      Reads (.object members) (.python (fileName (Json.get members "name")) text)

/-- What a round counts of what it keeps, where it keeps it. -/
def Entry.Counts : Entry → Nat → Prop
  | .value field v, size => isBlankText field = false ∧ size = field.length + v.length
  | .python _ text, size =>
      text.any isSurrogate = false ∧ size = utf8Length text ∧ size ≤ maxOverrideTextBytes

/-- A round takes this entry. -/
def Takes (entry : Json) (kept : Entry) (size : Nat) : Prop := Reads entry kept ∧ kept.Counts size

/-- A round fails on the text of this entry. -/
def Stumbles (entry : Json) : Prop :=
  ∃ name text, Reads entry (.python name text) ∧ text.any isSurrogate = true

variable {i : Nat} {members : List (CodePoints × Json)} {entry : Json} {kept : Entry} {size : Nat}
  {text : CodePoints}

theorem encodedLength_eq (text : CodePoints) : encodedLength text =
    if text.any isSurrogate then .error (.unicodeEncodeError (encodeErrorText text))
    else .ok (utf8Length text) := by
  unfold encodedLength encode
  rw [← length_encodePoints]
  cases text.any isSurrogate <;> rfl

theorem parsePython_eq (htext : Json.get members "text" = some (.string text))
    (hname : ∀ v, Json.get members "name" = some v → v = .null ∨ ∃ s, v = .string s) :
    parsePython i members = measureText i (fileName (Json.get members "name")) text := by
  unfold parsePython
  rw [htext]
  dsimp only
  cases h : Json.get members "name" with
  | none => rfl
  | some v =>
      rcases hname v h with rfl | ⟨s, rfl⟩
      · rfl
      · rfl

theorem parseEntry_value (hkind : Json.get members "kind" = some (.string (ofString "value"))) :
    parseEntry i (.object members) = parseValue i members := by
  unfold parseEntry
  dsimp only
  rw [hkind]
  exact if_pos rfl

theorem parseEntry_python (hkind : Json.get members "kind" = some (.string (ofString "python"))) :
    parseEntry i (.object members) = parsePython i members := by
  unfold parseEntry
  dsimp only
  rw [hkind]
  exact (if_neg (by decide)).trans (if_pos rfl)

/-- An entry that is taken is taken. -/
theorem Takes.parse (h : Takes entry kept size) : parseEntry i entry = .ok (kept, size) := by
  obtain ⟨hreads, hcounts⟩ := h
  cases hreads with
  | value members field v hkind hfield hvalue =>
      obtain ⟨hblank, rfl⟩ := hcounts
      rw [parseEntry_value hkind, parseValue, hfield]
      dsimp only
      rw [hblank, if_neg (by simp), hvalue]
  | python members text hkind htext hname =>
      obtain ⟨hclean, rfl, hfits⟩ := hcounts
      rw [parseEntry_python hkind, parsePython_eq htext hname, measureText, encodedLength_eq, hclean,
        if_neg (by simp)]
      exact if_neg (Nat.not_lt.mpr hfits)

/-- A text that cannot be encoded is not refused. -/
theorem Stumbles.parse (h : Stumbles entry) :
    ∃ message, parseEntry i entry = .error (.unicodeEncodeError message) := by
  obtain ⟨name, text, hreads, hsurrogate⟩ := h
  cases hreads with
  | python members text hkind htext hname =>
      rw [parseEntry_python hkind, parsePython_eq htext hname, measureText, encodedLength_eq, hsurrogate,
        if_pos rfl]
      exact ⟨_, rfl⟩

/-- A value entry is refused or taken. -/
theorem parseValue_cases (hkind : Json.get members "kind" = some (.string (ofString "value"))) :
    (∃ detail, parseValue i members = badRequest detail) ∨
      ∃ kept size, Takes (.object members) kept size := by
  unfold parseValue
  split
  next field hfield =>
    split
    next => exact Or.inl ⟨_, rfl⟩
    next hblank =>
      split
      next v hv =>
        refine Or.inr ⟨_, _, .value members field v hkind hfield hv, ?_, rfl⟩
        exact Bool.not_eq_true _ ▸ hblank
      next => exact Or.inl ⟨_, rfl⟩
  next => exact Or.inl ⟨_, rfl⟩

/-- The text is measured only where the name would do. -/
theorem parsePython_cases (hkind : Json.get members "kind" = some (.string (ofString "python"))) :
    (∃ detail, parsePython i members = badRequest detail) ∨ Stumbles (.object members) ∨
      ∃ kept size, Takes (.object members) kept size := by
  by_cases htext : ∃ text, Json.get members "text" = some (.string text)
  · obtain ⟨text, htext⟩ := htext
    by_cases hname : ∀ v, Json.get members "name" = some v → v = .null ∨ ∃ s, v = .string s
    · have hreads : Reads (.object members) _ := .python members text hkind htext hname
      rw [parsePython_eq htext hname, measureText, encodedLength_eq]
      cases hsurrogate : text.any isSurrogate with
      | true => exact Or.inr (Or.inl ⟨_, text, hreads, hsurrogate⟩)
      | false =>
          rw [if_neg (by simp)]
          by_cases hlong : maxOverrideTextBytes < utf8Length text
          · exact Or.inl ⟨_, if_pos hlong⟩
          · exact Or.inr (Or.inr ⟨_, _, hreads, hsurrogate, rfl, Nat.le_of_not_lt hlong⟩)
    · left
      push Not at hname
      obtain ⟨v, hv, hnull, hstring⟩ := hname
      unfold parsePython
      rw [htext]
      dsimp only
      rw [hv]
      cases v with
      | null => exact absurd rfl hnull
      | string s => exact absurd rfl (hstring s)
      | _ => exact ⟨_, rfl⟩
  · left
    unfold parsePython
    split
    next text h => exact absurd ⟨text, h⟩ htext
    next => exact ⟨_, rfl⟩

/-- **A round refuses an entry, or fails on its text, or takes it.** -/
theorem parseEntry_cases (i : Nat) (entry : Json) :
    (∃ detail, parseEntry i entry = badRequest detail) ∨ Stumbles entry ∨
      ∃ kept size, Takes entry kept size := by
  cases entry with
  | object members =>
      by_cases hvalue : Json.get members "kind" = some (.string (ofString "value"))
      · rw [parseEntry_value hvalue]
        exact (parseValue_cases hvalue).imp_right Or.inr
      by_cases hpython : Json.get members "kind" = some (.string (ofString "python"))
      · rw [parseEntry_python hpython]
        exact parsePython_cases hpython
      · left
        unfold parseEntry
        dsimp only
        split
        next s hs =>
          rw [hs] at hvalue hpython
          rw [if_neg fun h => hvalue (by rw [h]), if_neg fun h => hpython (by rw [h])]
          exact ⟨_, rfl⟩
        next => exact ⟨_, rfl⟩
  | _ => exact Or.inl ⟨_, rfl⟩

/-! ### What the loop can do

The loop stops at the first entry that is not taken.  So what it comes to is that entry's doing and
the count's, and there is a lemma for the list that gets through and one for the place where
another stops.
-/

/-- The loop takes a list, with so much counted before. -/
inductive TakesAll : Nat → List Json → List Entry → Prop
  | nil (total : Nat) : TakesAll total [] []
  | cons {total size : Nat} {entry : Json} {kept : Entry} {rest : List Json} {out : List Entry} :
      Takes entry kept size → total + size ≤ maxOverrideTotalBytes →
      TakesAll (total + size) rest out → TakesAll total (entry :: rest) (kept :: out)

/-- The loop takes what stands before an entry, and fails on its text. -/
def StumblesIn (total : Nat) (spec : List Json) : Prop :=
  ∃ front entry back out, spec = front ++ entry :: back ∧ TakesAll total front out ∧ Stumbles entry

variable {total : Nat} {spec rest : List Json} {out : List Entry}

/-- A list that is taken is returned. -/
theorem TakesAll.parse (h : TakesAll total spec out) (i : Nat) :
    parseFrom i total spec = .ok out := by
  induction h generalizing i with
  | nil => rfl
  | cons htakes hfits _ ih =>
      unfold parseFrom
      rw [htakes.parse]
      refine (if_neg (Nat.not_lt.mpr hfits)).trans ?_
      rw [ih (i + 1)]
      rfl

theorem parseFrom_append {front : List Json} (h : TakesAll total front out) {entry : Json}
    {back : List Json} (hentry : Stumbles entry) (i : Nat) :
    ∃ message, parseFrom i total (front ++ entry :: back) = .error (.unicodeEncodeError message) := by
  induction h generalizing i with
  | nil total =>
      obtain ⟨message, hmessage⟩ := hentry.parse (i := i)
      refine ⟨message, ?_⟩
      rw [List.nil_append]
      unfold parseFrom
      rw [hmessage]
      rfl
  | cons htakes hfits _ ih =>
      obtain ⟨message, hmessage⟩ := ih (i + 1)
      refine ⟨message, ?_⟩
      rw [List.cons_append]
      unfold parseFrom
      rw [htakes.parse]
      refine (if_neg (Nat.not_lt.mpr hfits)).trans ?_
      rw [hmessage]
      rfl

/-- A list with a text in it that cannot be measured comes to an exception. -/
theorem StumblesIn.parse (h : StumblesIn total spec) (i : Nat) :
    ∃ message, parseFrom i total spec = .error (.unicodeEncodeError message) := by
  obtain ⟨front, entry, back, out, rfl, hfront, hentry⟩ := h
  exact parseFrom_append hfront hentry i

/-- **The loop refuses a list, or fails on a text in it, or takes it.** -/
theorem parseFrom_cases (i total : Nat) (spec : List Json) :
    (∃ detail, parseFrom i total spec = badRequest detail) ∨ StumblesIn total spec ∨
      ∃ out, TakesAll total spec out := by
  induction spec generalizing i total with
  | nil => exact Or.inr (Or.inr ⟨[], .nil total⟩)
  | cons entry rest ih =>
      rcases parseEntry_cases i entry with ⟨detail, hrefused⟩ | hstumbles | ⟨kept, size, htakes⟩
      · left
        refine ⟨detail, ?_⟩
        unfold parseFrom
        rw [hrefused]
        rfl
      · exact Or.inr (Or.inl ⟨[], entry, rest, [], rfl, .nil total, hstumbles⟩)
      by_cases hfits : total + size ≤ maxOverrideTotalBytes
      · rcases ih (i + 1) (total + size) with ⟨detail, hrefused⟩ | hstumbles | ⟨out, hrest⟩
        · left
          refine ⟨detail, ?_⟩
          unfold parseFrom
          rw [htakes.parse]
          refine (if_neg (Nat.not_lt.mpr hfits)).trans ?_
          rw [hrefused]
          rfl
        · obtain ⟨front, last, back, out, rfl, hfront, hlast⟩ := hstumbles
          exact Or.inr (Or.inl ⟨entry :: front, last, back, _, rfl, .cons htakes hfits hfront, hlast⟩)
        · exact Or.inr (Or.inr ⟨_, .cons htakes hfits hrest⟩)
      · left
        unfold parseFrom
        rw [htakes.parse]
        exact ⟨_, if_pos (Nat.lt_of_not_le hfits)⟩

/-- And a list that is returned was taken. -/
theorem parseFrom_ok {i : Nat} : parseFrom i total spec = .ok out ↔ TakesAll total spec out := by
  refine ⟨fun h => ?_, fun h => h.parse i⟩
  rcases parseFrom_cases i total spec with ⟨detail, hrefused⟩ | hstumbles | ⟨out', htakes⟩
  · exact absurd (h.symm.trans hrefused) (by simp [badRequest])
  · obtain ⟨message, hmessage⟩ := hstumbles.parse i
    exact absurd (h.symm.trans hmessage) (by simp)
  · obtain rfl := Except.ok.inj (h.symm.trans (htakes.parse i))
    exact htakes

end DonutServer.Overrides
