/-
JSON values whose strings are code points, and how Python prints them.

A string that came out of a JSON escape may hold half of a surrogate pair.  `repr` escapes
that, and `json.dumps` writes it out as it is, so a value that is dumped has UTF-8 bytes just
when no string in it holds one.
-/
import DonutServer.Lib.CodePoints
import DonutServer.Lib.PyText

open PyText

/-- A JSON value; a number is an integer or a float, by what Python prints for it, and an
object lists each key once. -/
inductive Json
  | null
  | bool (b : Bool)
  | number (isFloat : Bool) (text : String)
  | string (s : CodePoints)
  | array (items : List Json)
  | object (members : List (CodePoints × Json))

namespace Json

/-- `members.get(key)`. -/
def get (members : List (CodePoints × Json)) (key : String) : Option Json :=
  members.lookup (ofString key)

/-- `type(value).__name__`, of what `get` returns. -/
def typeName : Option Json → String
  | none | some null => "NoneType"
  | some (bool _) => "bool"
  | some (number isFloat _) => if isFloat then "float" else "int"
  | some (string _) => "str"
  | some (array _) => "list"
  | some (object _) => "dict"

/-! ### `repr`

A value prints as Python prints it, which is not JSON: the constants have other names, and the
strings go by `repr`.
-/

mutual

def repr : Json → String
  | null => "None"
  | bool b => if b then "True" else "False"
  | number _ text => text
  | string s => reprPoints s
  | array items => "[" ++ reprItems items ++ "]"
  | object members => "\x7b" ++ reprMembers members ++ "\x7d"

def reprItems : List Json → String
  | [] => ""
  | [item] => repr item
  | item :: rest => repr item ++ ", " ++ reprItems rest

def reprMembers : List (CodePoints × Json) → String
  | [] => ""
  | [(key, value)] => reprPoints key ++ ": " ++ repr value
  | (key, value) :: rest => reprPoints key ++ ": " ++ repr value ++ ", " ++ reprMembers rest

end

/-! ### `json.dumps`

With `ensure_ascii=False` only what JSON requires is escaped, so a surrogate goes out as it came
in; and with these separators there is no blank between the items.
-/

/-- One code point of a string, between the quotes. -/
def escapePoint (c : CodePoint) : CodePoints :=
  if c.val = 34 ∨ c.val = 92 then ofString "\\" ++ [c]
  else if c.val = 10 then ofString "\\n"
  else if c.val = 13 then ofString "\\r"
  else if c.val = 9 then ofString "\\t"
  else if c.val = 12 then ofString "\\f"
  else if c.val = 8 then ofString "\\b"
  else if c.val < 32 then ofString ("\\u00" ++ hexByte c.val)
  else [c]

def quote (s : CodePoints) : CodePoints := ofString "\"" ++ s.flatMap escapePoint ++ ofString "\""

mutual

/-- `json.dumps(value, ensure_ascii=False, separators=(",", ":"))`. -/
def dumps : Json → CodePoints
  | null => ofString "null"
  | bool b => ofString (if b then "true" else "false")
  | number _ text => ofString text
  | string s => quote s
  | array items => ofString "[" ++ dumpsItems items ++ ofString "]"
  | object members => ofString "\x7b" ++ dumpsMembers members ++ ofString "\x7d"

def dumpsItems : List Json → CodePoints
  | [] => []
  | item :: rest => dumps item ++ (if rest.isEmpty then [] else ofString ",") ++ dumpsItems rest

def dumpsMembers : List (CodePoints × Json) → CodePoints
  | [] => []
  | (key, value) :: rest =>
      quote key ++ ofString ":" ++ dumps value ++ (if rest.isEmpty then [] else ofString ",") ++
        dumpsMembers rest

end

/-! ### Surrogates

What is put around the strings of a value has no surrogates in it, and no escape makes or hides
one.  So the dumped text holds one just where a string or a key of the value does, by induction on
the value.
-/

mutual

/-- A string or a key in it holds a surrogate. -/
def anySurrogate : Json → Bool
  | null | bool _ | number _ _ => false
  | string s => s.any isSurrogate
  | array items => anySurrogateItem items
  | object members => anySurrogateMember members

def anySurrogateItem : List Json → Bool
  | [] => false
  | item :: rest => anySurrogate item || anySurrogateItem rest

def anySurrogateMember : List (CodePoints × Json) → Bool
  | [] => false
  | (key, value) :: rest => key.any isSurrogate || anySurrogate value || anySurrogateMember rest

end

/-- An escape hides no surrogate and makes none. -/
theorem any_escapePoint (c : CodePoint) : (escapePoint c).any isSurrogate = isSurrogate c := by
  unfold escapePoint
  have hsmall : c.val < 128 → isSurrogate c = false := by
    intro h
    unfold isSurrogate
    rw [Bool.and_eq_false_iff]
    exact Or.inl (decide_eq_false (by omega))
  split_ifs with h
  · have hc : isSurrogate c = false := hsmall (by omega)
    rw [List.any_append, any_ofString, List.any_cons, List.any_nil, hc]
    rfl
  all_goals first
    | rw [any_ofString, hsmall (by omega)]
    | rw [List.any_cons, List.any_nil, Bool.or_false]

/-- Nor do the quotes around a string. -/
theorem any_quote (s : CodePoints) : (quote s).any isSurrogate = s.any isSurrogate := by
  unfold quote
  rw [List.any_append, List.any_append, any_ofString, Bool.or_false, Bool.false_or,
    List.any_flatMap]
  exact congrArg s.any (funext any_escapePoint)

/-- Nor does what stands between the items. -/
theorem any_separator (b : Bool) :
    List.any (if b then [] else ofString ",") isSurrogate = false := by
  cases b
  · exact any_ofString ","
  · rfl

mutual

theorem any_dumps : ∀ j : Json, (dumps j).any isSurrogate = anySurrogate j
  | null => any_ofString _
  | bool _ => any_ofString _
  | number _ text => any_ofString text
  | string s => any_quote s
  | array items => by
      unfold dumps anySurrogate
      rw [List.any_append, List.any_append, any_ofString, any_ofString, any_dumpsItems items,
        Bool.or_false, Bool.false_or]
  | object members => by
      unfold dumps anySurrogate
      rw [List.any_append, List.any_append, any_ofString, any_ofString, any_dumpsMembers members,
        Bool.or_false, Bool.false_or]

theorem any_dumpsItems : ∀ l : List Json, (dumpsItems l).any isSurrogate = anySurrogateItem l
  | [] => rfl
  | item :: rest => by
      unfold dumpsItems anySurrogateItem
      rw [List.any_append, List.any_append, any_dumps item, any_separator, any_dumpsItems rest,
        Bool.or_false]

theorem any_dumpsMembers :
    ∀ l : List (CodePoints × Json), (dumpsMembers l).any isSurrogate = anySurrogateMember l
  | [] => rfl
  | (key, value) :: rest => by
      unfold dumpsMembers anySurrogateMember
      rw [List.any_append, List.any_append, List.any_append, List.any_append, any_quote,
        any_ofString, any_dumps value, any_separator, any_dumpsMembers rest, Bool.or_false,
        Bool.or_false]

end

/-- **A dumped value has UTF-8 bytes just when no string in it holds a surrogate.** -/
theorem encode_dumps (j : Json) : (∃ data, encode (dumps j) = some data) ↔ anySurrogate j = false := by
  rw [← any_dumps]
  unfold encode
  cases (dumps j).any isSurrogate with
  | false => exact ⟨fun _ => rfl, fun _ => ⟨_, rfl⟩⟩
  | true =>
      refine ⟨fun h => ?_, fun h => absurd h (by simp)⟩
      obtain ⟨data, hdata⟩ := h
      exact absurd hdata (by simp)

end Json
