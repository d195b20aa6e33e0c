/-
How Python prints the values that occur in error messages.

`repr` of a string or of a byte string, and of a list of strings, for the messages
that quote what they were given.  What cannot be printed is escaped, by two, four or eight
hexadecimal digits as its code point needs.  Which code points these are is a table of the
Unicode version Python was built with.  The controls, the format characters, the separators
but for the blank, the private areas and the noncharacters are listed here, and they are the
same in every version; a code point that no version has assigned so far is taken for
printable, though Python escapes it until one does.
-/

namespace PyText

private def apostrophe : Char := Char.ofNat 39
private def doubleQuote : Char := Char.ofNat 34
private def backslash : Char := Char.ofNat 92

/-- Two hexadecimal digits, as in an `\xNN` escape. -/
def hexByte (n : Nat) : String :=
  let digits := Nat.toDigits 16 n
  String.ofList (if digits.length < 2 then '0' :: digits else digits)

/-- The code points beyond ASCII that cannot be printed, but for the last two of each plane. -/
def unprintableRanges : List (Nat × Nat) :=
  [(0x80, 0xa0), (0xad, 0xad), (0x600, 0x605), (0x61c, 0x61c), (0x6dd, 0x6dd), (0x70f, 0x70f),
   (0x890, 0x891), (0x8e2, 0x8e2), (0x1680, 0x1680), (0x180e, 0x180e), (0x2000, 0x200f),
   (0x2028, 0x202f), (0x205f, 0x2064), (0x2066, 0x206f), (0x3000, 0x3000), (0xe000, 0xf8ff),
   (0xfdd0, 0xfdef), (0xfeff, 0xfeff), (0xfff9, 0xfffb), (0x110bd, 0x110bd), (0x110cd, 0x110cd),
   (0x13430, 0x1343f), (0x1bca0, 0x1bca3), (0x1d173, 0x1d17a), (0xe0001, 0xe0001),
   (0xe0020, 0xe007f), (0xf0000, 0x10ffff)]

/-- Not `str.isprintable`, of a character beyond ASCII. -/
def isUnprintable (n : Nat) : Bool :=
  0xfffe ≤ n % 0x10000 || unprintableRanges.any fun r => r.1 ≤ n && n ≤ r.2

/-- At least so many hexadecimal digits. -/
def hexDigits (width n : Nat) : List Char :=
  let digits := Nat.toDigits 16 n
  List.replicate (width - digits.length) '0' ++ digits

/-- A code point as an escape. -/
def hexEscape (n : Nat) : String :=
  if n < 0x100 then String.ofList ([backslash, 'x'] ++ hexDigits 2 n)
  else if n < 0x10000 then String.ofList ([backslash, 'u'] ++ hexDigits 4 n)
  else String.ofList ([backslash, 'U'] ++ hexDigits 8 n)

/-- One character inside quotes. -/
def escape (quote c : Char) : String :=
  if c = backslash ∨ c = quote then String.ofList [backslash, c]
  else if c = '\n' then String.ofList [backslash, 'n']
  else if c = '\r' then String.ofList [backslash, 'r']
  else if c = '\t' then String.ofList [backslash, 't']
  else if c.toNat < 32 ∨ c.toNat = 127 ∨ isUnprintable c.toNat then hexEscape c.toNat
  else String.ofList [c]

/-- Apostrophes, unless the text holds one and holds no double quote. -/
def quoteFor (l : List Char) : Char :=
  if apostrophe ∈ l ∧ doubleQuote ∉ l then doubleQuote else apostrophe

private def quoted (l : List Char) : String :=
  let q := quoteFor l
  String.ofList [q] ++ l.foldl (fun s c => s ++ escape q c) "" ++ String.ofList [q]

/-- `repr` of a string. -/
def reprText (s : String) : String := quoted s.toList

/-- One byte inside quotes: bytes past the ASCII range are escaped. -/
private def escapeByte (quote : Char) (b : UInt8) : String :=
  if b.toNat < 128 then escape quote (Char.ofNat b.toNat)
  else String.ofList [backslash, 'x'] ++ hexByte b.toNat

/-- `repr` of a byte string. -/
def reprBytes (l : List UInt8) : String :=
  let q := quoteFor (l.map fun b => Char.ofNat b.toNat)
  "b" ++ String.ofList [q] ++ l.foldl (fun s b => s ++ escapeByte q b) "" ++ String.ofList [q]

/-- `repr` of a list of strings. -/
def reprList (l : List String) : String :=
  "[" ++ ", ".intercalate (l.map reprText) ++ "]"

/-- `repr` of a list of numbers. -/
def reprNumbers (l : List Int) : String :=
  "[" ++ ", ".intercalate (l.map toString) ++ "]"

/-! ### Blank text

Whitespace in Python is that of Unicode, so what counts as blank is a list of code points here.
-/

/-- `str.isspace` of one character. -/
def isSpace (c : Char) : Bool :=
  let n := c.toNat
  (9 ≤ n && n ≤ 13) || (28 ≤ n && n ≤ 32) || n = 0x85 || n = 0xa0 || n = 0x1680 ||
    (0x2000 ≤ n && n ≤ 0x200a) || n = 0x2028 || n = 0x2029 || n = 0x202f || n = 0x205f || n = 0x3000

/-- `not s.strip()`. -/
def isBlank (s : String) : Bool := s.toList.all isSpace

/-- `str.strip`. -/
def strip (s : String) : String :=
  String.ofList (((s.toList.dropWhile isSpace).reverse.dropWhile isSpace).reverse)

/-- A text in a column of its own: `format(s, "<width>s")`. -/
def padRight (width : Nat) (s : String) : String :=
  s ++ String.ofList (List.replicate (width - s.length) ' ')

/-! ### Digits and paths

A digit may be of any script: Unicode has its decimal digits in runs of ten, each of which begins
with its zero.  A path is a text, and is joined to another by a slash unless there is one, or
unless the other starts at the root.
-/

/-- The zeros of the decimal digits, in every script. -/
def decimalZeros : List Nat :=
  [0x30, 0x660, 0x6f0, 0x7c0, 0x966, 0x9e6, 0xa66, 0xae6, 0xb66, 0xbe6, 0xc66, 0xce6, 0xd66,
   0xde6, 0xe50, 0xed0, 0xf20, 0x1040, 0x1090, 0x17e0, 0x1810, 0x1946, 0x19d0, 0x1a80, 0x1a90,
   0x1b50, 0x1bb0, 0x1c40, 0x1c50, 0xa620, 0xa8d0, 0xa900, 0xa9d0, 0xa9f0, 0xaa50, 0xabf0,
   0xff10, 0x104a0, 0x10d30, 0x11066, 0x110f0, 0x11136, 0x111d0, 0x112f0, 0x11450, 0x114d0,
   0x11650, 0x116c0, 0x11730, 0x118e0, 0x11950, 0x11c50, 0x11d50, 0x11da0, 0x16a60, 0x16ac0,
   0x16b50, 0x1d7ce, 0x1d7d8, 0x1d7e2, 0x1d7ec, 0x1d7f6, 0x1e140, 0x1e2f0, 0x1e950, 0x1fbf0]

/-- What `\d` matches. -/
def isDecimal (c : Char) : Bool := decimalZeros.any fun z => z ≤ c.toNat && c.toNat ≤ z + 9

/-- What a decimal digit counts. -/
def decimalValue (c : Char) : Nat :=
  ((decimalZeros.find? fun z => z ≤ c.toNat && c.toNat ≤ z + 9).map (c.toNat - ·)).getD 0

/-- `int`, of decimal digits. -/
def decimal (digits : List Char) : Nat := digits.foldl (fun n c => 10 * n + decimalValue c) 0

/-- `os.path.join` of two. -/
def joinPath (directory name : String) : String :=
  if name.toList.head? = some '/' then name
  else if directory = "" ∨ directory.toList.getLast? = some '/' then directory ++ name
  else directory ++ "/" ++ name

/-- In one directory, names of which both or neither lead out of it. -/
theorem joinPath_inj {directory name name' : String}
    (h : joinPath directory name = joinPath directory name')
    (hhead : name.toList.head? = some '/' ↔ name'.toList.head? = some '/') : name = name' := by
  unfold joinPath at h
  by_cases hroot : name.toList.head? = some '/'
  · rw [if_pos hroot, if_pos (hhead.mp hroot)] at h
    exact h
  · rw [if_neg hroot, if_neg fun hc => hroot (hhead.mpr hc)] at h
    split at h
    · exact (String.append_right_inj directory).mp h
    · exact (String.append_right_inj (directory ++ "/")).mp h

/-- In one directory, names without a slash at their start. -/
theorem joinPath_inj_plain {directory name name' : String}
    (h : joinPath directory name = joinPath directory name') (hname : '/' ∉ name.toList)
    (hname' : '/' ∉ name'.toList) : name = name' :=
  joinPath_inj h ⟨fun hc => absurd (List.mem_of_head? hc) hname,
    fun hc => absurd (List.mem_of_head? hc) hname'⟩

/-- `os.path.basename`. -/
def baseName (path : String) : String :=
  String.ofList ((path.toList.reverse.takeWhile (· ≠ '/')).reverse)

/-! ### What a path leads to

A path is read part by part, as `os.path.normpath` does: an empty part and `.` stay where
they are, `..` goes back, and goes nowhere from the root.  No link is followed, so what a path
leads to is what its text says.
-/

/-- A path from the root of the file system. -/
def isAbsolute (path : String) : Bool := path.toList.head? = some '/'

/-- One part more of a path, on the parts before it, the last one first. -/
def enter (absolute : Bool) (parts : List (List Char)) (part : List Char) : List (List Char) :=
  if part = [] ∨ part = ['.'] then parts
  else if part = ['.', '.'] then
    match parts with
    | [] => if absolute then [] else [part]
    | last :: rest => if last = part then part :: parts else rest
  else part :: parts

/-- The parts of a path, with every `.` and `..` taken as it reads. -/
def normalParts (path : String) : List (List Char) :=
  ((path.toList.splitOn '/').foldl (enter (isAbsolute path)) []).reverse

/-- The path leads to somewhere in the tree: it begins with the tree's own parts, and does not
go back over them. -/
def InTree (root path : String) : Prop :=
  isAbsolute path = isAbsolute root ∧ normalParts root <+: normalParts path ∧
    ['.', '.'] ∉ (normalParts path).drop (normalParts root).length

instance (root path : String) : Decidable (InTree root path) :=
  inferInstanceAs (Decidable (_ ∧ _ ∧ _))

/-! ### Endings

Cutting as many characters off the end as an ending has, whatever they are; so whoever cuts has to
look first.
-/

/-- `name.endswith(suffix)` -/
def endsWith (name suffix : String) : Bool := suffix.toList.isSuffixOf name.toList

/-- `name[:-len(suffix)]` -/
def dropSuffix (name suffix : String) : String :=
  String.ofList (name.toList.take (name.toList.length - suffix.toList.length))

theorem endsWith_iff {name suffix : String} :
    endsWith name suffix = true ↔ ∃ stem, name = stem ++ suffix := by
  unfold endsWith
  rw [List.isSuffixOf_iff_suffix]
  constructor
  · intro h
    obtain ⟨front, hfront⟩ := h
    refine ⟨String.ofList front, String.toList_inj.mp ?_⟩
    rw [String.toList_append, String.toList_ofList, hfront]
  · intro h
    obtain ⟨stem, rfl⟩ := h
    rw [String.toList_append]
    exact List.suffix_append _ _

theorem dropSuffix_append (stem suffix : String) : dropSuffix (stem ++ suffix) suffix = stem := by
  unfold dropSuffix
  rw [String.toList_append, List.length_append, Nat.add_sub_cancel, List.take_left]
  exact String.ofList_toList

end PyText
