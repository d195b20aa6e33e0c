/-
Text as code points, and its bytes.

A text may hold surrogates, which stand for no character: a JSON escape can bring in half
of a pair.  Such a text has no UTF-8 bytes, and encoding it fails.  Decoding never fails:
whatever bytes make up no character are replaced, as many at a time as could have begun
one.
-/
import Mathlib.Algebra.GroupWithZero.Nat
import Mathlib.Tactic.Common
import DonutServer.Lib.PyText

namespace PyText

/-- A code point, whether it stands for a character or not. -/
abbrev CodePoint := Fin 0x110000

/-- What a string that may hold surrogates consists of. -/
abbrev CodePoints := List CodePoint

abbrev Utf8 := List UInt8

/-- A text without surrogates, as code points. -/
def ofString (s : String) : CodePoints := s.toList.map fun c => Fin.ofNat 0x110000 c.toNat

/-- The code point that ends a line. -/
def newline : CodePoint := 10

/-! ### Encoding

A code point takes from one to four bytes, the first of which says how many follow.  A surrogate
would take three, but no encoder writes it; the first one found is what the error is about.
-/

/-- Half of a pair, which stands for no character. -/
def isSurrogate (c : CodePoint) : Bool := 0xd800 ≤ c.val && c.val ≤ 0xdfff

/-- How many bytes a code point takes; a surrogate would take three. -/
def width (c : CodePoint) : Nat :=
  if c.val < 0x80 then 1 else if c.val < 0x800 then 2 else if c.val < 0x10000 then 3 else 4

/-- A byte that follows another one: the last six bits. -/
private def tailByte (n : Nat) : UInt8 := UInt8.ofNat (0x80 + n % 64)

/-- The bytes of one code point. -/
def encodePoint (c : CodePoint) : Utf8 :=
  let n := c.val
  if n < 0x80 then [UInt8.ofNat n]
  else if n < 0x800 then [UInt8.ofNat (0xc0 + n / 64), tailByte n]
  else if n < 0x10000 then [UInt8.ofNat (0xe0 + n / 4096), tailByte (n / 64), tailByte n]
  else [UInt8.ofNat (0xf0 + n / 262144), tailByte (n / 4096), tailByte (n / 64), tailByte n]

/-- `s.encode()`: nothing where it raises. -/
def encode (s : CodePoints) : Option Utf8 :=
  if s.any isSurrogate then none else some (s.flatMap encodePoint)

/-- What `UnicodeEncodeError` says of a text that has none: the first surrogates and where they
stand. -/
def encodeErrorText (s : CodePoints) : String :=
  let quote := String.ofList [Char.ofNat 39]
  let first := (s.takeWhile fun c => !isSurrogate c).length
  let run := (s.drop first).takeWhile isSurrogate
  let codec := quote ++ "utf-8" ++ quote ++ " codec can" ++ quote ++ "t encode "
  let place :=
    match run with
    | [c] =>
        let escaped := String.ofList (Char.ofNat 92 :: 'u' :: Nat.toDigits 16 c.val)
        s!"character {quote}{escaped}{quote} in position {first}"
    | _ => s!"characters in position {first}-{first + run.length - 1}"
  codec ++ place ++ ": surrogates not allowed"

/-- How many bytes a text takes. -/
def utf8Length (s : CodePoints) : Nat := (s.map width).sum

/-- One code point takes as many bytes as its width says. -/
theorem length_encodePoint (c : CodePoint) : (encodePoint c).length = width c := by
  unfold encodePoint width
  dsimp only
  split_ifs <;> rfl

/-- And a text as many as all of its code points. -/
theorem length_encodePoints (s : CodePoints) : (s.flatMap encodePoint).length = utf8Length s := by
  rw [List.length_flatMap]
  exact congrArg List.sum (List.map_congr_left fun c _ => length_encodePoint c)

/-- A text of characters holds no surrogate. -/
theorem any_ofString (s : String) : (ofString s).any isSurrogate = false := by
  unfold ofString
  rw [List.any_map, List.any_eq_false]
  intro c _
  have hvalid : c.toNat < 0xd800 ∨ 0xdfff < c.toNat ∧ c.toNat < 0x110000 := c.valid
  have hpoint : (Fin.ofNat 0x110000 c.toNat).val = c.toNat := Nat.mod_eq_of_lt (by omega)
  show ¬ (decide (_ ≤ (Fin.ofNat 0x110000 c.toNat).val) && decide (_ ≤ _)) = true
  rw [hpoint, Bool.and_eq_true, decide_eq_true_eq, decide_eq_true_eq]
  omega

/-! ### Printing

Python escapes in a text what it cannot print.  A surrogate is one of these, and so a text that
holds one can be printed though it cannot be encoded.
-/

/-- One code point inside quotes: a surrogate is escaped. -/
def reprPoint (quote : Char) (c : CodePoint) : String :=
  if isSurrogate c then String.ofList (Char.ofNat 92 :: 'u' :: Nat.toDigits 16 c.val)
  else escape quote (Char.ofNat c.val)

/-- `repr` of a text. -/
def reprPoints (s : CodePoints) : String :=
  let q := quoteFor (s.map fun c => Char.ofNat c.val)
  String.ofList [q] ++ s.foldl (fun out c => out ++ reprPoint q c) "" ++ String.ofList [q]

/-! ### Decoding

The decoder takes a sequence as far as its bytes are such as could continue it.  Where they run out
or break off, all of them together become one replacement character, and decoding goes on with the
first byte that did not fit; so a byte that could begin a sequence of its own is never swallowed.
-/

/-- U+FFFD. -/
def replacement : CodePoint := 0xfffd

/-- What the first byte of a longer sequence says: the bits it carries, the range of the byte
after it, and how many follow. -/
private def leadByte (b : Nat) : Option (Nat × Nat × Nat × Nat) :=
  if 0xc2 ≤ b ∧ b ≤ 0xdf then some (b - 0xc0, 0x80, 0xbf, 1)
  else if b = 0xe0 then some (0, 0xa0, 0xbf, 2)
  else if b = 0xed then some (0xd, 0x80, 0x9f, 2)
  else if 0xe1 ≤ b ∧ b ≤ 0xef then some (b - 0xe0, 0x80, 0xbf, 2)
  else if b = 0xf0 then some (0, 0x90, 0xbf, 3)
  else if 0xf1 ≤ b ∧ b ≤ 0xf3 then some (b - 0xf0, 0x80, 0xbf, 3)
  else if b = 0xf4 then some (4, 0x80, 0x8f, 3)
  else none

/-- The rest of a sequence: what it comes to, and how many bytes were good for it. -/
private def decodeTail (bits low high : Nat) : Nat → Utf8 → CodePoint × Nat
  | 0, _ => (Fin.ofNat 0x110000 bits, 0)
  | _ + 1, [] => (replacement, 0)
  | n + 1, b :: rest =>
      if low ≤ b.toNat ∧ b.toNat ≤ high then
        let (c, used) := decodeTail (bits * 64 + b.toNat % 64) 0x80 0xbf n rest
        (c, used + 1)
      else (replacement, 0)

/-- The code point that comes first, and how many bytes after the first one it takes. -/
def decodePoint (b : UInt8) (rest : Utf8) : CodePoint × Nat :=
  if b.toNat < 0x80 then (Fin.ofNat 0x110000 b.toNat, 0)
  else
    match leadByte b.toNat with
    | some (bits, low, high, n) => decodeTail bits low high n rest
    | none => (replacement, 0)

/-- What is left to decode, after some bytes that are passed over. -/
private def decodeAfter : Nat → Utf8 → CodePoints
  | _, [] => []
  | skip + 1, _ :: rest => decodeAfter skip rest
  | 0, b :: rest => (decodePoint b rest).1 :: decodeAfter (decodePoint b rest).2 rest

/-- `data.decode("utf-8", errors="replace")`. -/
def decode (data : Utf8) : CodePoints := decodeAfter 0 data

end PyText
