/-
Shell patterns, and the paths that match them.

A pattern is compared with one name at a time.  `*` stands for any text, `?` for any one
character and `[...]` for one of a set, and everything else for itself.  `glob` reads every
part of a path as a pattern, the directories as well as the last name; so a directory whose
own name holds one of the three is not looked up but matched, and what is found may lie in
other directories than the one that was meant.

The recursion goes from a path to its directory, which is shorter, on a fuel that is the
length of the path.  `iglob_stable` says that this is always enough.
-/
import Mathlib.Data.List.DropRight
import DonutServer.Lib.PyText

namespace Glob

open PyText

/-! ### One name

A pattern is taken apart into items first, so that matching recurses on a list and not on
what is left of a text.  A bracket that is never closed stands for itself, as does a closing
bracket that comes first; `a-z` inside is a range, by code point, and a hyphen that cannot be
one is a hyphen.
-/

/-- An item of a pattern. -/
inductive Item
  | star
  | any
  | char (c : Char)
  | set (negated : Bool) (ranges : List (Char × Char))
  deriving DecidableEq

/-- The ranges that stand between brackets. -/
def ranges : List Char → List (Char × Char)
  | a :: '-' :: b :: rest => (a, b) :: ranges rest
  | a :: rest => (a, a) :: ranges rest
  | [] => []

/-- What follows an opening bracket: the set, and the rest of the pattern. -/
def bracket (l : List Char) : Option (Item × List Char) :=
  let negated := l.head? = some '!'
  match if negated then l.tail else l with
  | [] => none
  | c :: body =>
      match body.dropWhile (· ≠ ']') with
      | [] => none
      | _ :: rest => some (.set negated (ranges (c :: body.takeWhile (· ≠ ']'))), rest)

/-- The items of a pattern, which are no more than its characters. -/
def items : Nat → List Char → List Item
  | 0, _ => []
  | _, [] => []
  | fuel + 1, '*' :: rest => .star :: items fuel rest
  | fuel + 1, '?' :: rest => .any :: items fuel rest
  | fuel + 1, '[' :: rest =>
      match bracket rest with
      | some (set, rest) => set :: items fuel rest
      | none => .char '[' :: items fuel rest
  | fuel + 1, c :: rest => .char c :: items fuel rest

/-- The item stands for this character. -/
def Item.admits : Item → Char → Bool
  | .star, _ => false
  | .any, _ => true
  | .char d, c => c = d
  | .set negated ranges, c => ranges.any (fun r => r.1 ≤ c && c ≤ r.2) ≠ negated

/-- The items stand for this text. -/
def fits : List Item → List Char → Bool
  | [], l => l.isEmpty
  | .star :: rest, l => l.tails.any (fits rest)
  | item :: rest, c :: l => item.admits c && fits rest l
  | _ :: _, [] => false

/-- `fnmatch.fnmatchcase(name, pattern)` -/
def fnmatch (pattern name : String) : Bool :=
  fits (items pattern.toList.length pattern.toList) name.toList

example : fnmatch "*_R??_SW[!a-z].fits" "a_R00_SW0.fits" = true := by decide +kernel

/-! ### Paths

`os.path.split` cuts a path at its last slash, and takes the slashes off the end of what is
before it, unless there is nothing else.  What a file system answers is a parameter: the
names in a directory, none where it cannot be read, and whether a path is one of a directory
or of anything at all.
-/

/-- What `glob` asks of a file system. -/
structure FileTree where
  /-- The names `os.scandir` gives, of the current directory for an empty path. -/
  listing : String → List String
  /-- `os.path.isdir(path)` -/
  isDir : String → Bool
  /-- `os.path.lexists(path)` -/
  lexists : String → Bool

/-- `has_magic` -/
def hasMagic (s : String) : Bool := s.toList.any fun c => c = '*' || c = '?' || c = '['

/-- A path without the slashes at its end, if there is anything else to it. -/
def trimSlashes (path : List Char) : List Char :=
  if path.all (· = '/') then path else path.rdropWhile (· = '/')

/-- The directory that a name is looked up in, as `os.path.split` gives it. -/
def dirOf (directory : String) : String := String.ofList (trimSlashes directory.toList)

/-- `os.path.split` -/
def splitPath (path : String) : String × String :=
  (String.ofList (trimSlashes (path.toList.rdropWhile (· ≠ '/'))),
    String.ofList (path.toList.rtakeWhile (· ≠ '/')))

/-- `_glob1`: the names in a directory that match a pattern, hidden ones only for a pattern
that is. -/
def glob1 (tree : FileTree) (dirOnly : Bool) (dirname pattern : String) : List String :=
  (tree.listing dirname).filter fun name =>
    (!dirOnly || tree.isDir (joinPath dirname name)) &&
      (pattern.toList.head? = some '.' || name.toList.head? ≠ some '.') && fnmatch pattern name

/-- `_glob0`: a name that is no pattern, if it is there. -/
def glob0 (tree : FileTree) (dirname basename : String) : List String :=
  if basename = "" then if tree.isDir dirname then [basename] else []
  else if tree.lexists (joinPath dirname basename) then [basename] else []

/-- `_iglob`: a directory that holds a pattern is globbed itself. -/
def iglob (tree : FileTree) : Nat → Bool → String → List String
  | 0, _, _ => []
  | fuel + 1, dirOnly, pathname =>
      let (dirname, basename) := splitPath pathname
      if !hasMagic pathname then
        if basename = "" then if tree.isDir dirname then [pathname] else []
        else if tree.lexists pathname then [pathname] else []
      else if dirname = "" then glob1 tree dirOnly dirname basename
      else
        let dirs := if dirname ≠ pathname && hasMagic dirname then iglob tree fuel true dirname
          else [dirname]
        dirs.flatMap fun dir =>
          (if hasMagic basename then glob1 tree dirOnly dir basename else glob0 tree dir basename).map
            (joinPath dir)

/-- `glob.glob(pathname)` -/
def glob (tree : FileTree) (pathname : String) : List String :=
  iglob tree (pathname.toList.length + 1) false pathname

theorem trimSlashes_isPrefix (l : List Char) : trimSlashes l <+: l := by
  unfold trimSlashes
  split
  · exact List.prefix_refl l
  · exact List.rdropWhile_prefix _ l

/-- The recursion goes to a shorter path. -/
theorem length_dirname {path : String} (h : (splitPath path).1 ≠ path) :
    (splitPath path).1.toList.length < path.toList.length := by
  have hprefix : (splitPath path).1.toList <+: path.toList := by
    unfold splitPath
    rw [String.toList_ofList]
    exact (trimSlashes_isPrefix _).trans (List.rdropWhile_prefix _ _)
  refine lt_of_le_of_ne hprefix.length_le fun heq => h (String.toList_inj.mp ?_)
  exact hprefix.eq_of_length heq

/-- **The length of the path is fuel enough**: with more, the same paths are found. -/
theorem iglob_stable (tree : FileTree) : ∀ (n m : Nat) (dirOnly : Bool) (path : String),
    path.toList.length < n → path.toList.length < m →
      iglob tree n dirOnly path = iglob tree m dirOnly path := by
  intro n
  induction n with
  | zero => exact fun m dirOnly path hn _ => absurd hn (Nat.not_lt_zero _)
  | succ n ih =>
      intro m dirOnly path hn hm
      obtain ⟨m, rfl⟩ := Nat.exists_eq_succ_of_ne_zero (Nat.ne_zero_of_lt hm)
      have hdirs : (if ((splitPath path).1 ≠ path && hasMagic (splitPath path).1) = true then
            iglob tree n true (splitPath path).1 else [(splitPath path).1]) =
          if ((splitPath path).1 ≠ path && hasMagic (splitPath path).1) = true then
            iglob tree m true (splitPath path).1 else [(splitPath path).1] := by
        by_cases hrec : ((splitPath path).1 ≠ path && hasMagic (splitPath path).1) = true
        · have hshort := length_dirname (of_decide_eq_true (Bool.and_eq_true_iff.mp hrec).1)
          rw [if_pos hrec, if_pos hrec]
          exact ih m true _ (by omega) (by omega)
        · rw [if_neg hrec, if_neg hrec]
      unfold iglob
      dsimp only
      rw [hdirs]

/-! ### A directory that is no pattern

Where the directory's path holds none of the three characters there is nothing to expand: the
last name is compared with what this one directory lists, and with nothing else.
-/

variable {tree : FileTree} {directory pattern path : String}

/-- One slash more makes no difference to a path. -/
theorem trimSlashes_slash {l : List Char} (hne : l ≠ []) (hlast : l.getLast? ≠ some '/') :
    trimSlashes (l ++ ['/']) = trimSlashes l := by
  have hdrop : (l ++ ['/']).rdropWhile (· = '/') = l.rdropWhile (· = '/') :=
    List.rdropWhile_concat_pos _ _ _ (decide_eq_true rfl)
  obtain ⟨front, c, rfl⟩ := (List.eq_nil_or_concat' l).resolve_left hne
  rw [List.getLast?_concat] at hlast
  have hc : decide (c = '/') = false := decide_eq_false fun h => hlast (congrArg some h)
  unfold trimSlashes
  rw [hdrop, List.all_append, List.all_append, List.all_cons, hc]
  simp only [Bool.false_and, Bool.and_false, Bool.false_eq_true, if_false]

/-- What a path ends in is a pattern, so the path is. -/
theorem hasMagic_of_suffix {s t : String} (h : t.toList <:+ s.toList) (ht : hasMagic t = true) :
    hasMagic s = true := by
  obtain ⟨c, hc, hmagic⟩ := List.any_eq_true.mp ht
  exact List.any_eq_true.mpr ⟨c, h.subset hc, hmagic⟩

theorem hasMagic_dirOf (h : hasMagic directory = false) : hasMagic (dirOf directory) = false := by
  refine List.any_eq_false.mpr fun c hc => ?_
  unfold dirOf at hc
  rw [String.toList_ofList] at hc
  exact List.any_eq_false.mp h c ((trimSlashes_isPrefix _).subset hc)

theorem joinPath_suffix (directory : String) : pattern.toList <:+ (joinPath directory pattern).toList := by
  unfold joinPath
  split
  · exact List.suffix_refl _
  · split
    · rw [String.toList_append]
      exact List.suffix_append _ _
    · rw [String.toList_append]
      exact List.suffix_append _ _

theorem joinPath_empty (name : String) : joinPath "" name = name := by
  unfold joinPath
  split
  · rfl
  · rw [if_pos (Or.inl rfl)]
    exact String.empty_append

/-- A name cut off a path that ends in a slash, or has nothing before the name. -/
theorem split_append {front name : List Char} (hname : '/' ∉ name)
    (hfront : ∀ c, front.getLast? = some c → c = '/') :
    (front ++ name).rdropWhile (· ≠ '/') = front ∧ (front ++ name).rtakeWhile (· ≠ '/') = name := by
  have hall : ∀ c ∈ name.reverse, decide (c ≠ '/') = true := by
    intro c hc
    rw [decide_eq_true_eq]
    rintro rfl
    exact hname (List.mem_reverse.mp hc)
  have hstop : front.reverse.dropWhile (fun c => decide (c ≠ '/')) = front.reverse ∧
      front.reverse.takeWhile (fun c => decide (c ≠ '/')) = [] := by
    rcases hrev : front.reverse with _ | ⟨c, rest⟩
    · exact ⟨rfl, rfl⟩
    · have hc : c = '/' := hfront c (by rw [← List.head?_reverse, hrev]; rfl)
      subst hc
      exact ⟨rfl, rfl⟩
  unfold List.rdropWhile List.rtakeWhile
  rw [List.reverse_append, List.dropWhile_append_of_pos hall, List.takeWhile_append_of_pos hall,
    hstop.1, hstop.2, List.append_nil, List.reverse_reverse, List.reverse_reverse]
  exact ⟨rfl, rfl⟩

/-- A directory and a name are what their join is split into. -/
theorem splitPath_joinPath (hname : '/' ∉ pattern.toList) :
    splitPath (joinPath directory pattern) = (dirOf directory, pattern) := by
  have hroot : pattern.toList.head? ≠ some '/' := fun h => hname (List.mem_of_head? h)
  unfold splitPath joinPath dirOf
  rw [if_neg hroot]
  split
  · rename_i hend
    have hlast : ∀ c, directory.toList.getLast? = some c → c = '/' := by
      intro c hc
      rcases hend with rfl | hslash
      · exact absurd hc (by simp)
      · exact Option.some.inj (hc.symm.trans hslash)
    obtain ⟨hfront, hback⟩ := split_append hname hlast
    rw [String.toList_append, hfront, hback, String.ofList_toList]
  · rename_i hend
    rw [not_or] at hend
    have hlast : ∀ c, (directory.toList ++ ['/']).getLast? = some c → c = '/' := by
      intro c hc
      rw [List.getLast?_concat] at hc
      exact (Option.some.inj hc).symm
    obtain ⟨hfront, hback⟩ := split_append hname hlast
    have hsplit : (directory ++ "/" ++ pattern).toList = directory.toList ++ ['/'] ++ pattern.toList := by
      rw [String.toList_append, String.toList_append]
      rfl
    rw [hsplit, hfront, hback, String.ofList_toList, trimSlashes_slash ?_ hend.2]
    exact fun hnil => hend.1 (String.toList_inj.mp hnil)

/-- **Looking a name up.**  In a directory that is no pattern, a pattern finds what the
directory lists. -/
theorem glob_plain (hplain : hasMagic directory = false) (hpattern : hasMagic pattern = true)
    (hname : '/' ∉ pattern.toList) :
    glob tree (joinPath directory pattern) =
      (glob1 tree false (dirOf directory) pattern).map (joinPath (dirOf directory)) := by
  have hmagic : hasMagic (joinPath directory pattern) = true :=
    hasMagic_of_suffix (joinPath_suffix directory) hpattern
  unfold glob iglob
  rw [splitPath_joinPath hname]
  dsimp only
  rw [hmagic, hasMagic_dirOf hplain, hpattern]
  simp only [Bool.not_true, Bool.false_eq_true, if_false, Bool.and_false, if_true]
  split
  · rename_i hempty
    rw [hempty, List.map_congr_left fun name _ => joinPath_empty name, List.map_id']
  · rw [List.flatMap_singleton]

end Glob
