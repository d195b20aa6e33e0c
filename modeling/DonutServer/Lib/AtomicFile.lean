/-
Files that are written beside their place and put there whole.

A writer opens a temporary name that belongs to the place it writes for, appends to the file it
has open, and renames it over the place once everything is written.  It may be killed between
any two steps, and then leaves what it wrote under the temporary name, where the next one finds
it.  As long as no two are at work for one place, the places read like a store in which each
rename puts the whole of a file at once and nothing else changes anything.
-/
import Mathlib.Data.Set.Basic
import Mathlib.Logic.Function.Basic
import DonutServer.Lib.System

namespace AtomicFile

open Function

/-- A file on its way: the place it is for, what is to be written, the file that is open, and
how much of it is written. -/
structure Writing (N β : Type) where
  final : N
  whole : List β
  handle : Nat
  done : Nat

/-- What names stand for, what files hold, and what each writer is at. -/
structure Disk (W N β : Type) where
  link : N → Option Nat
  data : Nat → List β
  fresh : Nat
  writers : W → Option (Writing N β)

/-- What can happen to the files. -/
inductive FileAction (W N β : Type)
  | start (w : W) (final : N) (whole : List β)
  | write (w : W) (n : Nat)
  | place (w : W)
  | leave (w : W)
  | remove (name : N)

variable {W N β : Type} {tmp : N → N}

/-- What a file holds after a write at an offset; a gap before it is filled up. -/
def overwrite [Inhabited β] (offset : Nat) (chunk bytes : List β) : List β :=
  (bytes.rightpad offset default).take offset ++ chunk ++ bytes.drop (offset + chunk.length)

/-- A write at the end appends. -/
@[simp] theorem overwrite_end [Inhabited β] {offset : Nat} {chunk bytes : List β}
    (h : bytes.length = offset) : overwrite offset chunk bytes = bytes ++ chunk := by
  subst h
  simp [overwrite, List.rightpad]

namespace Disk

variable {d d' : Disk W N β} {name : N} {w : W}

/-- Nothing is there yet. -/
def empty : Disk W N β := ⟨fun _ => none, fun _ => [], 0, fun _ => none⟩

/-- What a name reads as. -/
def read (d : Disk W N β) (name : N) : Option (List β) := (d.link name).map d.data

/-! ### Writers that keep apart

Three things could spoil a file on its way: a second writer for the same place, a name that is
taken away under its writer, and a temporary name that is somebody's place.  `Apart` rules these
out, step by step.  What it gives is `Sound`: each writer's file is its own, is named by its
temporary name alone, and holds just what was written so far.
-/

/-- Nobody else is at work for the place a writer starts on, and no temporary name is taken away
from its writer or used as a place. -/
def Apart (tmp : N → N) (d : Disk W N β) : FileAction W N β → Prop
  | .start _ final _ => final ∉ Set.range tmp ∧ ∀ w x, d.writers w = some x → x.final ≠ final
  | .remove name => ∀ w x, d.writers w = some x → name ≠ tmp x.final
  | _ => True

/-- A writer has the file under its temporary name open, and it holds what was written so far. -/
structure Holds (tmp : N → N) (d : Disk W N β) (x : Writing N β) : Prop where
  place : x.final ∉ Set.range tmp
  handle : d.link (tmp x.final) = some x.handle
  data : d.data x.handle = x.whole.take x.done
  done : x.done ≤ x.whole.length

/-- Each writer has its file to itself. -/
structure Sound (tmp : N → N) (d : Disk W N β) : Prop where
  inj : ∀ a b i, d.link a = some i → d.link b = some i → a = b
  fresh : ∀ a i, d.link a = some i → i < d.fresh
  holds : ∀ w x, d.writers w = some x → d.Holds tmp x
  apart : ∀ w w' x y, d.writers w = some x → d.writers w' = some y → x.final = y.final → w = w'

/-- Where nothing is there, nobody writes. -/
theorem sound_empty : (empty : Disk W N β).Sound tmp := by
  constructor <;> simp [empty]

/-- Writers of different places have different files open. -/
theorem Sound.handle_ne {w' : W} {x y : Writing N β} (h : d.Sound tmp) (hinj : Injective tmp)
    (hw : d.writers w = some x) (hw' : d.writers w' = some y) (hne : w ≠ w') :
    x.handle ≠ y.handle := by
  intro heq
  have hx := (h.holds w x hw).handle
  have hy := (h.holds w' y hw').handle
  rw [← heq] at hy
  exact hne (h.apart w w' x y hw hw' (hinj (h.inj _ _ _ hx hy)))

/-- No place shares its file with a writer. -/
theorem Holds.hidden {x : Writing N β} {i : Nat} (hx : d.Holds tmp x) (h : d.Sound tmp)
    (hname : name ∉ Set.range tmp) (hlink : d.link name = some i) : i ≠ x.handle := by
  rintro rfl
  exact hname ⟨_, h.inj _ _ _ hx.handle hlink⟩

section Names

variable [DecidableEq N]

/-- Open a name for writing: the file is emptied, and made if there is none. -/
def truncate (name : N) (d : Disk W N β) : Nat × Disk W N β :=
  match d.link name with
  | some i => (i, { d with data := update d.data i [] })
  | none =>
      (d.fresh,
        { d with
          link := update d.link name (some d.fresh)
          data := update d.data d.fresh []
          fresh := d.fresh + 1 })

/-- The opened name stands for an empty file of its own, and other names for what they did. -/
structure Opened (d : Disk W N β) (name : N) (i : Nat) (d' : Disk W N β) : Prop where
  link : d'.link name = some i
  data : d'.data i = []
  writers : d'.writers = d.writers
  fresh : d.fresh ≤ d'.fresh
  lt : i < d'.fresh
  other : ∀ other ≠ name, d'.link other = d.link other
  kept : ∀ other j, d.link other = some j → other ≠ name → j ≠ i ∧ d'.data j = d.data j

theorem Sound.opened (h : d.Sound tmp) (name : N) :
    d.Opened name (d.truncate name).1 (d.truncate name).2 := by
  unfold truncate
  cases hlink : d.link name with
  | some i =>
      refine ⟨hlink, update_self .., rfl, Nat.le_refl _, h.fresh name i hlink, fun _ _ => rfl, ?_⟩
      intro other j hother hne
      have hij : j ≠ i := by
        rintro rfl
        exact hne (h.inj _ _ _ hother hlink)
      exact ⟨hij, update_of_ne hij _ _⟩
  | none =>
      refine ⟨update_self .., update_self .., rfl, Nat.le_succ _, Nat.lt_succ_self _,
        fun other hne => update_of_ne hne _ _, ?_⟩
      intro other j hother _
      have hlt := h.fresh other j hother
      have hne : j ≠ d.fresh := by omega
      exact ⟨hne, update_of_ne hne _ _⟩

/-- A name that no writer has is taken away. -/
theorem Sound.remove (h : d.Sound tmp)
    (hfree : ∀ w x, d.writers w = some x → name ≠ tmp x.final) :
    Sound tmp { d with link := update d.link name none } := by
  have hsub : ∀ a j, update d.link name none a = some j → d.link a = some j := by
    intro a j ha
    by_cases hname : a = name
    · subst hname
      simp at ha
    · rwa [update_of_ne hname] at ha
  refine ⟨?_, fun a j ha => h.fresh a j (hsub a j ha), ?_, h.apart⟩
  · exact fun a b j ha hb => h.inj a b j (hsub a j ha) (hsub b j hb)
  · intro w x hw
    obtain ⟨hplace, hhandle, hdata, hdone⟩ := h.holds w x hw
    refine ⟨hplace, ?_, hdata, hdone⟩
    show update d.link name none (tmp x.final) = _
    rw [update_of_ne (hfree w x hw).symm]
    exact hhandle

end Names

variable [DecidableEq W]

/-- What `w` is at. -/
def set (w : W) (x : Option (Writing N β)) (d : Disk W N β) : Disk W N β :=
  { d with writers := update d.writers w x }

/-- Whoever is at work after a change of `w` is `w`, or was before. -/
theorem set_writers {w' : W} {x : Option (Writing N β)} {y : Writing N β}
    (h : (d.set w x).writers w' = some y) :
    w' = w ∧ x = some y ∨ w' ≠ w ∧ d.writers w' = some y := by
  unfold set at h
  by_cases hw : w' = w
  · subst hw
    simp_all
  · simp_all [update_of_ne]

/-- The writers of two places are two where `w` is alone at its own. -/
theorem Sound.apart_set {x : Writing N β} (h : d.Sound tmp) (hwriters : d'.writers = d.writers)
    (hfree : ∀ w' y, w' ≠ w → d.writers w' = some y → y.final ≠ x.final) (w₁ w₂ : W)
    (y z : Writing N β) (hy : (d'.set w (some x)).writers w₁ = some y)
    (hz : (d'.set w (some x)).writers w₂ = some z) (heq : y.final = z.final) : w₁ = w₂ := by
  rcases set_writers hy with ⟨hw₁, hxy⟩ | ⟨hne₁, hbefore₁⟩ <;>
    rcases set_writers hz with ⟨hw₂, hxz⟩ | ⟨hne₂, hbefore₂⟩
  · rw [hw₁, hw₂]
  · rw [hwriters] at hbefore₂
    rw [← Option.some.inj hxy] at heq
    exact absurd heq.symm (hfree w₂ z hne₂ hbefore₂)
  · rw [hwriters] at hbefore₁
    rw [← Option.some.inj hxz] at heq
    exact absurd heq (hfree w₁ y hne₁ hbefore₁)
  · rw [hwriters] at hbefore₁ hbefore₂
    exact h.apart w₁ w₂ y z hbefore₁ hbefore₂ heq

/-- A writer that leaves takes nothing from the others. -/
theorem Sound.leave (h : d.Sound tmp) (w : W) : (d.set w none).Sound tmp := by
  have hsub : ∀ w' x, (d.set w none).writers w' = some x → d.writers w' = some x := by
    intro w' x hx
    rcases set_writers hx with ⟨-, hx⟩ | ⟨-, hx⟩
    · exact absurd hx (by simp)
    · exact hx
  refine ⟨h.inj, h.fresh, ?_, ?_⟩
  · intro w' x hx
    obtain ⟨hplace, hhandle, hdata, hdone⟩ := h.holds w' x (hsub w' x hx)
    exact ⟨hplace, hhandle, hdata, hdone⟩
  · exact fun w₁ w₂ x y hx hy => h.apart w₁ w₂ x y (hsub w₁ x hx) (hsub w₂ y hy)


/-! ### What the steps do

There is one lemma for each kind of step, and each says two things, that the writers stay apart and
what the places read as after it.  Only a rename and a removal change anything that can be read.
-/

variable [DecidableEq N]

/-- A writer starts on a place nobody is at work for. -/
theorem Sound.start {final : N} {whole : List β} {i : Nat} (h : d.Sound tmp)
    (hinj : Injective tmp) (hfinal : final ∉ Set.range tmp)
    (halone : ∀ w x, d.writers w = some x → x.final ≠ final)
    (ho : d.Opened (tmp final) i d') :
    (d'.set w (some ⟨final, whole, i, 0⟩)).Sound tmp ∧ ∀ name ∉ Set.range tmp,
      (d'.set w (some ⟨final, whole, i, 0⟩)).read name = d.read name := by
  have hbefore : ∀ a j, d'.link a = some j → a ≠ tmp final → d.link a = some j :=
    fun a j ha hne => (ho.other a hne).symm.trans ha
  have hself : ∀ j, d'.link (tmp final) = some j → j = i :=
    fun j hj => Option.some.inj (hj.symm.trans ho.link)
  refine ⟨⟨?_, ?_, ?_, ?_⟩, ?_⟩
  · intro a b j ha hb
    by_cases hat : a = tmp final <;> by_cases hbt : b = tmp final
    · rw [hat, hbt]
    · subst hat
      exact absurd (hself j ha) (ho.kept b j (hbefore b j hb hbt) hbt).1
    · subst hbt
      exact absurd (hself j hb) (ho.kept a j (hbefore a j ha hat) hat).1
    · exact h.inj a b j (hbefore a j ha hat) (hbefore b j hb hbt)
  · intro a j ha
    have hle := ho.fresh
    show j < d'.fresh
    by_cases hat : a = tmp final
    · subst hat
      rw [hself j ha]
      exact ho.lt
    · have hlt := h.fresh a j (hbefore a j ha hat)
      omega
  · intro w' x hx
    rcases set_writers hx with ⟨-, heq⟩ | ⟨-, hbefore⟩
    · obtain rfl := Option.some.inj heq
      exact ⟨hfinal, ho.link, ho.data, Nat.zero_le _⟩
    · rw [ho.writers] at hbefore
      have hold := h.holds w' x hbefore
      have hne : tmp x.final ≠ tmp final := fun heq => halone w' x hbefore (hinj heq)
      refine ⟨hold.place, ?_, ?_, hold.done⟩
      · exact (ho.other _ hne).trans hold.handle
      · exact (ho.kept _ _ hold.handle hne).2.trans hold.data
  · exact h.apart_set ho.writers fun w' y _ hy => halone w' y hy
  · intro name hname
    have hne : name ≠ tmp final := fun heq => hname ⟨final, heq.symm⟩
    show (d'.link name).map d'.data = (d.link name).map d.data
    rw [ho.other name hne]
    cases hlink : d.link name with
    | none => rfl
    | some j => exact congrArg some (ho.kept name j hlink hne).2

variable [Inhabited β]

/-- **One step on the files.** -/
def next (tmp : N → N) (d : Disk W N β) : FileAction W N β → Option (Disk W N β)
  | .start w final whole =>
      match d.writers w with
      | some _ => none
      | none =>
          let r := d.truncate (tmp final)
          some (r.2.set w (some ⟨final, whole, r.1, 0⟩))
  | .write w n =>
      match d.writers w with
      | none => none
      | some x =>
          let chunk := (x.whole.drop x.done).take n
          let data := update d.data x.handle (overwrite x.done chunk (d.data x.handle))
          some ({ d with data := data }.set w (some { x with done := x.done + chunk.length }))
  | .place w =>
      match d.writers w with
      | none => none
      | some x =>
          if x.done < x.whole.length then none
          else
            -- The rename moves whatever the temporary name stands for by now.
            (d.link (tmp x.final)).map fun i =>
              let link := update (update d.link (tmp x.final) none) x.final (some i)
              { d with link := link }.set w none
  | .leave w => some (d.set w none)
  | .remove name => some { d with link := update d.link name none }

/-- What a step does to what the places read as. -/
def effect (d : Disk W N β) : FileAction W N β → (N → Option (List β)) → N → Option (List β)
  | .place w, shown =>
      match d.writers w with
      | none => shown
      | some x => update shown x.final (some x.whole)
  | .remove name, shown => update shown name none
  | _, shown => shown

/-- Whoever is at work after a step was at the same work before, and has neither put it in place
nor left it, or has just started. -/
theorem next_writers {a : FileAction W N β} {x : Writing N β} (hstep : d.next tmp a = some d')
    (hw : d'.writers w = some x) :
    (∃ y, d.writers w = some y ∧ y.final = x.final ∧ y.whole = x.whole ∧ a ≠ .place w ∧
      a ≠ .leave w) ∨ a = .start w x.final x.whole := by
  cases a with
  | start w' final whole =>
      simp only [next] at hstep
      split at hstep
      next => exact absurd hstep (by simp)
      next =>
        obtain rfl := Option.some.inj hstep
        rcases set_writers hw with ⟨rfl, heq⟩ | ⟨-, hbefore⟩
        · obtain rfl := Option.some.inj heq
          exact Or.inr rfl
        · unfold truncate at hbefore
          refine Or.inl ⟨x, ?_, rfl, rfl, by simp, by simp⟩
          split at hbefore <;> exact hbefore
  | write w' n =>
      cases hw' : d.writers w' with
      | none => simp [next, hw'] at hstep
      | some y =>
          simp only [next, hw', Option.some.injEq] at hstep
          subst hstep
          rcases set_writers hw with ⟨rfl, heq⟩ | ⟨-, hbefore⟩
          · obtain rfl := Option.some.inj heq
            exact Or.inl ⟨y, hw', rfl, rfl, by simp, by simp⟩
          · exact Or.inl ⟨x, hbefore, rfl, rfl, by simp, by simp⟩
  | place w' =>
      cases hw' : d.writers w' with
      | none => simp [next, hw'] at hstep
      | some y =>
          simp only [next, hw'] at hstep
          split at hstep
          next => exact absurd hstep (by simp)
          next =>
            obtain ⟨i, -, rfl⟩ := Option.map_eq_some_iff.mp hstep
            rcases set_writers hw with ⟨-, heq⟩ | ⟨hne, hbefore⟩
            · exact absurd heq (by simp)
            · exact Or.inl ⟨x, hbefore, rfl, rfl, by simp [hne.symm], by simp⟩
  | leave w' =>
      obtain rfl := Option.some.inj hstep
      rcases set_writers hw with ⟨-, heq⟩ | ⟨hne, hbefore⟩
      · exact absurd heq (by simp)
      · exact Or.inl ⟨x, hbefore, rfl, rfl, by simp, by simp [hne.symm]⟩
  | remove name =>
      obtain rfl := Option.some.inj hstep
      exact Or.inl ⟨x, hw, rfl, rfl, by simp, by simp⟩

/-- A writer goes on. -/
theorem Sound.write {x : Writing N β} {n : Nat} (h : d.Sound tmp) (hinj : Injective tmp)
    (hw : d.writers w = some x) (hstep : d.next tmp (.write w n) = some d') :
    d'.Sound tmp ∧ ∀ name ∉ Set.range tmp, d'.read name = d.read name := by
  have hold := h.holds w x hw
  have hlen : (d.data x.handle).length = x.done := by
    rw [hold.data, List.length_take, Nat.min_eq_left hold.done]
  simp only [next, hw, Option.some.injEq, overwrite_end hlen] at hstep
  subst hstep
  refine ⟨⟨h.inj, h.fresh, ?_, ?_⟩, ?_⟩
  · intro w' y hy
    rcases set_writers hy with ⟨-, heq⟩ | ⟨hne, hbefore⟩
    · obtain rfl := Option.some.inj heq
      refine ⟨hold.place, hold.handle, ?_, ?_⟩
      · show update d.data x.handle _ x.handle = _
        rw [update_self, hold.data, List.take_add]
        congr 1
        exact List.take_eq_take_iff.mpr (by simp)
      · show x.done + _ ≤ x.whole.length
        have hdone := hold.done
        rw [List.length_take, List.length_drop]
        omega
    · have hother := h.holds w' y hbefore
      refine ⟨hother.place, hother.handle, ?_, hother.done⟩
      show update d.data x.handle _ y.handle = _
      rw [update_of_ne (h.handle_ne hinj hbefore hw hne)]
      exact hother.data
  · exact h.apart_set rfl fun w' y hne hy heq => hne (h.apart w' w y x hy hw heq)
  · intro name hname
    show (d.link name).map _ = (d.link name).map d.data
    cases hlink : d.link name with
    | none => rfl
    | some j => exact congrArg some (update_of_ne (hold.hidden h hname hlink) _ _)

/-- A file is put in its place. -/
theorem Sound.put {x : Writing N β} (h : d.Sound tmp) (hinj : Injective tmp)
    (hw : d.writers w = some x) (hstep : d.next tmp (.place w) = some d') :
    d'.Sound tmp ∧ ∀ name ∉ Set.range tmp,
      d'.read name = update d.read x.final (some x.whole) name := by
  have hold := h.holds w x hw
  simp only [next, hw] at hstep
  split at hstep
  next => exact absurd hstep (by simp)
  next hdone =>
    rw [hold.handle, Option.map_some, Option.some.injEq] at hstep
    subst hstep
    have hwhole : d.data x.handle = x.whole := by
      rw [hold.data, List.take_of_length_le (by omega)]
    have hmoved : ∀ a j, update (update d.link (tmp x.final) none) x.final (some x.handle) a =
        some j → a = x.final ∧ j = x.handle ∨ a ≠ tmp x.final ∧ d.link a = some j := by
      intro a j ha
      by_cases hfinal : a = x.final
      · subst hfinal
        rw [update_self] at ha
        exact Or.inl ⟨rfl, (Option.some.inj ha).symm⟩
      · rw [update_of_ne hfinal] at ha
        by_cases htmp : a = tmp x.final
        · subst htmp
          simp at ha
        · rw [update_of_ne htmp] at ha
          exact Or.inr ⟨htmp, ha⟩
    have hunique : ∀ a, a ≠ tmp x.final → d.link a ≠ some x.handle :=
      fun a hne ha => hne (h.inj _ _ _ ha hold.handle)
    refine ⟨⟨?_, ?_, ?_, ?_⟩, ?_⟩
    · intro a b j ha hb
      rcases hmoved a j ha with ⟨rfl, rfl⟩ | ⟨hat, ha⟩ <;>
        rcases hmoved b _ hb with ⟨rfl, hj⟩ | ⟨hbt, hb⟩
      · rfl
      · exact absurd hb (hunique b hbt)
      · exact absurd (hj ▸ ha) (hunique a hat)
      · exact h.inj a b j ha hb
    · intro a j ha
      rcases hmoved a j ha with ⟨-, rfl⟩ | ⟨-, ha⟩
      · exact h.fresh _ _ hold.handle
      · exact h.fresh a j ha
    · intro w' y hy
      rcases set_writers hy with ⟨-, hnone⟩ | ⟨hne, hbefore⟩
      · exact absurd hnone (by simp)
      · obtain ⟨hplace, hhandle, hdata, hle⟩ := h.holds w' y hbefore
        refine ⟨hplace, ?_, hdata, hle⟩
        have hfinal : tmp y.final ≠ x.final := fun heq => hold.place ⟨_, heq⟩
        have htmp : tmp y.final ≠ tmp x.final :=
          fun heq => hne (h.apart w' w y x hbefore hw (hinj heq))
        show update (update d.link _ none) x.final _ (tmp y.final) = some y.handle
        rw [update_of_ne hfinal, update_of_ne htmp]
        exact hhandle
    · exact (h.leave w).apart
    · intro name hname
      have htmp : name ≠ tmp x.final := fun heq => hname ⟨_, heq.symm⟩
      show (update (update d.link (tmp x.final) none) x.final _ name).map d.data = _
      by_cases hfinal : name = x.final
      · subst hfinal
        rw [update_self, update_self, Option.map_some, hwhole]
      · rw [update_of_ne hfinal, update_of_ne hfinal, update_of_ne htmp]
        rfl

/-- **One step.**  The writers stay apart, and what the places read as changes by what the step
puts in place or takes away, and by nothing else. -/
theorem Sound.next {a : FileAction W N β} (h : d.Sound tmp) (hinj : Injective tmp)
    (hok : d.Apart tmp a) (hstep : d.next tmp a = some d') :
    d'.Sound tmp ∧ ∀ name ∉ Set.range tmp, d'.read name = d.effect a d.read name := by
  cases a with
  | start w final whole =>
      simp only [Disk.next] at hstep
      split at hstep
      next => exact absurd hstep (by simp)
      next =>
        obtain rfl := Option.some.inj hstep
        exact h.start hinj hok.1 hok.2 (h.opened _)
  | write w n =>
      cases hw : d.writers w with
      | none => simp [Disk.next, hw] at hstep
      | some x => exact h.write hinj hw hstep
  | place w =>
      cases hw : d.writers w with
      | none => simp [Disk.next, hw] at hstep
      | some x =>
          have heffect : d.effect (.place w) d.read = update d.read x.final (some x.whole) := by
            simp [effect, hw]
          rw [heffect]
          exact h.put hinj hw hstep
  | leave w =>
      obtain rfl := Option.some.inj hstep
      exact ⟨h.leave w, fun _ _ => rfl⟩
  | remove name =>
      obtain rfl := Option.some.inj hstep
      refine ⟨h.remove hok, fun other _ => ?_⟩
      show (update d.link name none other).map d.data = update d.read name none other
      by_cases hname : other = name
      · subst hname
        rw [update_self, update_self]
        rfl
      · rw [update_of_ne hname, update_of_ne hname]
        rfl

end Disk

end AtomicFile
