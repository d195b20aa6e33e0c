/-
An override list as it crosses the pipe, its key, and the calls it leads to.

`override_key` and `apply_overrides` each walk the list of dicts by themselves.  Both read
of an entry what its kind calls for, and both put a file without a name under the same
one, so what an entry adds to the key says which call it leads to, and the call says what
it adds to the key.  The one thing a key tells apart and the calls may not is a text that
does not compile: it is in the key, and no call is made of it.
-/
import DonutServer.Coordinator.Config
import DonutServer.Lib.Result

namespace DonutServer

open PyText

/-! ### The list

An entry arrives as a dict, and its kind says which of its fields are read.  A field that is read
and not there is an exception of the lookup, and one that is there and not read has no effect, so
two dicts may differ and mean the same.
-/

/-- One entry, field by field where it has one; a name may be null.  Whatever else it has,
nothing reads. -/
structure OverrideDict where
  kind : Option String
  field : Option String
  value : Option String
  name : Option (Option String)
  text : Option String
  deriving DecidableEq

/-- `list[dict] | None` -/
abbrev OverrideSpec := Option (List OverrideDict)

/-- `entry[name]` -/
def subscript (name : String) (field : Option String) : Except Exn String :=
  match field with
  | some v => .ok v
  | none => .error ⟨.other "KeyError", reprText name⟩

/-- What `override_key` appends for an entry. -/
def OverrideDict.keyEntry (entry : OverrideDict) : Except Exn KeyEntry := do
  if (← subscript "kind" entry.kind) = "value" then
    let field ← subscript "field" entry.field
    let v ← subscript "value" entry.value
    pure (.value field v)
  else
    let text ← subscript "text" entry.text
    pure (.python (Override.fileName entry.name.join) text)

/-- `override_key` -/
def OverrideSpec.overrideKey (spec : OverrideSpec) : Except Exn (List KeyEntry) :=
  (spec.getD []).mapM OverrideDict.keyEntry

/-! ### The calls

`apply_overrides` compiles a text before it hands it over, so a text that does not compile cuts the
loop short at its entry; and nothing is applied until the loop is over.  What a task is built from
is therefore the list of calls, together with what cut it short.
-/

variable {S : Stack} (env : Env S)

/-- A call on `ConfigOverrides`, with what its code object was compiled from. -/
inductive OverrideCall (S : Stack)
  | addValueOverride (field value : String)
  | addPythonOverride (fileName text : String) (code : S.Code)

/-- What `ConfigOverrides` keeps of it. -/
def OverrideCall.kept : OverrideCall S → ConfigCall S
  | .addValueOverride field v => .addValueOverride field v
  | .addPythonOverride _ _ code => .addPythonOverride code

/-- The call the loop of `apply_overrides` makes for an entry. -/
def OverrideDict.call (entry : OverrideDict) : Except Exn (OverrideCall S) := do
  if (← subscript "kind" entry.kind) = "value" then
    let field ← subscript "field" entry.field
    let v ← subscript "value" entry.value
    pure (.addValueOverride field v)
  else
    let name := Override.fileName entry.name.join
    let text ← subscript "text" entry.text
    let code ← env.compile text name
    pure (.addPythonOverride name text code)

/-- The loop: the calls made, and what cut it short. -/
def addOverrides : List OverrideDict → List (OverrideCall S) × Except Exn Unit
  | [] => ([], .ok ())
  | entry :: rest =>
      match entry.call env with
      | .error exc => ([], .error exc)
      | .ok call =>
          let r := addOverrides rest
          (call :: r.1, r.2)

/-- The calls of `apply_overrides`, in the order they are made. -/
def OverrideSpec.calls (spec : OverrideSpec) : List (OverrideCall S) :=
  (addOverrides env (spec.getD [])).1

/-- `apply_overrides` -/
def OverrideSpec.applyOverrides (spec : OverrideSpec) (config : S.Config) : Except Exn S.Config :=
  let r := addOverrides env (spec.getD [])
  match (do
      r.2
      env.applyTo (r.1.map OverrideCall.kept) config) with
  | .ok config => .ok config
  | .error exc => .error ⟨.configOverrideError, exc.described⟩

/-! ### From a key to the calls

An entry's part of the key determines its call, since both read the same fields.  Lists with one
key thus make the same calls, one by one, and are cut short at the same place.
-/

/-- The call that what an entry adds to the key stands for. -/
def KeyEntry.call : KeyEntry → Except Exn (OverrideCall S)
  | .value field v => .ok (.addValueOverride field v)
  | .python name text => do
      let code ← env.compile text name
      pure (.addPythonOverride name text code)

/-- What the call's entry adds to the key. -/
def OverrideCall.keyEntry : OverrideCall S → KeyEntry
  | .addValueOverride field v => .value field v
  | .addPythonOverride name text _ => .python name text

variable {env}

theorem keyEntry_value {entry : OverrideDict} {field v : String}
    (hkind : entry.kind = some "value") (hfield : entry.field = some field)
    (hv : entry.value = some v) : entry.keyEntry = .ok (.value field v) := by
  unfold OverrideDict.keyEntry
  rw [hkind, hfield, hv]
  rfl

/-- Every other kind is taken for Python. -/
theorem keyEntry_python {entry : OverrideDict} {kind text : String}
    (hkind : entry.kind = some kind) (hother : kind ≠ "value") (htext : entry.text = some text) :
    entry.keyEntry = .ok (.python (Override.fileName entry.name.join) text) := by
  unfold OverrideDict.keyEntry
  rw [hkind, htext]
  show (if kind = "value" then _ else _) = _
  rw [if_neg hother]
  rfl

/-- The call of an entry is the one that what it adds to the key stands for. -/
theorem call_eq (entry : OverrideDict) :
    entry.call env = entry.keyEntry >>= KeyEntry.call env := by
  unfold OverrideDict.call OverrideDict.keyEntry
  rw [bind_assoc]
  refine congrArg (subscript "kind" entry.kind >>= ·) (funext fun kind => ?_)
  split
  · rw [bind_assoc]
    refine congrArg (subscript "field" entry.field >>= ·) (funext fun field => ?_)
    rw [bind_assoc]
    rfl
  · rw [bind_assoc]
    rfl

theorem call_of_keyEntry {entry : OverrideDict} {k : KeyEntry} (h : entry.keyEntry = .ok k) :
    entry.call env = k.call env := by
  rw [call_eq, h]
  rfl

/-- An entry that leads to a call adds to the key what the call says. -/
theorem keyEntry_of_call {entry : OverrideDict} {call : OverrideCall S}
    (h : entry.call env = .ok call) : entry.keyEntry = .ok call.keyEntry := by
  rw [call_eq] at h
  obtain ⟨k, hk, h⟩ := Except.bind_eq_ok.mp h
  rw [hk]
  cases k with
  | value field v =>
      rw [← Except.ok.inj h]
      rfl
  | python name text =>
      obtain ⟨code, -, h⟩ := Except.bind_eq_ok.mp h
      rw [← Except.ok.inj h]
      rfl

theorem addOverrides_cut {entry : OverrideDict} {rest : List OverrideDict} {exc : Exn}
    (h : entry.call env = .error exc) : addOverrides env (entry :: rest) = ([], .error exc) := by
  unfold addOverrides
  rw [h]

theorem addOverrides_cons {entry : OverrideDict} {rest : List OverrideDict} {call : OverrideCall S}
    (h : entry.call env = .ok call) :
    addOverrides env (entry :: rest) =
      (call :: (addOverrides env rest).1, (addOverrides env rest).2) := by
  rw [addOverrides, h]

/-- Lists of one key make the same calls, and are cut short by the same exception. -/
theorem addOverrides_congr {l l' : List OverrideDict} {ks : List KeyEntry}
    (h : l.mapM OverrideDict.keyEntry = .ok ks) (h' : l'.mapM OverrideDict.keyEntry = .ok ks) :
    addOverrides env l = addOverrides env l' := by
  induction l generalizing l' ks with
  | nil =>
      obtain rfl := Except.ok.inj h
      cases l' with
      | nil => rfl
      | cons entry rest =>
          obtain ⟨k, ks, -, -, heq⟩ := Except.mapM_cons_eq_ok.mp h'
          exact absurd heq (List.cons_ne_nil k ks).symm
  | cons entry rest ih =>
      obtain ⟨k, ks, hentry, hrest, rfl⟩ := Except.mapM_cons_eq_ok.mp h
      cases l' with
      | nil => exact absurd (Except.ok.inj h') (List.cons_ne_nil k ks).symm
      | cons entry' rest' =>
          obtain ⟨k', ks', hentry', hrest', heq⟩ := Except.mapM_cons_eq_ok.mp h'
          obtain ⟨rfl, rfl⟩ := List.cons.inj heq
          have hcall : entry.call env = entry'.call env := by
            rw [call_of_keyEntry hentry, call_of_keyEntry hentry']
          unfold addOverrides
          rw [hcall, ih hrest hrest']

/-! ### From the calls to a key

The other direction holds where every entry has what its kind calls for and its text compiles.
Where a text does not compile it is in the key and in no call, and two keys may then lead to the
same exception.
-/

/-- An entry that has what its kind calls for, its text one that compiles. -/
def OverrideDict.Usable (env : Env S) (entry : OverrideDict) : Prop :=
  (entry.kind = some "value" ∧ entry.field ≠ none ∧ entry.value ≠ none) ∨
    ∃ kind text code, entry.kind = some kind ∧ kind ≠ "value" ∧ entry.text = some text ∧
      env.compile text (Override.fileName entry.name.join) = .ok code

/-- A list of such entries. -/
def OverrideSpec.Usable (env : Env S) (spec : OverrideSpec) : Prop :=
  ∀ entry ∈ spec.getD [], entry.Usable env

theorem OverrideDict.Usable.call_ok {entry : OverrideDict} (h : entry.Usable env) :
    ∃ call, entry.call env = .ok call := by
  rcases h with ⟨hkind, hfield, hvalue⟩ | ⟨kind, text, code, hkind, hother, htext, hcode⟩
  · obtain ⟨field, hfield⟩ := Option.ne_none_iff_exists'.mp hfield
    obtain ⟨v, hvalue⟩ := Option.ne_none_iff_exists'.mp hvalue
    exact ⟨_, call_of_keyEntry (keyEntry_value hkind hfield hvalue)⟩
  · refine ⟨.addPythonOverride (Override.fileName entry.name.join) text code, ?_⟩
    rw [call_of_keyEntry (keyEntry_python hkind hother htext)]
    unfold KeyEntry.call
    dsimp only
    rw [hcode]
    rfl

/-- Where nothing cuts the loop short, the calls spell the key. -/
theorem keyEntries_of_usable {l : List OverrideDict} (h : ∀ entry ∈ l, entry.Usable env) :
    l.mapM OverrideDict.keyEntry = .ok ((addOverrides env l).1.map OverrideCall.keyEntry) := by
  induction l with
  | nil => rfl
  | cons entry rest ih =>
      obtain ⟨call, hcall⟩ := (h entry (List.mem_cons_self ..)).call_ok
      have hrest := ih fun entry' hmem => h entry' (List.mem_cons_of_mem _ hmem)
      rw [addOverrides_cons hcall]
      exact Except.mapM_cons_eq_ok.mpr ⟨_, _, keyEntry_of_call hcall, hrest, rfl⟩

/-! ### Lists that were checked

What the front-end has accepted it sends as dicts, and reading those back gives what was accepted:
the key and the calls are those of the list as it was parsed.
-/

/-- The dict the front-end sends for an entry it has accepted. -/
def Override.toDict : Override → OverrideDict
  | .value field v => ⟨some "value", some field, some v, none, none⟩
  | .python name text => ⟨some "python", none, none, some name, some text⟩

/-- The dict of an accepted entry has that entry's part of the key. -/
theorem keyEntry_toDict (entry : Override) : entry.toDict.keyEntry = .ok entry.keyEntry := by
  cases entry with
  | value field v => rfl
  | python name text => rfl

/-- The key of a checked list is the one of its entries. -/
theorem overrideKey_toDict (spec : List Override) :
    OverrideSpec.overrideKey (some (spec.map Override.toDict)) = .ok (overrideKey spec) := by
  show (spec.map Override.toDict).mapM OverrideDict.keyEntry = _
  induction spec with
  | nil => rfl
  | cons entry rest ih =>
      exact Except.mapM_cons_eq_ok.mpr ⟨_, _, keyEntry_toDict entry, ih, rfl⟩

/-- The loop over a checked list: its calls, or what cut it short. -/
theorem addOverrides_toDict (spec : List Override) :
    overrideCalls env spec = (addOverrides env (spec.map Override.toDict)).2.map fun _ =>
      (addOverrides env (spec.map Override.toDict)).1.map OverrideCall.kept := by
  induction spec with
  | nil => rfl
  | cons entry rest ih =>
      rw [List.map_cons]
      have hcall : entry.toDict.call env = entry.keyEntry.call env :=
        call_of_keyEntry (keyEntry_toDict entry)
      cases entry with
      | value field v =>
          rw [addOverrides_cons hcall, overrideCalls, ih]
          cases (addOverrides env (rest.map Override.toDict)).2 with
          | error exc => rfl
          | ok _ => rfl
      | python name text =>
          rw [overrideCalls]
          rcases hcode : env.compile text (Override.fileName name) with exc | code
          · have hcut : (Override.python name text).toDict.call env = .error exc := by
              rw [hcall, Override.keyEntry, KeyEntry.call, hcode]
              rfl
            rw [addOverrides_cut hcut]
            rfl
          · have hadds : (Override.python name text).toDict.call env =
                .ok (.addPythonOverride (Override.fileName name) text code) := by
              rw [hcall, Override.keyEntry, KeyEntry.call, hcode]
              rfl
            rw [addOverrides_cons hadds, ih]
            cases (addOverrides env (rest.map Override.toDict)).2 with
            | error exc => rfl
            | ok _ => rfl

/-- Applying a checked list is applying its dicts. -/
theorem applyOverrides_toDict (spec : List Override) (config : S.Config) :
    OverrideSpec.applyOverrides env (some (spec.map Override.toDict)) config =
      applyOverrides env config spec := by
  unfold OverrideSpec.applyOverrides applyOverrides
  rw [addOverrides_toDict]
  dsimp only [Option.getD_some]
  cases (addOverrides env (spec.map Override.toDict)).2 with
  | error exc => rfl
  | ok _ => rfl

end DonutServer
