/-
Resolving a replayed exposure.

A replay has the pixels of one exposure and the headers of another, and the headers of the
exposure it was made from are read from a second tree.  Both sides are keyed by the name
a header gives its detector, and a name that comes twice on either side is refused; so each
file of the replay meets the one header that names its detector, all eight of one directory.
-/
import DonutServer.Producer.Resolve

namespace DonutServer.Producer

open PyText

variable {A : Afw}

def triggerSensor : String := "R00_SW0"

def emuimageCard : String := "EMUIMAGE"

def replayDirVar : String := "DONUT_SERVER_REPLAY_DIR"

def replayObsidVar : String := "DONUT_SERVER_REPLAY_OBSID"

structure ReplayEnv (A : Afw) extends DiskEnv A where
  /-- `os.environ.get(name)` -/
  environ : String → Option String
  /-- `str(header[card])`, where there is such a card and it is not `None`. -/
  cardText : A.Header → String → Option String
  /-- `_card(live, card) == _card(substituted, card)`, for a live header that may be missing. -/
  sameCard : Option A.Header → A.Header → String → Bool

/-! ### The exposure that was replayed

The emulator leaves a marker in the headers of what it replays, and the marker names the exposure.
All of the live files have to have one and the same; where an operator has pinned the exposure
instead, the pin is taken and no marker is looked at.
-/

/-- The text of a header's marker; a blank one is as good as none. -/
def emuimage (env : ReplayEnv A) (header : A.Header) : String :=
  ((env.cardText header emuimageCard).map strip).getD ""

/-- `values.setdefault(value, []).append(name)` -/
def collect (values : OrderedDict String (List String)) (entry : String × String) :
    OrderedDict String (List String) :=
  values.set entry.2 ((values.get? entry.2).getD [] ++ [entry.1])

/-- The detectors of each marker. -/
def markers (entries : List (String × String)) : OrderedDict String (List String) :=
  entries.foldl collect .empty

def readEmuimage (env : ReplayEnv A) (headers : OrderedDict String A.Header) :
    Except Exn String :=
  let read := (headers.entries.insertionSort fun e e' => e.1 ≤ e'.1).map
    fun e => (e.1, emuimage env e.2)
  let missing := (read.filter fun e => e.2 = "").map Prod.fst
  let values := markers (read.filter fun e => e.2 ≠ "")
  if missing ≠ [] then
    .error (.runtime (s!"{emuimageCard} is absent or blank on detector(s) " ++
      s!"{reprList missing}, so the exposure being replayed cannot be identified. " ++
      s!"{emuimageCard} is written by the emulator and absent on real " ++
      s!"camera data -- if this is real data, unset {replayDirVar}; if " ++
      s!"it is a replay, set {replayObsidVar} to pin the exposure."))
  else
    match values.entries with
    | [(exposure, _)] => .ok exposure
    | several =>
        let detail := "; ".intercalate ((several.insertionSort fun e e' => e.1 ≤ e'.1).map
          fun e => s!"{reprText e.1} on {reprList (sortedTexts e.2)}")
        .error (.runtime (s!"the 8 sensors disagree about {emuimageCard}, so this directory " ++
          s!"holds more than one replayed exposure: {detail}"))

/-! ### Headers by detector

The headers of both sides are put into dicts by the name that each gives its detector.  A name that
comes twice is refused on either side.  So each file of the replay has at most one header to meet,
and what is left to show is that it has one, and the right one.
-/

/-- The headers of some files, each under the name it gives its detector, none of them twice. -/
def headersByName (env : ReplayEnv A) (twice : String → Exn) :
    List String → OrderedDict String A.Header → Except Exn (OrderedDict String A.Header)
  | [], headers => .ok headers
  | path :: rest, headers => do
      let header ← env.readHeader path
      let name ← detectorName env.toCameraEnv header
      if name ∈ headers.keys then .error (twice name)
      else headersByName env twice rest (headers.set name header)

def readLiveHeaders (env : ReplayEnv A) (paths : List String) :
    Except Exn (OrderedDict String A.Header) :=
  headersByName env (fun name => .runtime s!"two files claim to be detector {name}") paths .empty

def replayHeaders (env : ReplayEnv A) (replayDir exposure : String) :
    Except Exn (OrderedDict String A.Header) := do
  let directory := joinPath replayDir exposure
  if env.isDir directory then
    let paths ← swPaths env.toDiskEnv directory
    let headers ← headersByName env
      (fun name => .runtime s!"{reprText directory} has two files for detector {name}") paths .empty
    if headers.size = expectedSensors then .ok headers
    else
      .error (.runtime (s!"replay exposure {reprText directory} has {headers.size} " ++
        s!"corner sensor(s), expected {expectedSensors}: {reprList (sortedTexts headers.keys)}"))
  else
    .error (.runtime (s!"the replay names exposure {reprText exposure} but " ++
      s!"{reprText directory} is not a directory, so its original metadata cannot be read. " ++
      s!"Either {replayDirVar} points at the wrong tree, or that exposure is " ++
      s!"not in it; {replayObsidVar} overrides the name."))

/-! ### The substitution

Where a replay tree is set, every file is read under the header of the exposure it was made from;
where none is set nothing is substituted, and all of this has no effect.
-/

/-- `_card`, as text. -/
def card (env : ReplayEnv A) (header : Option A.Header) (key : String) : String :=
  (header.bind fun header => env.cardText header key).getD "<absent>"

def substitutionReport (env : ReplayEnv A) (live : Option A.Header) (substituted : A.Header) :
    List String :=
  let marker := card env live emuimageCard
  let loaded := card env (some substituted) "OBSID"
  let agree := if marker = loaded then "" else "   <- MISMATCH"
  s!"replay: {emuimageCard} {marker} -> loaded {loaded}{agree}" ::
    "replay metadata substitution (live -> substituted):" ::
    ["OBSID", "FILTER", "RA", "DEC", "DATE-BEG", "FOCUSZ"].map fun key =>
      let before := card env live key
      let after := card env (some substituted) key
      let flag := if env.sameCard live substituted key then "" else "   *"
      s!"    {padRight 9 key} {padRight 34 before} -> {after}{flag}"

/-- The name of the exposure that was replayed, and the line that reports it. -/
def replayedExposure (env : ReplayEnv A) (live : OrderedDict String A.Header) :
    Except Exn (String × String) :=
  match env.environ replayObsidVar with
  | none | some "" => do
      let exposure ← readEmuimage env live
      .ok (exposure, s!"replay: {emuimageCard} names original exposure {exposure}")
  | some pinned =>
      .ok (pinned, s!"replay: {replayObsidVar}={pinned} pins the exposure, " ++
        s!"ignoring {emuimageCard}")

/-- `substituted_headers`, and the lines for `report`, where there is one. -/
def substitutedHeaders (env : ReplayEnv A) (directory : String) (report : Bool) :
    Except Exn (Option (OrderedDict String A.Header) × List String) :=
  match env.environ replayDirVar with
  | none | some "" => .ok (none, [])
  | some replayDir => do
      if env.isDir replayDir then
        let paths ← swPaths env.toDiskEnv directory
        let live ← readLiveHeaders env paths
        let (exposure, line) ← replayedExposure env live
        let headers ← replayHeaders env replayDir exposure
        if report then
          match headers.get? triggerSensor with
          | none => .error ⟨.other "KeyError", reprText triggerSensor⟩
          | some header =>
              .ok (some headers, line :: substitutionReport env (live.get? triggerSensor) header)
        else .ok (some headers, [])
      else
        .error (.runtime s!"{replayDirVar} is {reprText replayDir}, which is not a directory")

def resolve (env : ReplayEnv A) (directory : String) (report : Bool) :
    Except Exn (ExposureSource A × String) := do
  let (headers, _) ← substitutedHeaders env directory report
  resolveExposureDir env.toDiskEnv directory headers

/-! ### What a map of headers says

A map that was built holds one entry for each file, in their order, under the name that the file's
own header gives.  From then on it can be read backwards: an entry leads to its file, and no other
file names the same detector.
-/

variable {env : ReplayEnv A} {paths live substitutes : List String} {twice : String → Exn}
  {headers : OrderedDict String A.Header} {exposure name : String}

/-- The file's header is this one, and it names its detector so. -/
def Reads (env : ReplayEnv A) (path : String) (entry : String × A.Header) : Prop :=
  env.readHeader path = .ok entry.2 ∧ detectorName env.toCameraEnv entry.2 = .ok entry.1

/-- A file has one header, and names one detector. -/
theorem Reads.unique {path : String} {entry entry' : String × A.Header} (h : Reads env path entry)
    (h' : Reads env path entry') : entry = entry' := by
  have hheader : entry.2 = entry'.2 := Except.ok.inj (h.1.symm.trans h'.1)
  have hname := h'.2
  rw [← hheader] at hname
  exact Prod.ext (Except.ok.inj (h.2.symm.trans hname)) hheader

/-- Each file adds an entry of its own. -/
theorem headersByName_ok {headers' : OrderedDict String A.Header}
    (h : headersByName env twice paths headers = .ok headers') :
    ∃ pairs : List (String × (String × A.Header)), pairs.map Prod.fst = paths ∧
      headers'.entries = headers.entries ++ pairs.map Prod.snd ∧ ∀ p ∈ pairs, Reads env p.1 p.2 := by
  induction paths generalizing headers with
  | nil =>
      unfold headersByName at h
      refine ⟨[], rfl, ?_, fun p hp => absurd hp List.not_mem_nil⟩
      rw [List.map_nil, List.append_nil, Except.ok.inj h]
  | cons path rest ih =>
      unfold headersByName at h
      obtain ⟨header, hheader, h⟩ := Except.bind_eq_ok.mp h
      obtain ⟨name, hname, h⟩ := Except.bind_eq_ok.mp h
      by_cases hmem : name ∈ headers.keys
      · rw [if_pos hmem] at h
        exact absurd h (by simp)
      · rw [if_neg hmem] at h
        obtain ⟨pairs, hfst, hentries, hreads⟩ := ih h
        refine ⟨(path, name, header) :: pairs, congrArg (path :: ·) hfst, ?_,
          List.forall_mem_cons.mpr ⟨⟨hheader, hname⟩, hreads⟩⟩
        rw [hentries, OrderedDict.entries_set_new hmem, List.append_assoc]
        rfl

/-- The map holds the headers of the files, in their order, and no name twice. -/
def HeadersOf (env : ReplayEnv A) (paths : List String) (headers : OrderedDict String A.Header) :
    Prop :=
  ∃ pairs : List (String × (String × A.Header)), pairs.map Prod.fst = paths ∧
    pairs.map Prod.snd = headers.entries ∧ ∀ p ∈ pairs, Reads env p.1 p.2

/-- A map that was built from nothing holds the headers of the files. -/
theorem headersOf_of_empty (h : headersByName env twice paths .empty = .ok headers) :
    HeadersOf env paths headers := by
  obtain ⟨pairs, hfst, hentries, hreads⟩ := headersByName_ok h
  exact ⟨pairs, hfst, hentries.symm, hreads⟩

namespace HeadersOf

theorem length (h : HeadersOf env paths headers) : paths.length = headers.size := by
  obtain ⟨pairs, rfl, hsnd, -⟩ := h
  unfold OrderedDict.size
  rw [← hsnd, List.length_map, List.length_map]

theorem path (h : HeadersOf env paths headers) {entry : String × A.Header}
    (hentry : entry ∈ headers.entries) : ∃ path ∈ paths, Reads env path entry := by
  obtain ⟨pairs, rfl, hsnd, hreads⟩ := h
  rw [← hsnd] at hentry
  obtain ⟨p, hp, rfl⟩ := List.mem_map.mp hentry
  exact ⟨p.1, List.mem_map.mpr ⟨p, hp, rfl⟩, hreads p hp⟩

theorem entry (h : HeadersOf env paths headers) {path : String} (hpath : path ∈ paths) :
    ∃ entry ∈ headers.entries, Reads env path entry := by
  obtain ⟨pairs, rfl, hsnd, hreads⟩ := h
  obtain ⟨p, hp, rfl⟩ := List.mem_map.mp hpath
  refine ⟨p.2, ?_, hreads p hp⟩
  rw [← hsnd]
  exact List.mem_map.mpr ⟨p, hp, rfl⟩

/-- Only one of the files names the detector. -/
theorem only (h : HeadersOf env paths headers) {path path' : String} (hpath : path ∈ paths)
    (hpath' : path' ∈ paths) {entry entry' : String × A.Header} (hread : Reads env path entry)
    (hread' : Reads env path' entry') (hname : entry.1 = entry'.1) : path = path' := by
  obtain ⟨pairs, rfl, hsnd, hreads⟩ := h
  obtain ⟨p, hp, rfl⟩ := List.mem_map.mp hpath
  obtain ⟨p', hp', rfl⟩ := List.mem_map.mp hpath'
  have hnodup : (pairs.map fun p => p.2.1).Nodup := by
    have hkeys := headers.nodup
    rw [← hsnd, List.map_map] at hkeys
    exact hkeys
  rw [hread.unique (hreads p hp), hread'.unique (hreads p' hp')] at hname
  rw [List.inj_on_of_nodup_map hnodup hp hp' hname]

end HeadersOf

/-! ### The marker

Markers are collected with the detectors that carry them, for the sake of the error; there has to
be a single one.
-/

theorem mem_keys_collect {values : OrderedDict String (List String)}
    {entries : List (String × String)} {value : String} :
    value ∈ (entries.foldl collect values).keys ↔
      value ∈ values.keys ∨ value ∈ entries.map Prod.snd := by
  induction entries generalizing values with
  | nil => simp
  | cons entry rest ih =>
      rw [List.foldl_cons, ih, List.map_cons, List.mem_cons]
      unfold collect
      rw [OrderedDict.mem_keys_set]
      tauto

/-- **One marker**: every header carries it, and it is not blank. -/
theorem readEmuimage_ok (h : readEmuimage env headers = .ok exposure) :
    ∀ entry ∈ headers.entries, emuimage env entry.2 = exposure ∧ exposure ≠ "" := by
  unfold readEmuimage at h
  simp only at h
  set read := (headers.entries.insertionSort fun e e' => e.1 ≤ e'.1).map
    fun e => (e.1, emuimage env e.2)
  have hread : ∀ entry ∈ headers.entries, (entry.1, emuimage env entry.2) ∈ read := by
    intro entry hentry
    exact List.mem_map.mpr ⟨entry, (List.perm_insertionSort ..).mem_iff.mpr hentry, rfl⟩
  split at h
  · exact absurd h (by simp)
  · rename_i hmissing
    have hblank : ∀ e ∈ read, e.2 ≠ "" := by
      intro e he hempty
      refine hmissing (List.ne_nil_of_mem (List.mem_map.mpr ⟨e, ?_, rfl⟩))
      exact List.mem_filter.mpr ⟨he, by simpa using hempty⟩
    split at h
    · rename_i value dets hvalues
      have hkeys : (markers (read.filter fun e => e.2 ≠ "")).keys = [exposure] := by
        unfold OrderedDict.keys
        rw [hvalues, ← Except.ok.inj h]
        rfl
      intro entry hentry
      have hne := hblank _ (hread entry hentry)
      have hmem : emuimage env entry.2 ∈ (markers (read.filter fun e => e.2 ≠ "")).keys := by
        refine mem_keys_collect.mpr (Or.inr (List.mem_map.mpr
          ⟨(entry.1, emuimage env entry.2), ?_, rfl⟩))
        exact List.mem_filter.mpr ⟨hread entry hentry, by simpa using hne⟩
      rw [hkeys] at hmem
      have heq := List.mem_singleton.mp hmem
      exact ⟨heq, heq ▸ hne⟩
    · exact absurd h (by simp)

/-! ### The replayed exposure

The steps of the substitution, from the name of the exposure to the headers of its files.
-/

/-- The name the replayed exposure goes by: the pinned one, or else the marker of every live
file. -/
inductive Named (env : ReplayEnv A) (live : List String) (exposure : String) : Prop
  | pinned : env.environ replayObsidVar = some exposure → exposure ≠ "" → Named env live exposure
  | marked : (∀ pin, env.environ replayObsidVar = some pin → pin = "") → exposure ≠ "" →
      (∀ path ∈ live, ∃ header, env.readHeader path = .ok header ∧
        emuimage env header = exposure) → Named env live exposure

theorem replayedExposure_ok {line : String} (hlive : HeadersOf env live headers)
    (hne : live ≠ []) (h : replayedExposure env headers = .ok (exposure, line)) :
    Named env live exposure := by
  have hmarked : readEmuimage env headers = .ok exposure →
      (∀ pin, env.environ replayObsidVar = some pin → pin = "") → Named env live exposure := by
    intro hread hpin
    have hall : ∀ path ∈ live, ∃ header, env.readHeader path = .ok header ∧
        emuimage env header = exposure ∧ exposure ≠ "" := by
      intro path hpath
      obtain ⟨entry, hentry, hreads⟩ := hlive.entry hpath
      exact ⟨entry.2, hreads.1, readEmuimage_ok hread entry hentry⟩
    obtain ⟨path, hpath⟩ := List.exists_mem_of_ne_nil _ hne
    obtain ⟨-, -, -, hexposure⟩ := hall path hpath
    refine .marked hpin hexposure fun path hpath => ?_
    obtain ⟨header, hheader, hvalue, -⟩ := hall path hpath
    exact ⟨header, hheader, hvalue⟩
  unfold replayedExposure at h
  split at h
  · rename_i hnone
    obtain ⟨value, hvalue, h⟩ := Except.bind_eq_ok.mp h
    rw [(Prod.mk.inj (Except.ok.inj h)).1] at hvalue
    exact hmarked hvalue fun pin hpin => absurd (hnone.symm.trans hpin) (by simp)
  · rename_i hempty
    obtain ⟨value, hvalue, h⟩ := Except.bind_eq_ok.mp h
    rw [(Prod.mk.inj (Except.ok.inj h)).1] at hvalue
    exact hmarked hvalue fun pin hpin => (Option.some.inj (hempty.symm.trans hpin)).symm
  · rename_i pinned hpinned hsome
    rw [(Prod.mk.inj (Except.ok.inj h)).1] at hsome hpinned
    exact .pinned hsome hpinned

/-- The substitutes are the headers of eight files of one directory. -/
theorem replayHeaders_ok {replayDir : String}
    (h : replayHeaders env replayDir exposure = .ok headers) :
    ∃ substitutes, swPaths env.toDiskEnv (joinPath replayDir exposure) = .ok substitutes ∧
      HeadersOf env substitutes headers ∧ headers.size = expectedSensors := by
  unfold replayHeaders at h
  simp only at h
  split at h
  · obtain ⟨paths, hpaths, h⟩ := Except.bind_eq_ok.mp h
    obtain ⟨headers', hheaders, h⟩ := Except.bind_eq_ok.mp h
    split at h
    · rename_i hsize
      rw [Except.ok.inj h] at hheaders hsize
      exact ⟨paths, hpaths, headersOf_of_empty hheaders, hsize⟩
    · exact absurd h (by simp)
  · exact absurd h (by simp)

/-- **The substitution.**  With a replay tree there are substitutes, all of the one directory
that the pin or the live files name. -/
theorem substitutedHeaders_ok {directory replayDir : String} {report : Bool}
    {result : Option (OrderedDict String A.Header)} {lines : List String}
    (hset : env.environ replayDirVar = some replayDir) (hne : replayDir ≠ "")
    (h : substitutedHeaders env directory report = .ok (result, lines)) :
    ∃ headers live liveHeaders exposure substitutes, result = some headers ∧
      swPaths env.toDiskEnv directory = .ok live ∧ HeadersOf env live liveHeaders ∧
      Named env live exposure ∧
      swPaths env.toDiskEnv (joinPath replayDir exposure) = .ok substitutes ∧
      HeadersOf env substitutes headers ∧ headers.size = expectedSensors := by
  unfold substitutedHeaders at h
  split at h
  · rename_i hnone
    exact absurd (hnone.symm.trans hset) (by simp)
  · rename_i hempty
    exact absurd (Option.some.inj (hempty.symm.trans hset)).symm hne
  · rename_i replayDir' _ hsome
    obtain rfl := Option.some.inj (hsome.symm.trans hset)
    split at h
    · obtain ⟨live, hlive, h⟩ := Except.bind_eq_ok.mp h
      obtain ⟨liveHeaders, hliveHeaders, h⟩ := Except.bind_eq_ok.mp h
      obtain ⟨⟨exposure, line⟩, hexposure, h⟩ := Except.bind_eq_ok.mp h
      obtain ⟨headers, hheaders, h⟩ := Except.bind_eq_ok.mp h
      have hof := headersOf_of_empty hliveHeaders
      obtain ⟨substitutes, hsubstitutes, hsub, hsize⟩ := replayHeaders_ok hheaders
      have hnamed := replayedExposure_ok hof (swPaths_ok hlive).2 hexposure
      have hresult : result = some headers := by
        split at h
        · split at h
          · exact absurd h (by simp)
          · exact (Prod.mk.inj (Except.ok.inj h)).1.symm
        · exact (Prod.mk.inj (Except.ok.inj h)).1.symm
      exact ⟨headers, live, liveHeaders, exposure, substitutes, hresult, hlive, hof, hnamed,
        hsubstitutes, hsub, hsize⟩
    · exact absurd h (by simp)

/-! ### Nothing is mixed

Eight handles come of a resolved replay, and there are eight substitutes.  Each live file has the
one that names its detector, and different files have different ones, so that all of both are used.
-/

variable {directory replayDir imgtype : String} {report : Bool} {source : ExposureSource A}

/-- A handle keeps a live file and the number of its detector, under the header of the one
substitute that names the same detector, which is of this exposure. -/
structure Matched (env : ReplayEnv A) (live substitutes : List String) (visit : Int)
    (handle : RawHandle A) : Prop where
  isLive : handle.path ∈ live
  detector : ∃ header info, env.readHeader handle.path = .ok header ∧
    env.obsInfo header handle.path = .ok info ∧ handle.detectorNum = info.detectorNum
  substitute : ∃ name header path, Reads env handle.path (name, header) ∧ path ∈ substitutes ∧
    Reads env path (name, handle.header) ∧
    ∀ other ∈ substitutes, ∀ header', Reads env other (name, header') → other = path
  exposure : ∃ info, env.obsInfo handle.header handle.path = .ok info ∧
    info.exposureId = .ok visit

/-- A file that is resolved with substitutes has the one that names its detector. -/
theorem resolveFile_name {path : String} {f : ResolvedFile A}
    (h : resolveFile env.toDiskEnv (some headers) path = .ok f) :
    ∃ name live, Reads env path (name, live) ∧ (name, f.handle.header) ∈ headers.entries := by
  obtain ⟨live, name, -, -, hlive, hname, -, hheader, -⟩ := resolveFile_ok h
  refine ⟨name, live, ⟨hlive, hname⟩, ?_⟩
  unfold substitute at hheader
  simp only at hheader
  split at hheader
  · rename_i header hget
    rw [← Except.ok.inj hheader]
    exact OrderedDict.mem_of_get? hget
  · exact absurd hheader (by simp)

theorem resolveFile_matched (hsub : HeadersOf env substitutes headers) {path : String}
    (hpath : path ∈ live) {f : ResolvedFile A}
    (h : resolveFile env.toDiskEnv (some headers) path = .ok f) :
    Matched env live substitutes f.exposureId f.handle := by
  obtain ⟨name, liveHeader, hreads, hentry⟩ := resolveFile_name h
  obtain ⟨header, -, liveInfo, info, hlive, -, hliveInfo, -, hinfo, hid, rfl, hnum⟩ :=
    resolveFile_ok h
  obtain ⟨path', hpath', hread'⟩ := hsub.path hentry
  refine ⟨hpath, ⟨header, liveInfo, hlive, hliveInfo, hnum⟩, ?_, ⟨info, hinfo, hid⟩⟩
  refine ⟨name, liveHeader, path', hreads, hpath', hread', fun other hother header' hread => ?_⟩
  exact hsub.only hother hpath' hread hread' rfl

/-- Every live file has a substitute, and no two have the same; so there are no more of them. -/
theorem length_live_le {liveHeaders : OrderedDict String A.Header}
    (hlive : HeadersOf env live liveHeaders)
    (h : ∀ path ∈ live, ∃ name header substituted, Reads env path (name, header) ∧
      (name, substituted) ∈ headers.entries) : live.length ≤ headers.size := by
  have hsub : liveHeaders.keys ⊆ headers.keys := by
    intro name hname
    obtain ⟨entry, hentry, rfl⟩ := List.mem_map.mp hname
    obtain ⟨path, hpath, hread⟩ := hlive.path hentry
    obtain ⟨name, header, substituted, hread', hmem⟩ := h path hpath
    rw [hread.unique hread']
    exact List.mem_map.mpr ⟨_, hmem, rfl⟩
  have hle := (List.subperm_of_subset liveHeaders.nodup hsub).length_le
  rw [hlive.length]
  unfold OrderedDict.keys at hle
  rwa [List.length_map, List.length_map] at hle

/-- What was read, and what became of it: with a replay tree, a source that is returned has a
handle for each of the live files found, eight in all, and the substitutes are the eight files
found under the one name that the pin or the marker of every live file gives. -/
theorem resolve_matched (hset : env.environ replayDirVar = some replayDir)
    (hne : replayDir ≠ "") (h : resolve env directory report = .ok (source, imgtype)) :
    ∃ live exposure substitutes, swPaths env.toDiskEnv directory = .ok live ∧
      Named env live exposure ∧
      swPaths env.toDiskEnv (joinPath replayDir exposure) = .ok substitutes ∧
      substitutes.length = expectedSensors ∧ source.handles.size = expectedSensors ∧
      source.handles.entries.map (fun entry => entry.2.path) = live ∧
      ∀ entry ∈ source.handles.entries, entry.2.detectorNum = entry.1 ∧
        Matched env live substitutes source.visit entry.2 := by
  unfold resolve at h
  obtain ⟨⟨result, lines⟩, hheaders, h⟩ := Except.bind_eq_ok.mp h
  obtain ⟨headers, live, liveHeaders, exposure, substitutes, rfl, hlive, hof, hnamed,
    hsubstitutes, hsub, hsize⟩ := substitutedHeaders_ok hset hne hheaders
  obtain ⟨paths, files, hpaths, hfiles, hhandles, hcount, hvisit, -⟩ := resolveExposureDir_ok h
  obtain rfl := Except.ok.inj (hlive.symm.trans hpaths)
  obtain ⟨pairs, hfst, rfl, hpairs⟩ := Except.mapM_eq_ok.mp hfiles
  have hlength : live.length ≤ expectedSensors := by
    rw [← hsize]
    refine length_live_le hof fun path hpath => ?_
    rw [← hfst] at hpath
    obtain ⟨p, hp, rfl⟩ := List.mem_map.mp hpath
    obtain ⟨name, header, hread, hmem⟩ := resolveFile_name (hpairs p hp)
    exact ⟨name, header, _, hread, hmem⟩
  -- No handle took the place of another, so they stand in the order of the files.
  have hentries : source.handles.entries =
      (pairs.map Prod.snd).map fun f => (f.handle.detectorNum, f.handle) := by
    rw [hhandles]
    refine OrderedDict.entries_update (OrderedDict.nodup_of_size_update ?_)
    rw [hhandles] at hcount
    show _ ≤ (handlesOf _).size
    rw [hcount, List.length_map, List.length_map]
    rwa [← hfst, List.length_map] at hlength
  refine ⟨live, exposure, substitutes, hlive, hnamed, hsubstitutes, hsub.length.trans hsize,
    hcount, ?_, fun entry hentry => ⟨source.keyed entry hentry, ?_⟩⟩
  · rw [hentries, List.map_map, List.map_map, ← hfst]
    refine List.map_congr_left fun p hp => ?_
    obtain ⟨-, -, -, -, -, -, -, -, -, -, hpath, -⟩ := resolveFile_ok (hpairs p hp)
    exact hpath
  · rw [hentries] at hentry
    obtain ⟨f, hf, rfl⟩ := List.mem_map.mp hentry
    obtain ⟨p, hp, rfl⟩ := List.mem_map.mp hf
    rw [← hvisit p.2 hf]
    refine resolveFile_matched hsub ?_ (hpairs p hp)
    rw [← hfst]
    exact List.mem_map.mpr ⟨p, hp, rfl⟩

/-! ### Where the files are

All this is about the files that were found, and says nothing yet of where they lie.  They are
found by patterns that are put together from two texts: the live directory, which a client
names, and the replayed exposure, which a header names.  Either may be read as a pattern for
other directories, and the second may lead out of the replay tree, since a join goes wherever
its second half says.  Where neither does, nothing is mixed; and there is no other way.
-/

/-- **Nothing is mixed.**  The eight handles are those of the live directory's own files, under
their own detectors; each has the header of the one substitute that names the same detector;
and the substitutes are the eight files of the one directory of the replay tree that the pin
or the marker of every live file names, all of one exposure. -/
def NeverMixed (env : ReplayEnv A) (replayDir directory : String) (source : ExposureSource A) :
    Prop :=
  let live := ownPaths env.toFileTree directory
  ∃ exposure, Named env live exposure ∧ InTree replayDir (joinPath replayDir exposure) ∧
    let substitutes := ownPaths env.toFileTree (joinPath replayDir exposure)
    swPaths env.toDiskEnv directory = .ok live ∧
    swPaths env.toDiskEnv (joinPath replayDir exposure) = .ok substitutes ∧
    substitutes.length = expectedSensors ∧ source.handles.size = expectedSensors ∧
    source.handles.entries.map (fun entry => entry.2.path) = live ∧
    ∀ entry ∈ source.handles.entries, entry.2.detectorNum = entry.1 ∧
      Matched env live substitutes source.visit entry.2

/-- Neither the live path nor that of the replayed exposure finds the files of any other
directory, and the exposure's name does not lead out of the tree. -/
def KeepsToTree (env : ReplayEnv A) (replayDir directory : String) : Prop :=
  Literal env.toFileTree directory ∧
    ∀ exposure, Named env (sortedPaths env.toFileTree directory) exposure →
      Literal env.toFileTree (joinPath replayDir exposure) ∧
        InTree replayDir (joinPath replayDir exposure)

/-- An exposure that is replayed has one name. -/
theorem Named.unique {exposure' : String} (h : Named env live exposure)
    (h' : Named env live exposure') (hne : live ≠ []) : exposure = exposure' := by
  cases h with
  | pinned hpin hexposure =>
      cases h' with
      | pinned hpin' _ => exact Option.some.inj (hpin.symm.trans hpin')
      | marked hnone _ _ => exact absurd (hnone _ hpin) hexposure
  | marked hnone _ hall =>
      cases h' with
      | pinned hpin' hexposure' => exact absurd (hnone _ hpin') hexposure'
      | marked _ _ hall' =>
          obtain ⟨path, hpath⟩ := List.exists_mem_of_ne_nil _ hne
          obtain ⟨header, hread, rfl⟩ := hall path hpath
          obtain ⟨header', hread', rfl⟩ := hall' path hpath
          rw [Except.ok.inj (hread.symm.trans hread')]

/-- **When a replay mixes nothing.**  Of a replay that is resolved, everything is as it should
be exactly if the paths find no files of other directories and the exposure's name keeps to
the tree. -/
theorem replay_never_mixes (hset : env.environ replayDirVar = some replayDir)
    (hne : replayDir ≠ "") (h : resolve env directory report = .ok (source, imgtype)) :
    NeverMixed env replayDir directory source ↔ KeepsToTree env replayDir directory := by
  obtain ⟨live, exposure, substitutes, hlive, hnamed, hsub, hlength, hsize, hpaths, hall⟩ :=
    resolve_matched hset hne h
  obtain ⟨hfound, hnil⟩ := swPaths_ok hlive
  constructor
  · intro hmixed
    obtain ⟨exposure', hnamed', hin, hlive', hsub', -⟩ := hmixed
    have hown : live = ownPaths env.toFileTree directory :=
      Except.ok.inj (hlive.symm.trans hlive')
    refine ⟨hfound.trans hown, fun exposure'' hnamed'' => ?_⟩
    rw [hfound, hown] at hnamed''
    obtain rfl := hnamed'.unique hnamed'' (hown ▸ hnil)
    exact ⟨(swPaths_ok hsub').1, hin⟩
  · intro hkeeps
    obtain ⟨hliteral, hexposure⟩ := hkeeps
    obtain ⟨hliteral', hin⟩ := hexposure exposure (hfound.symm ▸ hnamed)
    have hown : live = ownPaths env.toFileTree directory := hfound.symm.trans hliteral
    have hown' : substitutes = ownPaths env.toFileTree (joinPath replayDir exposure) :=
      (swPaths_ok hsub).1.symm.trans hliteral'
    subst hown
    subst hown'
    exact ⟨exposure, hnamed, hin, hlive, hsub, hlength, hsize, hpaths, hall⟩

/-! ### A replay of one exposure

A live directory and an exposure in the replay tree, with eight files each.  In the second example
the marker leads out of the tree.
-/

/-- The cards of a header that are looked at. -/
structure BenchHeader where
  raft : String
  slot : String
  emuimage : Option String
  exposureId : Int

def replayAfw : Afw := ⟨BenchHeader, Unit, Unit, Unit, Unit⟩

/-- The numbers of the corner sensors. -/
def cornerNumbers : List (String × Nat) :=
  [("R00_SW0", 191), ("R00_SW1", 192), ("R04_SW0", 195), ("R04_SW1", 196),
    ("R40_SW0", 199), ("R40_SW1", 200), ("R44_SW0", 203), ("R44_SW1", 204)]

/-- A file of directory `live` was written by the emulator, any other by the camera. -/
def benchHeader (path : String) : BenchHeader :=
  let sensor := path.toList.reverse.drop 5
  let emulated := path.toList.take 4 = ['l', 'i', 'v', 'e']
  { raft := String.ofList ((sensor.drop 4).take 3).reverse
    slot := String.ofList (sensor.take 3).reverse
    emuimage := if emulated then some "original" else none
    exposureId := if emulated then 2 else 1 }

/-- A resolver reads headers, and nothing else. -/
def notRead {α : Type} : Except Exn α := .error (.runtime "not read")

/-- Both directories hold the eight files of an exposure. -/
def benchReplay : ReplayEnv replayAfw :=
  { camera := fun _ => notRead
    imageFitsReader := fun _ _ => notRead
    asFloat := fun n => pixelOf (BigEndian.encode 4 n.toNat)
    fixAmpGeometry := fun _ _ _ => notRead
    calcRawCcdBBox := fun _ => ⟨0, 0, 1, 1⟩
    makeUpdatedDetector := id
    attachRawWcsFromBoresight := fun _ => notRead
    physicalFilter := fun _ _ => .ok "r_57"
    physicalToBand := fun _ => .ok "r"
    card := fun header key =>
      if key = "RAFTBAY" then .ok header.raft
      else if key = "CCDSLOT" then .ok header.slot
      else .error key
    dumps := fun _ => []
    loads := fun _ => notRead
    couldNotBroadcast := fun _ _ => .runtime "could not broadcast"
    notContained := fun _ _ => .runtime "not contained"
    noDetector := .runtime "no detector"
    bufferTooSmall := .runtime "buffer is too small"
    listing := fun _ => cornerNumbers.map fun entry => s!"a_{entry.1}.fits"
    readHeader := fun path => .ok (benchHeader path)
    obsInfo := fun header _ =>
      .ok ⟨(cornerNumbers.lookup s!"{header.raft}_{header.slot}").getD 0, "r_57",
        .ok header.exposureId, "CWFS", some (0, 0), .ok "2026-01-01T00:00:00"⟩
    isDir := fun _ => true
    lexists := fun _ => true
    environ := fun name => if name = replayDirVar then some "tree" else none
    cardText := fun header key => if key = emuimageCard then header.emuimage else none
    sameCard := fun _ _ _ => true }

/-- The marker that the replay's files carry. -/
theorem benchReplay_named {env : ReplayEnv replayAfw} {marker exposure : String}
    (hread : ∀ path, env.readHeader path = .ok (benchHeader path))
    (hmarker : emuimage env (benchHeader "live/a_R00_SW0.fits") = marker)
    (hpin : env.environ replayObsidVar = none)
    (hmem : "live/a_R00_SW0.fits" ∈ live) (h : Named env live exposure) : exposure = marker := by
  cases h with
  | pinned hset _ => exact absurd (hpin.symm.trans hset) nofun
  | marked _ _ hall =>
      obtain ⟨header, hheader, rfl⟩ := hall _ hmem
      rw [← hmarker, Except.ok.inj ((hread _).symm.trans hheader)]

/-- The replay is resolved, with the headers of the exposure it was made from. -/
theorem replay_never_mixes_replayed :
    ∃ source imgtype, resolve benchReplay "live" false = .ok (source, imgtype) ∧
      NeverMixed benchReplay "tree" "live" source := by
  have hrun : (resolve benchReplay "live" false).toOption.isSome = true := by decide +kernel
  rcases hresolve : resolve benchReplay "live" false with exc | ⟨source, imgtype⟩
  · rw [hresolve] at hrun
    exact absurd hrun (by simp [Except.toOption])
  · have hset : benchReplay.environ replayDirVar = some "tree" := rfl
    refine ⟨source, imgtype, rfl, (replay_never_mixes hset (by simp) hresolve).mpr ⟨?_, ?_⟩⟩
    · exact literal_of_plain (by decide)
    · intro exposure hnamed
      have hexposure : exposure = "original" := benchReplay_named (fun _ => rfl)
        (by decide +kernel) rfl (by decide +kernel) hnamed
      rw [hexposure]
      exact ⟨literal_of_plain (by decide +kernel), by decide +kernel⟩

/-- The same files, written by an emulator that was told of an exposure beside the tree. -/
def benchBeside : ReplayEnv replayAfw :=
  { benchReplay with
    cardText := fun header key =>
      if key = emuimageCard then header.emuimage.map fun _ => "../beside/original" else none }

/-- **Out of the tree.**  The marker leads back over the replay directory, and all eight
substitutes are read from a directory that is not in it. -/
theorem replay_leaves_tree :
    ∃ source imgtype, resolve benchBeside "live" false = .ok (source, imgtype) ∧
      (swPaths benchBeside.toDiskEnv "tree/../beside/original").toOption =
        some (cornerNumbers.map fun entry => s!"tree/../beside/original/a_{entry.1}.fits") ∧
      ¬ NeverMixed benchBeside "tree" "live" source := by
  have hrun : (resolve benchBeside "live" false).toOption.isSome = true := by decide +kernel
  rcases hresolve : resolve benchBeside "live" false with exc | ⟨source, imgtype⟩
  · rw [hresolve] at hrun
    exact absurd hrun (by simp [Except.toOption])
  · refine ⟨source, imgtype, rfl, by decide +kernel, fun hmixed => ?_⟩
    obtain ⟨exposure, hnamed, hin, -⟩ := hmixed
    have hexposure : exposure = "../beside/original" := benchReplay_named (fun _ => rfl)
      (by decide +kernel) rfl (by decide +kernel) hnamed
    rw [hexposure] at hin
    exact absurd hin (by decide +kernel)

end DonutServer.Producer
