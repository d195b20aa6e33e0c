/-
The files of a source, and the parts the two encoders make of them.

Every encoder goes through the source's files in the order of their detectors' numbers.
`loadAll` is what the files give when each is loaded, and both encoders send just that:
the serial one with a pixel of the image in each stub (`buildRawParts_sent`), the parallel
one with a zero there (`buildPartsParallel_sent`).
-/
import DonutServer.Producer.Blob

namespace DonutServer.Producer

open PyText

variable {A : Afw} {env : CameraEnv A} {host : Host} {source : RawSource A}

/-- Every file of the source keeps what the producer relies on. -/
def RawSource.Sound (env : CameraEnv A) (source : RawSource A) : Prop :=
  ∀ entry ∈ source.handles.entries, entry.2.Sound env

/-! ### In the order of the detectors

The numbers are keys of a dict, so that they are different, and the sorted list of them is the
dict's entries in another order.
-/

/-- The same files, in the order of their numbers. -/
theorem RawSource.sorted_perm (source : RawSource A) :
    source.sorted.Perm source.handles.entries := List.perm_insertionSort ..

/-- No number comes twice. -/
theorem RawSource.nodup_sorted (source : RawSource A) : (source.sorted.map Prod.fst).Nodup :=
  (source.sorted_perm.map Prod.fst).nodup_iff.mpr source.handles.nodup

/-- A file is in that list just when the source has it. -/
theorem RawSource.mem_sorted {entry : Nat × RawHandle A} :
    entry ∈ source.sorted ↔ entry ∈ source.handles.entries := source.sorted_perm.mem_iff

/-- What every file gives. -/
def loadAll (env : CameraEnv A) (source : RawSource A) : Except Exn (List (Loaded A)) :=
  source.sorted.mapM fun entry => loaded env entry.2

/-! ### Names

Parts go by the names of the detectors, and the source by their numbers.  The camera gives
different detectors different names, so nothing is lost on the way from the one to the other.
-/

/-- A loaded file carries the camera's name for its detector. -/
theorem loaded_name (henv : env.Sound) {handle : RawHandle A} {l : Loaded A}
    (h : loaded env handle = .ok l) :
    ∃ d, env.camera handle.detectorNum = .ok d ∧ l.name = d.name := by
  obtain ⟨fixed, p, array, hfixed, -, -, ha⟩ := assembleImage_ok.mp (loaded_ok.mp h).1
  obtain ⟨d, pairs, hd, -, rfl⟩ := fixedDetector_ok hfixed
  refine ⟨d, hd, ?_⟩
  unfold Loaded.name
  rw [ha]
  exact henv.updatedName _

/-- Keys that can be told from other keys are distinct when those are. -/
theorem nodup_map_of_inj {α β γ : Type} {f : α → β} {g : α → γ} {l : List α}
    (h : (l.map g).Nodup) (hinj : ∀ a ∈ l, ∀ b ∈ l, f a = f b → g a = g b) :
    (l.map f).Nodup := by
  refine List.Nodup.map_on ?_ (List.Nodup.of_map g h)
  intro a ha b hb heq
  exact List.inj_on_of_nodup_map h ha hb (hinj a ha b hb heq)

/-- **No two files of a source load under one name.** -/
theorem nodup_loaded (henv : env.Sound) {ls : List (Loaded A)}
    (h : loadAll env source = .ok ls) : (ls.map Loaded.name).Nodup := by
  obtain ⟨pairs, hfst, rfl, hpairs⟩ := Except.mapM_eq_ok.mp h
  rw [List.map_map]
  have hkeys : (pairs.map fun p => p.1.1).Nodup := by
    have hnodup := source.nodup_sorted
    rw [← hfst, List.map_map] at hnodup
    exact hnodup
  have hkeyed : ∀ p ∈ pairs, p.1.2.detectorNum = p.1.1 := by
    intro p hp
    refine source.keyed p.1 (RawSource.mem_sorted.mp ?_)
    rw [← hfst]
    exact List.mem_map.mpr ⟨p, hp, rfl⟩
  refine nodup_map_of_inj hkeys ?_
  intro p hp q hq heq
  obtain ⟨d, hd, hname⟩ := loaded_name henv (hpairs p hp)
  obtain ⟨d', hd', hname'⟩ := loaded_name henv (hpairs q hq)
  have hnum := henv.distinctNames _ _ d d' hd hd' (hname.symm.trans (heq.trans hname'))
  rw [hkeyed p hp, hkeyed q hq] at hnum
  exact hnum

/-! ### What is sent

`sent` is what either encoder sends, but for the pixel that it puts into each stub; so both are
instances of one map, and what is said of that map holds of both.
-/

/-- The two parts of each loaded file, under its detector's name.  `pixel` is what the stub
carries. -/
def sent (env : CameraEnv A) (pixel : Loaded A → Pixel) (ls : List (Loaded A))
    (hnames : (ls.map Loaded.name).Nodup) : OrderedDict String (Bytes × Bytes) :=
  ⟨ls.map fun l => (l.name, (l.img, l.pickle env (pixel l))), by
    rw [List.map_map]
    exact hnames⟩

/-- A map's parts have names of their own. -/
theorem nodup_wireParts (m : OrderedDict String (Bytes × Bytes)) :
    ((wireParts m).map Prod.fst).Nodup := by
  have hperm : ((wireParts m).map Prod.fst).Perm
      (m.keys.map (partName · imgSuffix) ++ m.keys.map (partName · metaSuffix)) := by
    unfold wireParts OrderedDict.keys
    rw [List.map_flatMap, List.map_map, List.map_map, List.map_eq_flatMap, List.map_eq_flatMap]
    exact (List.flatMap_append_perm m.entries (fun entry => [partName entry.1 imgSuffix])
      fun entry => [partName entry.1 metaSuffix]).symm
  exact hperm.nodup_iff.mpr (nodup_partNames m.nodup)

/-- The serial encoder slices its stub out of the image. -/
def Loaded.firstPixel (l : Loaded A) : Pixel := l.assembled.array.pixel 0 0

/-- Whatever the serial encoder's arrays happen to hold, it loads each file. -/
theorem loadRaw_loaded {handle : RawHandle A} (hsound : handle.Sound env)
    {scratch : Nat → Nat → Pixel} {exp : Exposure A} :
    loadRaw env scratch handle = .ok exp ↔
      ∃ l, loaded env handle = .ok l ∧ exp = l.exposure := by
  constructor
  · intro h
    obtain ⟨a, stub, ha, hstub, rfl⟩ := loadRaw_ok.mp h
    have hfresh := assembleImage_fresh hsound scratch blank ha
    exact ⟨⟨a, stub⟩, loaded_ok.mpr ⟨hfresh, hstub⟩, rfl⟩
  · intro h
    obtain ⟨l, hl, rfl⟩ := h
    obtain ⟨ha, hstub⟩ := loaded_ok.mp hl
    exact loadRaw_ok.mpr ⟨_, _, assembleImage_fresh hsound blank scratch ha, hstub, rfl⟩

/-- A loaded file carries the detector it was assembled with. -/
theorem loaded_detector (henv : env.Sound) {handle : RawHandle A} {l : Loaded A}
    (h : loaded env handle = .ok l) : l.stub.info.detector = some l.assembled.detector :=
  buildStub_detector henv (loaded_ok.mp h).2

/-- The serial encoder, file by file. -/
theorem rawParts_ok (henv : env.Sound) {scratch : Nat → Nat → Pixel}
    {entries : List (Nat × RawHandle A)} (hsound : ∀ entry ∈ entries, entry.2.Sound env) :
    ∀ {parts parts' : OrderedDict String Bytes},
      rawParts env (loadRaw env scratch) entries parts = .ok parts' →
      ∃ ls, entries.mapM (fun entry => loaded env entry.2) = .ok ls ∧
        parts' = parts.update (ls.flatMap fun l => [(partName l.name imgSuffix, l.img),
          (partName l.name metaSuffix, l.pickle env l.firstPixel)]) := by
  induction entries with
  | nil =>
      intro parts parts' h
      unfold rawParts at h
      exact ⟨[], rfl, (Except.ok.inj h).symm⟩
  | cons entry rest ih =>
      intro parts parts' h
      unfold rawParts at h
      obtain ⟨exp, hexp, hnamed⟩ := Except.bind_eq_ok.mp h
      obtain ⟨name, hname, hsent⟩ := Except.bind_eq_ok.mp hnamed
      obtain ⟨encoded, hencoded, hrest⟩ := Except.bind_eq_ok.mp hsent
      obtain ⟨l, hl, rfl⟩ := (loadRaw_loaded (hsound entry (List.mem_cons_self ..))).mp hexp
      have hname' : name = l.name := by
        unfold Exposure.detectorName at hname
        rw [show l.exposure.info.detector = l.stub.info.detector from rfl,
          loaded_detector henv hl] at hname
        exact (Except.ok.inj hname).symm
      have hencoded' : encoded = (l.img, l.pickle env l.firstPixel) :=
        encodeExposure_ok (assembleImage_shape (loaded_ok.mp hl).1) hencoded
      obtain ⟨ls, hls, hparts⟩ := ih (fun e he => hsound e (List.mem_cons_of_mem _ he)) hrest
      refine ⟨l :: ls, ?_, ?_⟩
      · rw [List.mapM_cons]
        exact Except.bind_eq_ok.mpr ⟨l, hl, Except.bind_eq_ok.mpr ⟨ls, hls, rfl⟩⟩
      · rw [hparts, hname', hencoded']
        rfl

/-- **The serial encoder sends what the files give**, and in each stub a pixel of its image. -/
theorem buildRawParts_sent (henv : env.Sound) (hsource : source.Sound env)
    {scratch : Nat → Nat → Pixel} {parts : OrderedDict String Bytes}
    (h : buildRawParts env (loadRaw env scratch) source = .ok parts) :
    ∃ ls, loadAll env source = .ok ls ∧
      ∀ hnames, parts.entries = wireParts (sent env Loaded.firstPixel ls hnames) := by
  have hsound : ∀ entry ∈ source.sorted, entry.2.Sound env :=
    fun entry hentry => hsource entry (RawSource.mem_sorted.mp hentry)
  obtain ⟨ls, hls, rfl⟩ := rawParts_ok henv hsound h
  refine ⟨ls, hls, ?_⟩
  intro hnames
  have hwire : wireParts (sent env Loaded.firstPixel ls hnames) =
      ls.flatMap fun l => [(partName l.name imgSuffix, l.img),
        (partName l.name metaSuffix, l.pickle env l.firstPixel)] := by
    unfold wireParts sent
    rw [List.flatMap_map]
  rw [← hwire]
  exact OrderedDict.entries_update (nodup_wireParts _)

/-! ### The parallel encoder

It reads the headers and asks the camera for the shapes before it loads anything, so its list of
sensors is made by loops of its own.  Side by side with what the files load as, the two lists go in
pairs.
-/

/-- Two loops over the same input, side by side. -/
theorem zip_pairs {α β γ : Type} {bs : List (α × β)} : ∀ {cs : List (α × γ)},
    bs.map Prod.fst = cs.map Prod.fst →
    let both := (bs.map Prod.fst).zip ((bs.map Prod.snd).zip (cs.map Prod.snd))
    both.map Prod.fst = bs.map Prod.fst ∧
      ∀ t ∈ both, (t.1, t.2.1) ∈ bs ∧ (t.1, t.2.2) ∈ cs := by
  induction bs with
  | nil =>
      intro cs _
      exact ⟨rfl, fun t ht => absurd ht List.not_mem_nil⟩
  | cons b bs ih =>
      intro cs h
      obtain ⟨c, cs', rfl, hhead, htail⟩ := List.map_eq_cons_iff.mp h.symm
      obtain ⟨hfst, hmem⟩ := ih htail.symm
      refine ⟨congrArg (b.1 :: ·) hfst, ?_⟩
      intro t ht
      rcases List.mem_cons.mp ht with rfl | hrest
      · exact ⟨List.mem_cons_self .., List.mem_cons.mpr (Or.inl (by rw [← hhead]))⟩
      · exact ⟨List.mem_cons_of_mem _ (hmem t hrest).1, List.mem_cons_of_mem _ (hmem t hrest).2⟩

/-- The sensors of a source: its files in order, each with its name and shape. -/
theorem readSensors_ok {sensors : List (Sensor A)} :
    readSensors env source = .ok sensors ↔
      sensors.map (fun s => (s.detId, s.handle)) = source.sorted ∧
        ∀ s ∈ sensors, detectorName env s.handle.header = .ok s.name ∧
          imageShape env s.handle = .ok s.shape := by
  unfold readSensors
  constructor
  · intro h
    obtain ⟨names, hnames, hshaped⟩ := Except.bind_eq_ok.mp h
    obtain ⟨shapes, hshapes, hsensors⟩ := Except.bind_eq_ok.mp hshaped
    obtain ⟨named, hfst, rfl, hnamed⟩ := Except.mapM_eq_ok.mp hnames
    obtain ⟨shaped, hfst', rfl, hshape⟩ := Except.mapM_eq_ok.mp hshapes
    obtain ⟨hboth, hmem⟩ := zip_pairs (hfst.trans hfst'.symm)
    rw [hfst] at hboth hmem
    rw [← Except.ok.inj hsensors]
    refine ⟨?_, ?_⟩
    · rw [List.map_map]
      exact hboth
    · intro s hs
      obtain ⟨t, ht, rfl⟩ := List.mem_map.mp hs
      exact ⟨hnamed _ (hmem t ht).1, hshape _ (hmem t ht).2⟩
  · intro h
    obtain ⟨hsorted, hsensors⟩ := h
    refine Except.bind_eq_ok.mpr ⟨sensors.map Sensor.name, ?_,
      Except.bind_eq_ok.mpr ⟨sensors.map Sensor.shape, ?_, ?_⟩⟩
    · refine Except.mapM_eq_ok.mpr
        ⟨sensors.map fun s => ((s.detId, s.handle), s.name), ?_, List.map_map, ?_⟩
      · rw [List.map_map]
        exact hsorted
      · intro p hp
        obtain ⟨s, hs, rfl⟩ := List.mem_map.mp hp
        exact (hsensors s hs).1
    · refine Except.mapM_eq_ok.mpr
        ⟨sensors.map fun s => ((s.detId, s.handle), s.shape), ?_, List.map_map, ?_⟩
      · rw [List.map_map]
        exact hsorted
      · intro p hp
        obtain ⟨s, hs, rfl⟩ := List.mem_map.mp hp
        exact (hsensors s hs).2
    · rw [← hsorted, List.zip_map', List.zip_map', List.map_map]
      exact congrArg _ (List.map_id _)

/-- A choice for each entry of a list. -/
theorem exists_pairs {α β : Type} {P : α × β → Prop} {l : List α} (h : ∀ a ∈ l, ∃ b, P (a, b)) :
    ∃ ps : List (α × β), ps.map Prod.fst = l ∧ ∀ p ∈ ps, P p := by
  induction l with
  | nil => exact ⟨[], rfl, fun p hp => absurd hp List.not_mem_nil⟩
  | cons a rest ih =>
      obtain ⟨⟨b, hb⟩, hrest⟩ := List.forall_mem_cons.mp h
      obtain ⟨ps, hps, hall⟩ := ih hrest
      exact ⟨(a, b) :: ps, congrArg (a :: ·) hps, List.forall_mem_cons.mpr ⟨hb, hall⟩⟩

/-- The sensors of a source, each with what its file gives. -/
structure Paired (env : CameraEnv A) (source : RawSource A) (es : List (Sensor A × Loaded A)) :
    Prop where
  sensors : readSensors env source = .ok (es.map Prod.fst)
  encodes : ∀ e ∈ es, Encodes env e

namespace Paired

variable {es : List (Sensor A × Loaded A)}

theorem sorted (h : Paired env source es) :
    es.map (fun e => (e.1.detId, e.1.handle)) = source.sorted := by
  have hsorted := (readSensors_ok.mp h.sensors).1
  rw [List.map_map] at hsorted
  exact hsorted

theorem loadAll (h : Paired env source es) :
    loadAll env source = .ok (es.map Prod.snd) := by
  refine Except.mapM_eq_ok.mpr
    ⟨es.map fun e => ((e.1.detId, e.1.handle), e.2), ?_, List.map_map, ?_⟩
  · rw [List.map_map]
    exact h.sorted
  · intro p hp
    obtain ⟨e, he, rfl⟩ := List.mem_map.mp hp
    exact (h.encodes e he).loads

/-- The header's name is the one the file loads under. -/
theorem name (henv : env.Sound) (h : Paired env source es) {e : Sensor A × Loaded A}
    (he : e ∈ es) : e.1.name = e.2.name := by
  obtain ⟨d, hd, hname⟩ := loaded_name henv (h.encodes e he).loads
  have hheader := ((readSensors_ok.mp h.sensors).2 e.1 (List.mem_map.mpr ⟨e, he, rfl⟩)).1
  rw [(h.encodes e he).sound.named d hd] at hheader
  rw [hname]
  exact (Except.ok.inj hheader).symm

/-- The names of the sensors are those that the files load under. -/
theorem names (henv : env.Sound) (h : Paired env source es) :
    (es.map fun e => e.1.name) = (es.map Prod.snd).map Loaded.name := by
  rw [List.map_map]
  exact List.map_congr_left fun e he => h.name henv he

theorem nodup_ids (h : Paired env source es) : (es.map fun e => e.1.detId).Nodup := by
  have hnodup := source.nodup_sorted
  rw [← h.sorted, List.map_map] at hnodup
  exact hnodup

theorem nodup_names (henv : env.Sound) (h : Paired env source es) :
    (es.map fun e => e.1.name).Nodup :=
  h.names henv ▸ nodup_loaded henv h.loadAll

/-- The parts of the blob are what the files give, with zeros in the stubs. -/
theorem isPartsOf (henv : env.Sound) (h : Paired env source es)
    (hnames : ((es.map Prod.snd).map Loaded.name).Nodup) :
    IsPartsOf (blobParts env es (h.nodup_names henv))
      (sent env (fun _ => 0) (es.map Prod.snd) hnames) := by
  have himg : imgParts es = es.map fun e => (partName e.2.name imgSuffix, e.2.img) :=
    List.map_congr_left fun e he => by
      unfold Sensor.imgPart
      rw [h.name henv he]
  have hmeta : metaParts env es =
      es.map fun e => (partName e.2.name metaSuffix, e.2.pickle env 0) :=
    List.map_congr_left fun e he => by
      unfold Sensor.metaPart
      rw [h.name henv he]
  show List.Perm (imgParts es ++ metaParts env es) (wireParts _)
  unfold wireParts sent
  rw [himg, hmeta, List.flatMap_map, List.flatMap_map, List.map_eq_flatMap, List.map_eq_flatMap]
  exact List.flatMap_append_perm es (fun e => [(partName e.2.name imgSuffix, e.2.img)])
    fun e => [(partName e.2.name metaSuffix, e.2.pickle env 0)]

end Paired

/-- What the parallel path gets to when it returns. -/
theorem buildPartsParallel_ok {nWorkers : Option Int} {done : Bytes × Nat} :
    buildPartsParallel env host source nWorkers = .ok done ↔
      host.serialEncode = false ∧ source.sorted ≠ [] ∧ host.hotThreadPools = none ∧
        ∃ sensors, readSensors env source = .ok sensors ∧
          encodeSensors env host sensors nWorkers = .ok done := by
  unfold buildPartsParallel
  cases hserial : host.serialEncode with
  | true =>
      rw [if_pos rfl]
      exact ⟨nofun, fun h => absurd h.1 nofun⟩
  | false =>
      rw [if_neg Bool.false_ne_true]
      by_cases hempty : source.sorted = []
      · rw [if_pos hempty]
        exact ⟨nofun, fun h => absurd hempty h.2.1⟩
      · rw [if_neg hempty]
        cases hhot : host.hotThreadPools with
        | some text => exact ⟨nofun, fun h => absurd h.2.2.1 nofun⟩
        | none =>
            cases hsensors : readSensors env source with
            | error exc =>
                refine ⟨nofun, fun h => ?_⟩
                obtain ⟨-, -, -, sensors, hread, -⟩ := h
                exact absurd hread nofun
            | ok sensors =>
                dsimp only
                constructor
                · intro h
                  exact ⟨rfl, hempty, rfl, sensors, rfl, h⟩
                · intro h
                  obtain ⟨-, -, -, sensors', hread, h⟩ := h
                  rw [Except.ok.inj hread]
                  exact h

/-- **The parallel encoder sends what the files give**, and in each stub a zero. -/
theorem buildPartsParallel_sent (henv : env.Sound) (hsource : source.Sound env)
    {nWorkers : Option Int} {block : Bytes} {total : Nat}
    (h : buildPartsParallel env host source nWorkers = .ok (block, total)) :
    ∃ ls, loadAll env source = .ok ls ∧ (block.take total).length = total ∧
      ∀ hnames, ∃ got, unpackBlob (block.take total) = .ok got ∧
        IsPartsOf got (sent env (fun _ => 0) ls hnames) := by
  obtain ⟨-, hnonempty, -, sensors, hsensors, hencode⟩ := buildPartsParallel_ok.mp h
  obtain ⟨hsorted, -⟩ := readSensors_ok.mp hsensors
  have hids : (sensors.map Sensor.detId).Nodup := by
    have hnodup := source.nodup_sorted
    rw [← hsorted, List.map_map] at hnodup
    exact hnodup
  have hsound : ∀ s ∈ sensors, s.handle.Sound env := by
    intro s hs
    refine hsource (s.detId, s.handle) (RawSource.mem_sorted.mp ?_)
    rw [← hsorted]
    exact List.mem_map.mpr ⟨s, hs, rfl⟩
  obtain ⟨descriptors, fresh, hdescriptors, hfresh, hpool, hreturned⟩ :=
    encodeSensors_returns hsound hids hencode
  obtain ⟨es, rfl, hes⟩ := exists_pairs hreturned
  have hpaired : Paired env source es := ⟨hsensors, hes⟩
  rw [List.length_map] at hpool
  obtain ⟨pieces, heq, hperm⟩ := encodeSensors_eq hes (hpaired.nodup_names henv)
    hpaired.nodup_ids hdescriptors hfresh hpool
  have hsize := host.allocate_size hfresh
  have hes' : es ≠ [] := by
    intro hnil
    rw [hnil] at hsorted
    exact hnonempty hsorted.symm
  obtain ⟨hlength, hunpack⟩ := finishBlob_unpacks hes (hpaired.nodup_names henv) hes' hdescriptors
    hperm hsize (heq ▸ hencode)
  exact ⟨es.map Prod.snd, hpaired.loadAll, hlength,
    fun hnames => ⟨_, hunpack, hpaired.isPartsOf henv hnames⟩⟩

/-! ### When a blob is assembled

What is sent in the end is one thing and whether anything is sent another.  The conditions for the
second are on the machine, on the camera's shapes and on the size of the metadata.
-/

/-- A map's parts as a map. -/
def partsOf (m : OrderedDict String (Bytes × Bytes)) : OrderedDict String Bytes :=
  ⟨wireParts m, nodup_wireParts m⟩

/-- The machine lets the parallel path run: nothing forbids it, a block can be had, and the
pool's workers report. -/
structure Host.Ready (host : Host) (nWorkers : Option Int) (count : Nat) : Prop where
  allowed : host.serialEncode = false
  clamped : host.hotThreadPools = none
  roomy : ∀ size, ∃ block, host.allocate size = .ok block
  runs : host.RunsPool nWorkers count

/-- Every image has the size that the camera gives it. -/
def KeepsSize (env : CameraEnv A) (source : RawSource A) : Prop :=
  ∀ entry ∈ source.handles.entries, ∀ l, loaded env entry.2 = .ok l →
    imageShape env entry.2 = .ok l.bbox.shape

/-- Files that load at the camera's size make sensors. -/
theorem exists_paired (henv : env.Sound) (hsource : source.Sound env)
    (hsize : KeepsSize env source) {ls : List (Loaded A)} (h : loadAll env source = .ok ls) :
    ∃ es, Paired env source es ∧ es.map Prod.snd = ls := by
  obtain ⟨pairs, hfst, rfl, hpairs⟩ := Except.mapM_eq_ok.mp h
  have hmem : ∀ p ∈ pairs, p.1 ∈ source.handles.entries := by
    intro p hp
    refine RawSource.mem_sorted.mp ?_
    rw [← hfst]
    exact List.mem_map.mpr ⟨p, hp, rfl⟩
  refine ⟨pairs.map fun p => (⟨p.1.1, p.1.2, p.2.name, p.2.bbox.shape⟩, p.2), ⟨?_, ?_⟩, ?_⟩
  · refine readSensors_ok.mpr ⟨?_, ?_⟩
    · rw [List.map_map, List.map_map]
      exact hfst
    · intro s hs
      obtain ⟨e, he, rfl⟩ := List.mem_map.mp hs
      obtain ⟨p, hp, rfl⟩ := List.mem_map.mp he
      obtain ⟨d, hd, hname⟩ := loaded_name henv (hpairs p hp)
      refine ⟨?_, hsize p.1 (hmem p hp) p.2 (hpairs p hp)⟩
      show detectorName env p.1.2.header = .ok p.2.name
      rw [hname]
      exact (hsource p.1 (hmem p hp)).named d hd
  · intro e he
    obtain ⟨p, hp, rfl⟩ := List.mem_map.mp he
    exact ⟨hsource p.1 (hmem p hp), hpairs p hp, rfl⟩
  · rw [List.map_map]
    rfl

theorem length_payloadBytes (parts : List (String × Bytes)) :
    (payloadBytes parts).length = (parts.map fun part => part.2.length).sum := by
  unfold payloadBytes
  rw [List.length_flatMap]

/-- The limits do not depend on the order of the parts. -/
theorem WithinFormat.perm {parts parts' : OrderedDict String Bytes}
    (hperm : parts.entries.Perm parts'.entries) (h : WithinFormat parts') :
    WithinFormat parts := by
  refine ⟨?_, ?_, ?_⟩
  · exact Nat.le_trans (Nat.le_of_eq hperm.length_eq) h.count
  · intro name hname
    exact h.names name ((hperm.map Prod.fst).mem_iff.mp hname)
  · rw [length_payloadBytes, (hperm.map fun part => part.2.length).sum_nat,
      ← length_payloadBytes]
    exact h.total

/-- **Metadata within the allowance is all it takes**: on a machine that lets it run, the
parallel path assembles the blob of files that load at the camera's size. -/
theorem buildPartsParallel_returns (henv : env.Sound) (hsource : source.Sound env)
    (hsize : KeepsSize env source) {ls : List (Loaded A)} (hls : loadAll env source = .ok ls)
    (hnonempty : source.handles.entries ≠ []) {nWorkers : Option Int}
    (hready : host.Ready nWorkers ls.length)
    (hformat : WithinFormat (partsOf (sent env (fun _ => 0) ls (nodup_loaded henv hls))))
    (hallowance : (ls.map fun l => (l.pickle env 0).length).sum ≤ metaAllowance) :
    ∃ block total, buildPartsParallel env host source nWorkers = .ok (block, total) := by
  obtain ⟨es, hpaired, rfl⟩ := exists_paired henv hsource hsize hls
  have hnames := hpaired.nodup_names henv
  have hes := hpaired.encodes
  have hsorted : source.sorted ≠ [] := by
    intro hnil
    have hperm := source.sorted_perm
    rw [hnil] at hperm
    exact hnonempty hperm.nil_eq.symm
  have hes' : es ≠ [] := by
    intro hnil
    have heq := hpaired.sorted
    rw [hnil] at heq
    exact hsorted heq.symm
  have hparts : (blobParts env es hnames).entries.Perm (partsOf (sent env (fun _ => 0)
      (es.map Prod.snd) (nodup_loaded henv hls))).entries := hpaired.isPartsOf henv _
  have hlimits := WithinFormat.perm hparts hformat
  have hnamesFit : ∀ name ∈ (es.map Prod.fst).flatMap (fun s => [s.imgPart, s.metaPart]),
      (nameBytes name).length ≤ 255 :=
    fun name hname => hlimits.names name ((sensorNames_perm env hnames).mem_iff.mp hname)
  have hdescriptors := descriptorRegionSize_ok.mpr ⟨hnamesFit, rfl⟩
  obtain ⟨block, hblock⟩ := hready.roomy
    (headerSize + _ + (imageSlots (es.map Prod.fst)).cursor + metaAllowance)
  have hpool := hready.runs
  rw [List.length_map] at hpool
  obtain ⟨pieces, heq, -⟩ :=
    encodeSensors_eq hes hnames hpaired.nodup_ids hdescriptors hblock hpool
  rw [List.map_map] at hallowance
  obtain ⟨done, hdone⟩ := finishBlob_returns hes hnames hes' hlimits hdescriptors hallowance
    (Buffer.writeAll block pieces)
  exact ⟨done.1, done.2, buildPartsParallel_ok.mpr ⟨hready.allowed, hsorted, hready.clamped,
    es.map Prod.fst, hpaired.sensors, heq.trans hdone⟩⟩

end DonutServer.Producer
