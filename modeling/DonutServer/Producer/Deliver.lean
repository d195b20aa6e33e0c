/-
Push and ingest, end to end.

Either encoder's blob is parsed and decoded to what the files load as
(`encodedBlob_sent`, `reconstructExposures_sent`).  Ingest wraps the same pixels, but
describes them by the camera's own detector, where the pixel reader and both encoders use
the one that `fixAmpGeometry` corrected: the two deliver the same exposures exactly when
that makes no difference.
-/
import DonutServer.Producer.Agree

namespace DonutServer.Producer

open PyText

variable {A : Afw} {env : CameraEnv A} {source : RawSource A}

/-! ### Pushed

The way of a push is the longer one: file, parts, blob, layout, parts again, exposure.  Each of
these steps has its theorem elsewhere, and they are put together here for all sensors at once.
-/

/-- **A push body holds what the files give**, whichever encoder made it. -/
theorem encodedBlob_sent (henv : env.Sound) (hsource : source.Sound env) {host : Host}
    {nWorkers : Option Int} {blob : Bytes}
    (h : encodedBlob env host source nWorkers = .ok blob) :
    ∃ ls got pixel, loadAll env source = .ok ls ∧ unpackBlob blob = .ok got ∧
      ∀ hnames, IsPartsOf got (sent env pixel ls hnames) := by
  unfold encodedBlob at h
  cases hparallel : buildPartsParallel env host source nWorkers with
  | ok done =>
      rw [hparallel] at h
      obtain ⟨ls, hls, -, hunpack⟩ := buildPartsParallel_sent henv hsource hparallel
      obtain ⟨got, hgot, hparts⟩ := hunpack (nodup_loaded henv hls)
      refine ⟨ls, got, fun _ => 0, hls, ?_, fun _ => hparts⟩
      rw [← Except.ok.inj h]
      exact hgot
  | error e =>
      rw [hparallel] at h
      cases e with
      | raised exc => exact absurd h nofun
      | packing error => exact absurd h nofun
      | parallelEncodeUnavailable message =>
          dsimp only at h
          cases hserial : buildRawParts env (loadRaw env host.scratch) source with
          | error exc =>
              rw [hserial] at h
              exact absurd h nofun
          | ok parts =>
              rw [hserial] at h
              have hpack : packBlob parts = .ok blob := Except.mapError_eq_ok.mp h
              have hformat := withinFormat_of_packBlob hpack
              obtain rfl := Except.ok.inj (hpack.symm.trans (packBlob_fits hformat))
              obtain ⟨ls, hls, hwire⟩ := buildRawParts_sent henv hsource hserial
              exact ⟨ls, parts, Loaded.firstPixel, hls, unpackBlob_packBlob hformat,
                fun hnames => List.Perm.of_eq (hwire hnames)⟩

/-- The exposures the files load as, by detector name. -/
def loadedExposures (ls : List (Loaded A)) (hnames : (ls.map Loaded.name).Nodup) :
    OrderedDict String (Exposure A) :=
  ⟨ls.map fun l => (l.name, l.exposure), by
    rw [List.map_map]
    exact hnames⟩

/-- A part of a blob is the same bytes in whatever the blob is the front of. -/
theorem slice_append {blob tail : Bytes} {pos count : Nat} (h : pos + count ≤ blob.length) :
    slice (blob ++ tail) pos count = slice blob pos count := by
  unfold slice
  rw [List.drop_append_of_le_length (by omega),
    List.take_append_of_le_length (by rw [List.length_drop]; omega)]

/-- **What the coordinator rebuilds** from a body that holds what the files give. -/
theorem reconstructExposures_sent (hsource : source.Sound env) {ls : List (Loaded A)}
    (hls : loadAll env source = .ok ls) {hnames : (ls.map Loaded.name).Nodup}
    {pixel : Loaded A → Pixel} {blob : Bytes} {got : OrderedDict String Bytes}
    (hgot : unpackBlob blob = .ok got) (hparts : IsPartsOf got (sent env pixel ls hnames))
    (tail : Bytes) :
    ∃ layout rebuilt, parseLayout blob = .ok layout ∧
      reconstructExposures env (blob ++ tail) layout = .ok rebuilt ∧
      rebuilt.Same (loadedExposures ls hnames) := by
  unfold unpackBlob at hgot
  cases hlayout : parseLayout blob with
  | error e =>
      rw [hlayout] at hgot
      exact absurd hgot nofun
  | ok layout =>
      rw [hlayout] at hgot
      have hslices : layout.map (fun part => (part.name,
          slice (blob ++ tail) part.offset part.byteCount)) =
          layout.map fun part => (part.name, slice blob part.offset part.byteCount) := by
        apply List.map_congr_left
        intro part hpart
        rw [slice_append (parseLayout_within hlayout part hpart)]
      obtain ⟨back, hback, hsame⟩ := splitParts_wireParts hparts
      -- every sensor that is found is one of the files, and decodes to it
      have hdecode : ∀ entry ∈ back.entries, ∃ l ∈ ls, l.name = entry.1 ∧
          (decodeExposure env entry.2.1 entry.2.2).map (fun exp => (entry.1, exp)) =
            .ok (l.name, l.exposure) := by
        intro entry hentry
        have hget : (sent env pixel ls hnames).get? entry.1 = some entry.2 := by
          rw [← hsame]
          exact OrderedDict.get?_eq_some.mpr hentry
        obtain ⟨l, hl, hname, hv⟩ := sent_get?.mp hget
        obtain ⟨handle, hsound, hload⟩ := loadAll_mem hsource hls hl
        refine ⟨l, hl, hname, ?_⟩
        rw [hv, decodeExposure_loaded hsound hload, hname]
        rfl
      obtain ⟨exposures, hexposures⟩ := Except.mapM_returns fun entry hentry => by
        obtain ⟨l, -, -, hok⟩ := hdecode entry hentry
        exact ⟨_, hok⟩
      refine ⟨layout, OrderedDict.empty.update exposures, rfl, ?_, ?_⟩
      · unfold reconstructExposures
        rw [hslices, Except.ok.inj hgot]
        dsimp only
        rw [hback]
        dsimp only
        rw [hexposures]
      · obtain ⟨pairs, hfst, rfl, hpairs⟩ := Except.mapM_eq_ok.mp hexposures
        have hpair : ∀ p ∈ pairs, ∃ l ∈ ls, l.name = p.1.1 ∧ p.2 = (l.name, l.exposure) := by
          intro p hp
          obtain ⟨l, hl, hname, hok⟩ := hdecode p.1 (hfst ▸ List.mem_map.mpr ⟨p, hp, rfl⟩)
          exact ⟨l, hl, hname, Except.ok.inj ((hpairs p hp).symm.trans hok)⟩
        have hkeys : ((OrderedDict.empty : OrderedDict String (Exposure A)).keys ++
            (pairs.map Prod.snd).map Prod.fst).Nodup := by
          have hsnd : (pairs.map Prod.snd).map Prod.fst = back.keys := by
            unfold OrderedDict.keys
            rw [← hfst, List.map_map, List.map_map]
            apply List.map_congr_left
            intro p hp
            obtain ⟨l, -, hname, hv⟩ := hpair p hp
            show p.2.1 = p.1.1
            rw [hv, ← hname]
          rw [hsnd]
          exact back.nodup
        intro sensor
        refine Option.ext fun exp => ?_
        rw [OrderedDict.get?_eq_some, OrderedDict.get?_eq_some, OrderedDict.entries_update hkeys]
        show (sensor, exp) ∈ pairs.map Prod.snd ↔ (sensor, exp) ∈ ls.map fun l => _
        constructor
        · intro hmem
          obtain ⟨p, hp, hp'⟩ := List.mem_map.mp hmem
          obtain ⟨l, hl, -, hv⟩ := hpair p hp
          exact List.mem_map.mpr ⟨l, hl, hv.symm.trans hp'⟩
        · intro hmem
          obtain ⟨l, hl, hl'⟩ := List.mem_map.mp hmem
          have hget : back.get? l.name = some (l.img, l.pickle env (pixel l)) := by
            rw [hsame]
            exact sent_get?.mpr ⟨l, hl, rfl, rfl⟩
          have hentry := OrderedDict.get?_eq_some.mp hget
          rw [← hfst] at hentry
          obtain ⟨p, hp, hpe⟩ := List.mem_map.mp hentry
          obtain ⟨handle, hsound, hload⟩ := loadAll_mem hsource hls hl
          have hok := hpairs p hp
          rw [hpe, decodeExposure_loaded hsound hload] at hok
          exact List.mem_map.mpr ⟨p, hp, (Except.ok.inj hok).symm.trans hl'⟩

/-! ### Ingested

An ingest has no blob.  Its workers write the images into slots of a shared block, and the parent
wraps each slot as an exposure, with the detector that the camera has.
-/

/-- What ingest makes of one file. -/
def ingested (env : CameraEnv A) (handle : RawHandle A) : Except Exn (String × Exposure A) := do
  let camera ← env.camera handle.detectorNum
  let detector := env.makeUpdatedDetector camera
  let bbox := env.calcRawCcdBBox detector
  let stub ← buildStub env handle bbox detector
  let a ← assembleImage env blank handle none
  .ok (detector.name, { exposureF A bbox with image := a.array }.withInfo stub.info)

/-- The image that a worker of an ingest writes, as far as its file can be assembled. -/
def assembledOf (env : CameraEnv A) (task : Task A) : Bytes :=
  ((assembleImage env blank task.handle none).toOption.map fun a => imageBytes a.array).getD []

/-- For a file that loads it is the file's image. -/
theorem assembledOf_eq {task : Task A} {a : Assembled A}
    (h : assembleImage env blank task.handle none = .ok a) :
    assembledOf env task = imageBytes a.array := by
  unfold assembledOf
  rw [h]
  rfl

/-- The shape of a slot is that of the camera's box for its detector. -/
theorem imageShape_ok {handle : RawHandle A} {shape : Nat × Nat} :
    imageShape env handle = .ok shape ↔
      ∃ d, env.camera handle.detectorNum = .ok d ∧ shape = (env.calcRawCcdBBox d).shape := by
  unfold imageShape
  rw [Except.bind_eq_ok]
  constructor
  · intro h
    obtain ⟨d, hd, hshape⟩ := h
    exact ⟨d, hd, (Except.ok.inj hshape).symm⟩
  · intro h
    obtain ⟨d, hd, rfl⟩ := h
    exact ⟨d, hd, rfl⟩

/-- The slots of an ingest lie one behind the other. -/
theorem ingestSlots_holds {shapes : List ((Nat × RawHandle A) × (Nat × Nat))}
    (h : (shapes.map fun s => s.1.1).Nodup) :
    (ingestSlots shapes).Holds (shapes.map fun s => (s.1.1, imageSize s.2)) := by
  have hnodup : (([] : List (Nat × Nat)) ++ shapes.map fun s =>
      (s.1.1, imageSize s.2)).map Prod.fst |>.Nodup := by
    rw [List.nil_append, List.map_map]
    exact h
  exact (layParts_holds Laid.nothing_holds hnodup).1

/-- **A slot read back** after every worker of an ingest has returned. -/
theorem fanOut_slots {host : Host} {shapes : List ((Nat × RawHandle A) × (Nat × Nat))}
    (hids : (shapes.map fun s => s.1.1).Nodup)
    (hsound : ∀ s ∈ shapes, s.1.2.Sound env) {nWorkers : Option Int} {block : Bytes}
    (hblock : (ingestSlots shapes).cursor ≤ block.length) {filled : Bytes × List Unit}
    (h : fanOut host (assembleOne env host.scratch) (ingestTasks (ingestSlots shapes) shapes)
      nWorkers block = .ok filled) :
    ∀ task ∈ ingestTasks (ingestSlots shapes) shapes, ∃ a,
      assembleImage env blank task.handle none = .ok a ∧ task.shape = a.bbox.shape ∧
        imageOf task.shape (filled.1.drop task.offset) = a.array := by
  have hholds := ingestSlots_holds hids
  have htaskIds : ((ingestTasks (ingestSlots shapes) shapes).map Task.detId).Nodup := by
    unfold ingestTasks
    rw [List.map_map]
    exact hids
  obtain ⟨hpool, hreturned⟩ := fanOut_returns htaskIds h
  -- each task's worker returned, so its file assembles to the slot's shape
  have htask : ∀ task ∈ ingestTasks (ingestSlots shapes) shapes, task.handle.Sound env ∧
      task.offset + task.byteCount ≤ block.length ∧
      ∃ a, assembleImage env blank task.handle none = .ok a ∧
        imageSize task.shape = task.byteCount ∧ task.shape = a.bbox.shape := by
    intro task hmem
    obtain ⟨b, value, hvalue⟩ := hreturned task hmem
    obtain ⟨s, hs, rfl⟩ := List.mem_map.mp hmem
    have hwithin := hholds.within _ (List.mem_map.mpr ⟨s, hs, rfl⟩)
    exact ⟨hsound s hs, Nat.le_trans hwithin hblock, assembleOne_returns (hsound s hs) hvalue⟩
  have hsize : ∀ task ∈ ingestTasks (ingestSlots shapes) shapes,
      (assembledOf env task).length = task.byteCount := by
    intro task hmem
    obtain ⟨-, -, a, ha, hsize, hshape⟩ := htask task hmem
    rw [assembledOf_eq ha, length_imageBytes, assembleImage_shape ha, ← hshape, hsize]
  have hfills := fanOut_fills (assembledOf env) (fun _ => ()) hpool htaskIds
    (fun task hmem b hb => by
      obtain ⟨hs, hroom, a, ha, hsize, hshape⟩ := htask task hmem
      rw [assembledOf_eq ha]
      exact assembleOne_fits hs host.scratch ha hsize hshape (Nat.le_trans hroom hb))
    (fun task hmem => by
      rw [hsize task hmem]
      exact (htask task hmem).2.1)
  have hfilled := Except.ok.inj (h.symm.trans hfills)
  have hperm := host.schedule_perm (ingestTasks (ingestSlots shapes) shapes)
  have hfits : Buffer.Fits block.length ((host.schedule (ingestTasks (ingestSlots shapes)
      shapes)).map fun task => (task.offset, assembledOf env task)) := by
    intro piece hpiece
    obtain ⟨task, hmem, rfl⟩ := List.mem_map.mp hpiece
    have hmem' := hperm.mem_iff.mp hmem
    have hroom := (htask task hmem').2.1
    dsimp only
    rw [hsize task hmem']
    exact hroom
  have hapart : Buffer.Apart ((host.schedule (ingestTasks (ingestSlots shapes)
      shapes)).map fun task => (task.offset, assembledOf env task)) := by
    refine Buffer.Apart.perm ?_ (hperm.map fun task => (task.offset, assembledOf env task)).symm
    have hslots := hholds.apart
    unfold Buffer.Apart
    unfold ingestTasks at hsize ⊢
    rw [List.pairwise_map] at hslots ⊢
    rw [List.pairwise_map]
    refine hslots.imp_of_mem ?_
    intro s t hs ht hclear
    dsimp only
    rw [hsize _ (List.mem_map.mpr ⟨s, hs, rfl⟩), hsize _ (List.mem_map.mpr ⟨t, ht, rfl⟩)]
    exact hclear
  intro task hmem
  obtain ⟨-, -, a, ha, hbytes, hshape⟩ := htask task hmem
  refine ⟨a, ha, hshape, imageOf_block ((assembleImage_shape ha).trans hshape.symm) ?_⟩
  have hread := Buffer.read_writeAll hfits hapart _
    (List.mem_map.mpr ⟨task, hperm.mem_iff.mpr hmem, rfl⟩)
  dsimp only at hread
  rw [hsize task hmem, ← hbytes] at hread
  rw [hfilled, ← assembledOf_eq ha]
  exact hread

/-- What `wrapSlot` makes of a slot that holds the file's image. -/
theorem wrapSlot_ingested (henv : env.Sound) {block : Bytes} {handle : RawHandle A}
    {offset : Nat} {shape : Nat × Nat} {a : Assembled A} {w : String × Exposure A}
    (hshape : imageShape env handle = .ok shape)
    (ha : assembleImage env blank handle none = .ok a)
    (himage : imageOf shape (block.drop offset) = a.array)
    (h : wrapSlot env block handle offset = .ok w) : ingested env handle = .ok w := by
  obtain ⟨d, hd, hdshape⟩ := imageShape_ok.mp hshape
  unfold wrapSlot at h
  obtain ⟨d', hd', hstubbed⟩ := Except.bind_eq_ok.mp h
  obtain rfl : d = d' := Except.ok.inj (hd.symm.trans hd')
  obtain ⟨stub, hstub, hwrapped⟩ := Except.bind_eq_ok.mp hstubbed
  refine Except.bind_eq_ok.mpr ⟨d, hd, Except.bind_eq_ok.mpr ⟨stub, hstub,
    Except.bind_eq_ok.mpr ⟨a, ha, ?_⟩⟩⟩
  split at hwrapped
  · exact absurd hwrapped nofun
  · rw [henv.updatedBBox d, ← hdshape, himage] at hwrapped
    rw [henv.updatedBBox d]
    exact hwrapped

/-- **What ingest yields**: each file of the source, ingested. -/
theorem ingestedExposures_ok (henv : env.Sound) (hsource : source.Sound env) {host : Host}
    {nWorkers : Option Int} {exposures : OrderedDict String (Exposure A)}
    (h : ingestedExposures env host source nWorkers = .ok exposures) :
    ∃ es, source.sorted.mapM (fun entry => ingested env entry.2) = .ok es ∧
      exposures = OrderedDict.empty.update es := by
  unfold ingestedExposures at h
  by_cases hempty : source.sorted = []
  · rw [if_pos hempty] at h
    exact absurd h nofun
  · rw [if_neg hempty] at h
    cases hhot : host.hotThreadPools with
    | some text =>
        rw [hhot] at h
        exact absurd h nofun
    | none =>
        rw [hhot] at h
        obtain ⟨shapes, hshapes, hallocated⟩ := Except.bind_eq_ok.mp h
        obtain ⟨block, hblock, hforked⟩ := Except.bind_eq_ok.mp hallocated
        obtain ⟨filled, hfilled, hwraps⟩ := Except.bind_eq_ok.mp hforked
        obtain ⟨wrapped, hwrapped, hdone⟩ := Except.bind_eq_ok.mp hwraps
        obtain ⟨shaped, hfst, rfl, hshape⟩ :=
          Except.mapM_eq_ok.mp (Except.mapError_eq_ok.mp hshapes)
        have hzip : source.sorted.zip (shaped.map Prod.snd) = shaped :=
          (List.zip_of_prod hfst rfl).symm
        rw [hzip] at hblock hfilled hwrapped
        have hids : (shaped.map fun s => s.1.1).Nodup := by
          have hnodup := source.nodup_sorted
          rw [← hfst, List.map_map] at hnodup
          exact hnodup
        have hsound : ∀ s ∈ shaped, s.1.2.Sound env := by
          intro s hs
          refine hsource s.1 (RawSource.mem_sorted.mp ?_)
          rw [← hfst]
          exact List.mem_map.mpr ⟨s, hs, rfl⟩
        have hslots := fanOut_slots hids hsound (host.allocate_size hblock) hfilled
        obtain ⟨pairs, hpairsFst, rfl, hpairs⟩ :=
          Except.mapM_eq_ok.mp (Except.mapError_eq_ok.mp hwrapped)
        refine ⟨pairs.map Prod.snd, ?_, (Except.ok.inj hdone).symm⟩
        refine Except.mapM_eq_ok.mpr
          ⟨pairs.map fun p => ((p.1.detId, p.1.handle), p.2), ?_, List.map_map, ?_⟩
        · have hentries := congrArg (List.map fun task : Task A => (task.detId, task.handle))
            hpairsFst
          unfold ingestTasks at hentries
          rw [List.map_map, List.map_map] at hentries
          rw [List.map_map, ← hfst]
          exact hentries
        · intro q hq
          obtain ⟨p, hp, rfl⟩ := List.mem_map.mp hq
          have htask : p.1 ∈ ingestTasks (ingestSlots shaped) shaped := by
            rw [← hpairsFst]
            exact List.mem_map.mpr ⟨p, hp, rfl⟩
          obtain ⟨a, ha, -, himage⟩ := hslots p.1 htask
          obtain ⟨s, hs, hsp⟩ := List.mem_map.mp htask
          have hcamera : imageShape env p.1.handle = .ok p.1.shape := by
            rw [← hsp]
            exact hshape s hs
          exact wrapSlot_ingested henv hcamera ha himage (hpairs p hp)

/-! ### Whether they agree

A pushed exposure is described by the detector that was rebuilt from the file's own amplifiers, an
ingested one by the camera's.  Both are updated for assembly, and what is left of the difference
then is all that the two can differ in: the detector itself and the box.
-/

/-- Nothing that `fixAmpGeometry` corrects in a file shows in the assembled geometry: updated
for assembly, the corrected detector is the camera's. -/
def GeometryKept (env : CameraEnv A) (handle : RawHandle A) : Prop :=
  ∀ d fixed, env.camera handle.detectorNum = .ok d → fixedDetector env handle = .ok fixed →
    env.makeUpdatedDetector fixed.detector = env.makeUpdatedDetector d

/-- **One file**: pushed and ingested under one name, and alike when its geometry is kept. -/
theorem ingested_alike (henv : env.Sound) {handle : RawHandle A} {l : Loaded A}
    {w : String × Exposure A} (hl : loaded env handle = .ok l)
    (hw : ingested env handle = .ok w) :
    w.1 = l.name ∧ (w.2 = l.exposure ↔ GeometryKept env handle) := by
  obtain ⟨ha, hstub⟩ := loaded_ok.mp hl
  obtain ⟨fixed, p, array, hfixed, -, -, hassembled⟩ := assembleImage_ok.mp ha
  obtain ⟨d, hd, hstubbed⟩ := Except.bind_eq_ok.mp hw
  obtain ⟨stub, hstub', hread⟩ := Except.bind_eq_ok.mp hstubbed
  obtain ⟨a, ha', hdone⟩ := Except.bind_eq_ok.mp hread
  obtain rfl : l.assembled = a := Except.ok.inj (ha.symm.trans ha')
  obtain rfl := Except.ok.inj hdone
  have hdetector : l.assembled.detector = env.makeUpdatedDetector fixed.detector := by
    rw [hassembled]
  have hbbox : l.bbox = env.calcRawCcdBBox (env.makeUpdatedDetector fixed.detector) := by
    rw [henv.updatedBBox]
    unfold Loaded.bbox
    rw [hassembled]
  refine ⟨?_, ?_, ?_⟩
  · obtain ⟨d', hd', hname⟩ := loaded_name henv hl
    obtain rfl : d = d' := Except.ok.inj (hd.symm.trans hd')
    rw [hname]
    exact henv.updatedName d
  · intro heq d' fixed' hd' hfixed'
    obtain rfl : d = d' := Except.ok.inj (hd.symm.trans hd')
    obtain rfl : fixed = fixed' := Except.ok.inj (hfixed.symm.trans hfixed')
    have hexp := congrArg (fun exp : Exposure A => exp.info.detector) heq
    have hinfo : stub.info.detector = l.stub.info.detector := hexp
    rw [buildStub_detector henv hstub', loaded_detector henv hl, hdetector] at hinfo
    exact (Option.some.inj hinfo).symm
  · intro hkept
    have hsame := hkept d fixed hd hfixed
    rw [hdetector, hbbox, hsame] at hstub
    obtain rfl : l.stub = stub := Except.ok.inj (hstub.symm.trans hstub')
    unfold Loaded.exposure Assembled.exposure
    rw [show l.assembled.bbox = l.bbox from rfl, hbbox, hsame]
    rfl

/-- A file none of whose amplifiers is modified keeps its geometry. -/
theorem geometryKept_of_unmodified {handle : RawHandle A}
    (h : ∀ amp bbox header fixed modified,
      env.fixAmpGeometry amp bbox header = .ok (fixed, modified) → fixed = amp) :
    GeometryKept env handle := by
  have hamps : ∀ (amps : List (Amplifier A)) (hdu : Nat) pairs,
      readAmps env handle.path hdu amps = .ok pairs → pairs.map Prod.snd = amps := by
    intro amps
    induction amps with
    | nil =>
        intro hdu pairs hpairs
        rw [← Except.ok.inj hpairs]
        rfl
    | cons amp rest ih =>
        intro hdu pairs hpairs
        obtain ⟨reader, -, hbbox⟩ := Except.bind_eq_ok.mp hpairs
        obtain ⟨bbox, -, hmetadata⟩ := Except.bind_eq_ok.mp hbbox
        obtain ⟨metadata, -, hfix⟩ := Except.bind_eq_ok.mp hmetadata
        obtain ⟨fixed, hfixed, hothers⟩ := Except.bind_eq_ok.mp hfix
        obtain ⟨others, hrest, hdone⟩ := Except.bind_eq_ok.mp hothers
        rw [← Except.ok.inj hdone, List.map_cons, ih _ _ hrest, h _ _ _ _ _ hfixed]
  intro d fixed hd hfixed
  obtain ⟨d', pairs, hd', hpairs, rfl⟩ := fixedDetector_ok hfixed
  obtain rfl : d = d' := Except.ok.inj (hd.symm.trans hd')
  rw [hamps _ _ _ hpairs]

/-- **Push and ingest deliver the same exposures exactly when the geometry is kept.** -/
theorem push_ingest_alike (henv : env.Sound) (hsource : source.Sound env) {host host' : Host}
    {nWorkers nWorkers' : Option Int} {blob : Bytes}
    {exposures : OrderedDict String (Exposure A)}
    (hpush : encodedBlob env host source nWorkers = .ok blob)
    (hingest : ingestedExposures env host' source nWorkers' = .ok exposures) (tail : Bytes) :
    ∃ layout rebuilt, parseLayout blob = .ok layout ∧
      reconstructExposures env (blob ++ tail) layout = .ok rebuilt ∧
      (rebuilt.Same exposures ↔
        ∀ entry ∈ source.handles.entries, GeometryKept env entry.2) := by
  obtain ⟨ls, got, pixel, hls, hgot, hparts⟩ := encodedBlob_sent henv hsource hpush
  have hnames := nodup_loaded henv hls
  obtain ⟨layout, rebuilt, hlayout, hrebuilt, hsame⟩ :=
    reconstructExposures_sent hsource hls hgot (hparts hnames) tail
  obtain ⟨es, hes, rfl⟩ := ingestedExposures_ok henv hsource hingest
  obtain ⟨bs, hbs, rfl, hloads⟩ := Except.mapM_eq_ok.mp hls
  obtain ⟨cs, hcs, rfl, hingests⟩ := Except.mapM_eq_ok.mp hes
  refine ⟨layout, rebuilt, hlayout, hrebuilt, ?_⟩
  -- a file's loading and its ingesting
  have hfile : ∀ b ∈ bs, ∀ c ∈ cs, b.1 = c.1 → c.2.1 = b.2.name ∧
      (c.2.2 = b.2.exposure ↔ GeometryKept env b.1.2) := by
    intro b hb c hc heq
    have hc' := hingests c hc
    rw [← heq] at hc'
    exact ingested_alike henv (hloads b hb) hc'
  have hingested : ∀ b ∈ bs, ∃ c ∈ cs, b.1 = c.1 := by
    intro b hb
    have hmem : b.1 ∈ cs.map Prod.fst := hcs ▸ hbs ▸ List.mem_map.mpr ⟨b, hb, rfl⟩
    obtain ⟨c, hc, heq⟩ := List.mem_map.mp hmem
    exact ⟨c, hc, heq.symm⟩
  have hloaded : ∀ c ∈ cs, ∃ b ∈ bs, b.1 = c.1 := by
    intro c hc
    have hmem : c.1 ∈ bs.map Prod.fst := hbs ▸ hcs ▸ List.mem_map.mpr ⟨c, hc, rfl⟩
    obtain ⟨b, hb, heq⟩ := List.mem_map.mp hmem
    exact ⟨b, hb, heq⟩
  have hkeys : ((OrderedDict.empty : OrderedDict String (Exposure A)).keys ++
      (cs.map Prod.snd).map Prod.fst).Nodup := by
    have hids : (cs.map fun c => c.1.1).Nodup := by
      have hnodup := source.nodup_sorted
      rw [← hcs, List.map_map] at hnodup
      exact hnodup
    show ((cs.map Prod.snd).map Prod.fst).Nodup
    rw [List.map_map] at hnames ⊢
    refine nodup_map_of_inj hids ?_
    intro c hc c' hc' heq
    obtain ⟨b, hb, hbc⟩ := hloaded c hc
    obtain ⟨b', hb', hbc'⟩ := hloaded c' hc'
    have hname : b.2.name = b'.2.name :=
      ((hfile b hb c hc hbc).1.symm.trans heq).trans (hfile b' hb' c' hc' hbc').1
    rw [← hbc, ← hbc', List.inj_on_of_nodup_map hnames hb hb' hname]
  have hrebuiltMem : ∀ sensor exp, rebuilt.get? sensor = some exp ↔
      ∃ b ∈ bs, b.2.name = sensor ∧ b.2.exposure = exp := by
    intro sensor exp
    rw [hsame, OrderedDict.get?_eq_some]
    show (sensor, exp) ∈ (bs.map Prod.snd).map (fun l => (l.name, l.exposure)) ↔ _
    rw [List.map_map, List.mem_map]
    exact exists_congr fun b => and_congr_right fun _ => Prod.mk.injEq .. ▸ Iff.rfl
  have hingestMem : ∀ sensor exp, (OrderedDict.empty.update (cs.map Prod.snd)).get? sensor =
      some exp ↔ ∃ c ∈ cs, c.2 = (sensor, exp) := by
    intro sensor exp
    rw [OrderedDict.get?_eq_some, OrderedDict.entries_update hkeys]
    exact List.mem_map
  constructor
  · intro halike entry hentry
    rw [← RawSource.mem_sorted, ← hbs] at hentry
    obtain ⟨b, hb, rfl⟩ := List.mem_map.mp hentry
    obtain ⟨c, hc, heq⟩ := hingested b hb
    obtain ⟨hname, hkept⟩ := hfile b hb c hc heq
    have hpushed := (hrebuiltMem b.2.name b.2.exposure).mpr ⟨b, hb, rfl, rfl⟩
    have hgiven := (hingestMem b.2.name c.2.2).mpr ⟨c, hc, by rw [← hname]⟩
    rw [halike, hgiven] at hpushed
    exact hkept.mp (Option.some.inj hpushed)
  · intro hkept
    have hall : ∀ b ∈ bs, GeometryKept env b.1.2 := by
      intro b hb
      refine hkept b.1 (RawSource.mem_sorted.mp ?_)
      rw [← hbs]
      exact List.mem_map.mpr ⟨b, hb, rfl⟩
    intro sensor
    refine Option.ext fun exp => ?_
    rw [hrebuiltMem, hingestMem]
    constructor
    · intro h
      obtain ⟨b, hb, rfl, rfl⟩ := h
      obtain ⟨c, hc, heq⟩ := hingested b hb
      obtain ⟨hname, hsameExp⟩ := hfile b hb c hc heq
      exact ⟨c, hc, Prod.ext hname (hsameExp.mpr (hall b hb))⟩
    · intro h
      obtain ⟨c, hc, hcs'⟩ := h
      obtain ⟨b, hb, heq⟩ := hloaded c hc
      obtain ⟨hname, hsameExp⟩ := hfile b hb c hc heq
      rw [hcs'] at hname hsameExp
      exact ⟨b, hb, hname.symm, (hsameExp.mpr (hall b hb)).symm⟩

/-- A machine that is told to encode serially. -/
def benchSerial : Host := { benchHost with serialEncode := true }

/-- Files whose amplifiers stand one pixel to the right of where the camera has them: the
images keep their size, and a pushed exposure starts at column 1, the ingested one at 0. -/
theorem push_ingest_shifted :
    ∃ blob exposures layout rebuilt,
      encodedBlob (benchEnv (benchFile 1)) benchSerial benchSource none = .ok blob ∧
      ingestedExposures (benchEnv (benchFile 1)) benchHost benchSource none = .ok exposures ∧
      parseLayout blob = .ok layout ∧
      reconstructExposures (benchEnv (benchFile 1)) blob layout = .ok rebuilt ∧
      ¬rebuilt.Same exposures := by
  have henv := benchEnv_sound (benchFile 1)
  have hsource := benchSource_sound 1
  obtain ⟨blob, hpush⟩ : ∃ blob, encodedBlob (benchEnv (benchFile 1)) benchSerial benchSource
      none = .ok blob := ⟨_, rfl⟩
  obtain ⟨exposures, hingest⟩ : ∃ exposures, ingestedExposures (benchEnv (benchFile 1)) benchHost
      benchSource none = .ok exposures := ⟨_, rfl⟩
  obtain ⟨ls, got, pixel, hls, hgot, hparts⟩ := encodedBlob_sent henv hsource hpush
  have hnames := nodup_loaded henv hls
  obtain ⟨layout, rebuilt, hlayout, hrebuilt, hsame⟩ :=
    reconstructExposures_sent hsource hls hgot (hparts hnames) []
  rw [List.append_nil] at hrebuilt
  refine ⟨blob, exposures, layout, rebuilt, hpush, hingest, hlayout, hrebuilt, ?_⟩
  intro halike
  obtain rfl : benchFiles 1 = ls :=
    Except.ok.inj ((show loadAll _ benchSource = .ok (benchFiles 1) from rfl).symm.trans hls)
  have hleft : ((loadedExposures (benchFiles 1) hnames).get? "R00_SW0").map Exposure.minX =
      some 1 := by
    rfl
  have hright : (exposures.get? "R00_SW0").map Exposure.minX = some 0 := by
    rw [← Except.ok.inj hingest]
    rfl
  rw [← halike, hsame, hleft] at hright
  exact absurd hright (by decide)

/-- Where the camera has it right, both deliver the same. -/
theorem push_ingest_kept :
    ∃ blob exposures layout rebuilt,
      encodedBlob (benchEnv (benchFile 0)) benchSerial benchSource none = .ok blob ∧
      ingestedExposures (benchEnv (benchFile 0)) benchHost benchSource none = .ok exposures ∧
      parseLayout blob = .ok layout ∧
      reconstructExposures (benchEnv (benchFile 0)) (blob ++ [0]) layout = .ok rebuilt ∧
      rebuilt.Same exposures := by
  obtain ⟨blob, hpush⟩ : ∃ blob, encodedBlob (benchEnv (benchFile 0)) benchSerial benchSource
      none = .ok blob := ⟨_, rfl⟩
  obtain ⟨exposures, hingest⟩ : ∃ exposures, ingestedExposures (benchEnv (benchFile 0)) benchHost
      benchSource none = .ok exposures := ⟨_, rfl⟩
  obtain ⟨layout, rebuilt, hlayout, hrebuilt, halike⟩ := push_ingest_alike
    (benchEnv_sound (benchFile 0)) (benchSource_sound 0) hpush hingest [0]
  refine ⟨blob, exposures, layout, rebuilt, hpush, hingest, hlayout, hrebuilt, halike.mpr ?_⟩
  intro entry hentry d fixed hd hfixed
  obtain ⟨second, rfl⟩ := mem_benchSource hentry
  rw [fixedDetector_bench second 0 hfixed,
    ← Except.ok.inj ((camera_benchNumber second _).symm.trans hd)]
  rfl

end DonutServer.Producer
