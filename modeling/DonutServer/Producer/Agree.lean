/-
Three ways to one format.

`build_framing` followed by the parts is what `pack_blob` copies together, and with pinned
offsets the parts may be written where they stand and in any order.  The parallel encoder
is an instance: what it assembles unpacks to the parts the serial encoder packs, but for
the one pixel in each stub that `decode_exposure` does not read.
-/
import DonutServer.Producer.Source

namespace DonutServer.Producer

open PyText

variable {A : Afw} {env : CameraEnv A} {source : RawSource A}

/-! ### Looking parts up

The coordinator finds the parts of a sensor under the sensor's name and a suffix.  Whatever order
the parts were sent in, what is found there is the part that was made for it.
-/

/-- The part of a sensor under one of its suffixes. -/
theorem IsPartsOf.get? {parts : OrderedDict String Bytes}
    {m : OrderedDict String (Bytes × Bytes)} (h : IsPartsOf parts m) (sensor : String) :
    parts.get? (partName sensor imgSuffix) = (m.get? sensor).map Prod.fst ∧
      parts.get? (partName sensor metaSuffix) = (m.get? sensor).map Prod.snd := by
  have hmem : ∀ suffix ∈ suffixes, ∀ v, (partName sensor suffix, v) ∈ parts.entries ↔
      ∃ img pickle, m.get? sensor = some (img, pickle) ∧
        v = if suffix = imgSuffix then img else pickle := by
    intro suffix hsuffix v
    rw [List.Perm.mem_iff h]
    unfold wireParts
    rw [List.mem_flatMap]
    constructor
    · intro hpart
      obtain ⟨entry, hentry, hpart⟩ := hpart
      have hget : ∀ s, sensor = s → s = entry.1 →
          m.get? sensor = some (entry.2.1, entry.2.2) := by
        intro s hs hs'
        rw [OrderedDict.get?_eq_some, hs, hs']
        exact hentry
      rcases List.mem_cons.mp hpart with himg | hmeta
      · obtain ⟨hname, hv⟩ := Prod.mk.inj himg
        obtain ⟨hs, hsuf⟩ := partName_inj hsuffix imgSuffix_mem hname
        exact ⟨_, _, hget _ hs rfl, by rw [if_pos hsuf, hv]⟩
      · obtain ⟨hname, hv⟩ := Prod.mk.inj (List.mem_singleton.mp hmeta)
        obtain ⟨hs, hsuf⟩ := partName_inj hsuffix metaSuffix_mem hname
        refine ⟨_, _, hget _ hs rfl, ?_⟩
        rw [if_neg (by rw [hsuf]; decide), hv]
    · intro hpart
      obtain ⟨img, pickle, hget, hv⟩ := hpart
      refine ⟨_, OrderedDict.get?_eq_some.mp hget, ?_⟩
      rcases List.mem_cons.mp hsuffix with rfl | hsuffix
      · rw [hv, if_pos rfl]
        exact List.mem_cons_self ..
      · rw [hv, List.mem_singleton.mp hsuffix, if_neg (by decide)]
        exact List.mem_cons_of_mem _ (List.mem_cons_self ..)
  have hpair : ∀ (f : Bytes × Bytes → Bytes) (v : Bytes),
      (m.get? sensor).map f = some v ↔
        ∃ img pickle, m.get? sensor = some (img, pickle) ∧ v = f (img, pickle) := by
    intro f v
    rw [Option.map_eq_some_iff]
    constructor
    · intro h
      obtain ⟨entry, hentry, hv⟩ := h
      exact ⟨entry.1, entry.2, hentry, hv.symm⟩
    · intro h
      obtain ⟨img, pickle, hentry, hv⟩ := h
      exact ⟨_, hentry, hv.symm⟩
  refine ⟨?_, ?_⟩
  · refine Option.ext fun v => ?_
    rw [OrderedDict.get?_eq_some, hmem _ imgSuffix_mem, hpair]
    exact Iff.rfl
  · refine Option.ext fun v => ?_
    rw [OrderedDict.get?_eq_some, hmem _ metaSuffix_mem, hpair]
    exact Iff.rfl

/-! ### The two encoders

The two build the same parts but for the metadata pickles.  Each pickle holds an exposure of one
pixel, which the serial encoder has cut out of the image and the parallel one has made anew with a
zero in it; decoding takes everything of it but that pixel.
-/

/-- The same images under the same names, and pickles that may differ in the pixel of the
stub and decode alike. -/
structure DecodesAlike (env : CameraEnv A) (got parts : OrderedDict String Bytes) : Prop where
  keys : ∀ name, name ∈ got.keys ↔ name ∈ parts.keys
  images : ∀ sensor, got.get? (partName sensor imgSuffix) = parts.get? (partName sensor imgSuffix)
  pickles : ∀ sensor pickle, parts.get? (partName sensor metaSuffix) = some pickle →
    ∃ bbox p info, pickle = env.dumps ⟨onePixel A bbox p info, bbox⟩ ∧
      got.get? (partName sensor metaSuffix) = some (env.dumps ⟨onePixel A bbox 0 info, bbox⟩)
  exposures : ∀ sensor img pickle pickle',
    parts.get? (partName sensor imgSuffix) = some img →
    parts.get? (partName sensor metaSuffix) = some pickle →
    got.get? (partName sensor metaSuffix) = some pickle' →
    ∃ exp, decodeExposure env img pickle = .ok exp ∧ decodeExposure env img pickle' = .ok exp

/-- A file that is sent is decoded to the exposure it loads as. -/
theorem decodeExposure_loaded {handle : RawHandle A} (hsound : handle.Sound env) {l : Loaded A}
    (h : loaded env handle = .ok l) (p : Pixel) :
    decodeExposure env l.img (l.pickle env p) = .ok l.exposure :=
  decodeExposure_wire hsound (loaded_ok.mp h).1 (loaded_ok.mp h).2 p

/-- Every loaded file is the source's. -/
theorem loadAll_mem (hsource : source.Sound env) {ls : List (Loaded A)}
    (h : loadAll env source = .ok ls) {l : Loaded A} (hl : l ∈ ls) :
    ∃ handle : RawHandle A, handle.Sound env ∧ loaded env handle = .ok l := by
  obtain ⟨pairs, hfst, rfl, hpairs⟩ := Except.mapM_eq_ok.mp h
  obtain ⟨p, hp, rfl⟩ := List.mem_map.mp hl
  refine ⟨p.1.2, hsource p.1 (RawSource.mem_sorted.mp ?_), hpairs p hp⟩
  rw [← hfst]
  exact List.mem_map.mpr ⟨p, hp, rfl⟩

/-- What is found for a sensor among the sent files. -/
theorem sent_get? {pixel : Loaded A → Pixel} {ls : List (Loaded A)}
    {hnames : (ls.map Loaded.name).Nodup} {sensor : String} {v : Bytes × Bytes} :
    (sent env pixel ls hnames).get? sensor = some v ↔
      ∃ l ∈ ls, l.name = sensor ∧ v = (l.img, l.pickle env (pixel l)) := by
  rw [OrderedDict.get?_eq_some]
  unfold sent
  rw [List.mem_map]
  constructor
  · intro h
    obtain ⟨l, hl, heq⟩ := h
    exact ⟨l, hl, (Prod.mk.inj heq).1, (Prod.mk.inj heq).2.symm⟩
  · intro h
    obtain ⟨l, hl, hname, hv⟩ := h
    exact ⟨l, hl, by rw [hname, hv]⟩

/-- **What both encoders send decodes alike.** -/
theorem decodesAlike_sent (hsource : source.Sound env) {ls : List (Loaded A)}
    (hls : loadAll env source = .ok ls) {hnames : (ls.map Loaded.name).Nodup}
    {got parts : OrderedDict String Bytes}
    (hgot : IsPartsOf got (sent env (fun _ => 0) ls hnames))
    (hparts : IsPartsOf parts (sent env Loaded.firstPixel ls hnames)) :
    DecodesAlike env got parts := by
  -- a sensor's entry on either side comes from one loaded file
  have hfile : ∀ sensor img pickle, (sent env Loaded.firstPixel ls hnames).get? sensor =
      some (img, pickle) → ∃ l ∈ ls, img = l.img ∧ pickle = l.pickle env l.firstPixel ∧
        (sent env (fun _ => 0) ls hnames).get? sensor = some (l.img, l.pickle env 0) := by
    intro sensor img pickle hget
    obtain ⟨l, hl, hname, hv⟩ := sent_get?.mp hget
    obtain ⟨himg, hpickle⟩ := Prod.mk.inj hv
    exact ⟨l, hl, himg, hpickle, sent_get?.mpr ⟨l, hl, hname, rfl⟩⟩
  have himage : ∀ sensor, ((sent env (fun _ => 0) ls hnames).get? sensor).map Prod.fst =
      ((sent env Loaded.firstPixel ls hnames).get? sensor).map Prod.fst := by
    intro sensor
    cases hget : (sent env Loaded.firstPixel ls hnames).get? sensor with
    | some v =>
        obtain ⟨l, -, himg, -, hother⟩ := hfile sensor v.1 v.2 hget
        rw [hother, Option.map_some, Option.map_some, himg]
    | none =>
        have hkeys : sensor ∉ (sent env (fun _ => 0) ls hnames).keys := by
          have hnone := OrderedDict.get?_eq_none.mp hget
          unfold OrderedDict.keys sent at hnone ⊢
          rw [List.map_map] at hnone ⊢
          exact hnone
        rw [OrderedDict.get?_eq_none.mpr hkeys]
  have hpickle : ∀ sensor pickle, parts.get? (partName sensor metaSuffix) = some pickle →
      ∃ l ∈ ls, pickle = l.pickle env l.firstPixel ∧
        parts.get? (partName sensor imgSuffix) = some l.img ∧
        got.get? (partName sensor metaSuffix) = some (l.pickle env 0) := by
    intro sensor pickle hget
    obtain ⟨hfst, hsnd⟩ := IsPartsOf.get? hparts sensor
    rw [hsnd] at hget
    obtain ⟨v, hv, rfl⟩ := Option.map_eq_some_iff.mp hget
    obtain ⟨l, hl, himg, hpick, hother⟩ := hfile sensor v.1 v.2 hv
    refine ⟨l, hl, hpick, ?_, ?_⟩
    · rw [hfst, hv, Option.map_some, himg]
    · rw [(IsPartsOf.get? hgot sensor).2, hother, Option.map_some]
  refine ⟨?_, ?_, ?_, ?_⟩
  · intro name
    have hmap : ∀ (pixel : Loaded A → Pixel), (wireParts (sent env pixel ls hnames)).map Prod.fst =
        ls.flatMap fun l => [partName l.name imgSuffix, partName l.name metaSuffix] := by
      intro pixel
      unfold wireParts sent
      rw [List.map_flatMap, List.flatMap_map]
      rfl
    unfold OrderedDict.keys
    rw [(List.Perm.map Prod.fst hgot).mem_iff, (List.Perm.map Prod.fst hparts).mem_iff, hmap, hmap]
  · intro sensor
    rw [(IsPartsOf.get? hgot sensor).1, (IsPartsOf.get? hparts sensor).1, himage]
  · intro sensor pickle hget
    obtain ⟨l, -, hpick, -, hother⟩ := hpickle sensor pickle hget
    exact ⟨l.bbox, l.firstPixel, l.stub.info, hpick, hother⟩
  · intro sensor img pickle pickle' himg hpick hpick'
    obtain ⟨l, hl, rfl, himg', hother⟩ := hpickle sensor pickle hpick
    obtain ⟨handle, hsound, hload⟩ := loadAll_mem hsource hls hl
    obtain rfl := Option.some.inj (himg.symm.trans himg')
    obtain rfl := Option.some.inj (hpick'.symm.trans hother)
    exact ⟨l.exposure, decodeExposure_loaded hsound hload _, decodeExposure_loaded hsound hload _⟩

/-- **In-place framing equals the copying packer.** -/
theorem framing_in_place :
    (∀ parts : OrderedDict String Bytes, WithinFormat parts →
      ∃ f, buildFraming (sizesOf parts) none = .ok f ∧
        packBlob parts = .ok (f.framing ++ payloadBytes parts.entries)) ∧
    (∀ (parts : OrderedDict String Bytes) (offsets : OrderedDict String Nat),
      Pinned parts offsets →
      ∃ f, buildFraming (sizesOf parts) (some offsets) = .ok f ∧
        ∀ (buffer : Bytes) (order : List (String × Bytes)), f.totalSize ≤ buffer.length →
          order.Perm parts.entries →
          let written := Buffer.writeAll (Buffer.write buffer 0 f.framing) (f.pieces order)
          (written.take f.totalSize).length = f.totalSize ∧
            unpackBlob (written.take f.totalSize) = .ok parts) ∧
    (∀ (A : Afw) (env : CameraEnv A) (host : Host) (source : RawSource A)
        (nWorkers : Option Int) (parts : OrderedDict String Bytes) (block : Bytes) (total : Nat),
      env.Sound → source.Sound env →
      buildRawParts env (loadRaw env host.scratch) source = .ok parts →
      buildPartsParallel env host source nWorkers = .ok (block, total) →
      (block.take total).length = total ∧
        ∃ got, unpackBlob (block.take total) = .ok got ∧ DecodesAlike env got parts ∧
          ∀ blob, packBlob parts = .ok blob → unpackBlob blob = .ok parts) ∧
    (∀ (A : Afw) (env : CameraEnv A) (host : Host) (source : RawSource A)
        (nWorkers : Option Int) (ls : List (Loaded A)) (hnames : (ls.map Loaded.name).Nodup),
      env.Sound → source.Sound env → KeepsSize env source → source.handles.entries ≠ [] →
      loadAll env source = .ok ls → host.Ready nWorkers ls.length →
      WithinFormat (partsOf (sent env (fun _ => 0) ls hnames)) →
      (ls.map fun l => (l.pickle env 0).length).sum ≤ metaAllowance →
      ∃ block total, buildPartsParallel env host source nWorkers = .ok (block, total)) := by
  refine ⟨fun parts h => buildFraming_none h, fun parts offsets h => unpackBlob_pinned h, ?_, ?_⟩
  · intro A env host source nWorkers parts block total henv hsource hserial hparallel
    obtain ⟨ls, hls, hparts⟩ := buildRawParts_sent henv hsource hserial
    obtain ⟨ls', hls', hlength, hunpack⟩ := buildPartsParallel_sent henv hsource hparallel
    obtain rfl : ls = ls' := Except.ok.inj (hls.symm.trans hls')
    have hnames := nodup_loaded henv hls
    obtain ⟨got, hgot, hisParts⟩ := hunpack hnames
    refine ⟨hlength, got, hgot,
      decodesAlike_sent hsource hls hisParts (List.Perm.of_eq (hparts hnames)), ?_⟩
    intro blob hblob
    have hformat := withinFormat_of_packBlob hblob
    have heq : blob = _ := Except.ok.inj (hblob.symm.trans (packBlob_fits hformat))
    rw [heq]
    exact unpackBlob_packBlob hformat
  · intro A env host source nWorkers ls hnames henv hsource hsize hnonempty hls hready hformat
      hallowance
    exact buildPartsParallel_returns henv hsource hsize hls hnonempty hready hformat hallowance

/-! ### A camera of two detectors

The two sensors of one corner, each with a single amplifier of a single pixel, a one in the file
of the first and a two in that of the second.  Everything an example needs of them is a function
of which of the two is meant.
-/

/-- Headers that hold a raft and a slot, and nothing else to hand on. -/
def benchAfw : Afw := ⟨String × String, Unit, Unit, Unit, Unit⟩

/-- `Box2I.include` -/
def Box.join (b inner : Box) : Box :=
  if inner.width = 0 ∨ inner.height = 0 then b
  else if b.width = 0 ∨ b.height = 0 then inner
  else
    let minX := min b.minX inner.minX
    let minY := min b.minY inner.minY
    ⟨minX, minY, (max b.maxX inner.maxX - minX + 1).toNat,
      (max b.maxY inner.maxY - minY + 1).toNat⟩

/-- The box of a detector: the least that all of its amplifiers fit in. -/
def ccdBBox (d : Detector A) : Box := d.amps.foldl (fun b amp => b.join amp.target) ⟨0, 0, 0, 0⟩

/-- An amplifier told where it lives in the assembled CCD. -/
def updatedAmp (amp : Amplifier A) : Amplifier A :=
  { amp with rawBBox := amp.target, rawXYOffset := (0, 0), rawFlipX := false, rawFlipY := false }

/-- A detector updated for assembly, amplifier by amplifier. -/
def updatedDetector (d : Detector A) : Detector A := { d with amps := d.amps.map updatedAmp }

/-- A detector's box is the one that its amplifiers make together. -/
theorem ccdBBox_updatedDetector (d : Detector A) : ccdBBox (updatedDetector d) = ccdBBox d := by
  have htarget : ∀ amp : Amplifier A, (updatedAmp amp).target = amp.target := by
    intro amp
    show (⟨amp.target.minX + 0, amp.target.minY + 0, _, _⟩ : Box) = _
    rw [Int.add_zero, Int.add_zero]
    rfl
  unfold ccdBBox updatedDetector
  rw [List.foldl_map]
  simp only [htarget]

/-- Which of the two sensors. -/
def benchSlot (second : Bool) : String := if second then "SW1" else "SW0"

/-- The name of either sensor. -/
def benchName (second : Bool) : String := if second then "R00_SW1" else "R00_SW0"

def benchNumber (second : Bool) : Nat := if second then 192 else 191

def benchPath (second : Bool) : String :=
  if second then "MC_O_20260713_000050_R00_SW1.fits" else "MC_O_20260713_000050_R00_SW0.fits"

def benchAmp (onDisk : Box) : Amplifier benchAfw := ⟨onDisk, (0, 0), false, false, ()⟩

def benchDetector (second : Bool) (onDisk : Box) : Detector benchAfw :=
  ⟨benchName second, [benchAmp onDisk], ()⟩

/-- What the camera has for the amplifiers. -/
def benchBox : Box := ⟨0, 0, 1, 1⟩

def benchInfo (second : Bool) (onDisk : Box) : ExposureInfo benchAfw :=
  { detector := some (updatedDetector (benchDetector second onDisk))
    wcs := some ()
    filter := some ⟨"r", "r_57"⟩
    metadata := some ("R00", benchSlot second)
    visitInfo := some ()
    id := some 1 }

/-- The sensor that a pickled stub is of is told by the first byte. -/
def benchDumps (pickled : PickledStub benchAfw) : Bytes :=
  (if pickled.stub.info.detector.map Detector.name = some (benchName true) then 1 else 0) ::
    pixelBytes (pickled.stub.image.pixel 0 0)

def benchLoads (onDisk : Box) (blob : Bytes) : PickledStub benchAfw :=
  ⟨onePixel benchAfw onDisk (pixelOf blob.tail) (benchInfo (blob.head? = some 1) onDisk), onDisk⟩

/-- A camera with two detectors, and files that have their pixels at `onDisk`. -/
def benchEnv (onDisk : Box) : CameraEnv benchAfw :=
  { camera := fun n =>
      if n = benchNumber false then .ok (benchDetector false benchBox)
      else if n = benchNumber true then .ok (benchDetector true benchBox)
      else .error (.runtime "no such detector")
    imageFitsReader := fun path _ =>
      let second : Bool := path = benchPath true
      .ok ⟨.ok onDisk, .ok ("R00", benchSlot second),
        .ok (Plane.tabulate 1 1 fun _ _ => if second then 2 else 1)⟩
    asFloat := fun n => if n = 1 then 0x3f800000 else if n = 2 then 0x40000000 else 0
    fixAmpGeometry := fun amp bbox _ =>
      .ok (if amp.rawBBox = bbox then (amp, false) else ({ amp with rawBBox := bbox }, true))
    calcRawCcdBBox := ccdBBox
    makeUpdatedDetector := updatedDetector
    attachRawWcsFromBoresight := fun info =>
      .ok { info with wcs := some (), visitInfo := some (), id := some 1 }
    physicalFilter := fun _ _ => .ok "r_57"
    physicalToBand := fun _ => .ok "r"
    card := fun header name => .ok (if name = "RAFTBAY" then header.1 else header.2)
    dumps := benchDumps
    loads := fun blob => .ok (benchLoads onDisk blob)
    couldNotBroadcast := fun _ _ => ⟨.valueError, "could not broadcast"⟩
    notContained := fun _ _ => ⟨.other "LengthError", "not contained"⟩
    noDetector := ⟨.other "AttributeError", "no detector"⟩
    bufferTooSmall := ⟨.other "TypeError", "buffer is too small for requested array"⟩ }

/-- The camera has the two, each under its number, and no other. -/
theorem camera_bench {onDisk : Box} {n : Nat} {d : Detector benchAfw}
    (h : (benchEnv onDisk).camera n = .ok d) :
    ∃ second, n = benchNumber second ∧ d = benchDetector second benchBox := by
  by_cases hfirst : n = benchNumber false
  · refine ⟨false, hfirst, ?_⟩
    exact (Except.ok.inj ((if_pos hfirst).symm.trans h)).symm
  · by_cases hsecond : n = benchNumber true
    · refine ⟨true, hsecond, ?_⟩
      exact (Except.ok.inj (((if_neg hfirst).trans (if_pos hsecond)).symm.trans h)).symm
    · exact absurd (((if_neg hfirst).trans (if_neg hsecond)).symm.trans h) nofun

/-- The bench keeps what the camera package promises. -/
theorem benchEnv_sound (onDisk : Box) : (benchEnv onDisk).Sound := by
  refine ⟨ccdBBox_updatedDetector, fun d => rfl, ?_, ?_⟩
  · intro info info' h
    rw [← Except.ok.inj h]
  · intro n m d d' hn hm hname
    obtain ⟨second, rfl, rfl⟩ := camera_bench hn
    obtain ⟨second', rfl, rfl⟩ := camera_bench hm
    cases second <;> cases second' <;> first | rfl | exact absurd hname (by decide)

def benchHandle (second : Bool) : RawHandle benchAfw :=
  ⟨benchPath second, ("R00", benchSlot second), benchNumber second⟩

/-- The second file was found first. -/
def benchSource : RawSource benchAfw :=
  { handles := (OrderedDict.empty.set (benchNumber true) (benchHandle true)).set (benchNumber false)
      (benchHandle false)
    keyed := by
      intro entry hentry
      rcases List.mem_cons.mp hentry with rfl | hentry
      · rfl
      · rw [List.mem_singleton.mp hentry]
        rfl }

/-- The source has the two files and no other. -/
theorem mem_benchSource {entry : Nat × RawHandle benchAfw}
    (h : entry ∈ benchSource.handles.entries) :
    ∃ second, entry = (benchNumber second, benchHandle second) := by
  rcases List.mem_cons.mp h with rfl | h
  · exact ⟨true, rfl⟩
  · exact ⟨false, List.mem_singleton.mp h⟩

/-- Where the files of the example have their pixel. -/
def benchFile (x : Int) : Box := ⟨x, 0, 1, 1⟩

theorem ccdBBox_bench (second : Bool) (x : Int) :
    ccdBBox (benchDetector second (benchFile x)) = benchFile x ∧
      (benchAmp (benchFile x)).target = benchFile x := by
  have htarget : (benchAmp (benchFile x)).target = benchFile x := by
    show (⟨x + 0, 0 + 0, 1, 1⟩ : Box) = ⟨x, 0, 1, 1⟩
    rw [Int.add_zero]
    rfl
  refine ⟨?_, htarget⟩
  show Box.join ⟨0, 0, 0, 0⟩ (benchAmp (benchFile x)).target = _
  rw [htarget]
  rfl

theorem camera_benchNumber (second : Bool) (onDisk : Box) :
    (benchEnv onDisk).camera (benchNumber second) = .ok (benchDetector second benchBox) := by
  cases second <;> rfl

theorem fixedDetector_bench (second : Bool) (x : Int) {fixed : FixedDetector benchAfw}
    (h : fixedDetector (benchEnv (benchFile x)) (benchHandle second) = .ok fixed) :
    fixed.detector = benchDetector second (benchFile x) := by
  obtain ⟨d, pairs, hd, hpairs, rfl⟩ := fixedDetector_ok h
  rw [← Except.ok.inj ((camera_benchNumber second _).symm.trans hd)] at hpairs ⊢
  have hfixed : pairs.map Prod.snd = [benchAmp (benchFile x)] := by
    rw [← Except.ok.inj hpairs]
    by_cases hx : benchBox = benchFile x
    · show [(if benchBox = benchFile x then _ else _ : Amplifier benchAfw × Bool).1] = _
      rw [if_pos hx, hx]
    · show [(if benchBox = benchFile x then _ else _ : Amplifier benchAfw × Bool).1] = _
      rw [if_neg hx]
      rfl
  rw [hfixed]
  rfl

theorem buildStub_bench (second : Bool) (x : Int) {stub : Exposure benchAfw}
    (h : buildStub (benchEnv (benchFile x)) (benchHandle second) (benchFile x)
      (updatedDetector (benchDetector second (benchFile x))) = .ok stub) :
    stub.info = benchInfo second (benchFile x) := by
  rw [← Except.ok.inj h]
  rfl

/-- A stub is unpickled as it was pickled. -/
theorem benchLoads_dumps (second : Bool) (onDisk : Box) (p : Pixel) :
    benchLoads onDisk
        (benchDumps ⟨onePixel benchAfw onDisk p (benchInfo second onDisk), onDisk⟩) =
      ⟨onePixel benchAfw onDisk p (benchInfo second onDisk), onDisk⟩ := by
  have hpixel : pixelOf (pixelBytes p) = p := pixelOf_pixelBytes p
  cases second
  · show PickledStub.mk (onePixel benchAfw _ (pixelOf (pixelBytes p)) _) _ = _
    rw [hpixel]
    rfl
  · show PickledStub.mk (onePixel benchAfw _ (pixelOf (pixelBytes p)) _) _ = _
    rw [hpixel]
    rfl

/-- Either file keeps what is promised of a file, -/
theorem benchHandle_sound (second : Bool) (x : Int) :
    (benchHandle second).Sound (benchEnv (benchFile x)) := by
  obtain ⟨hbox, htarget⟩ := ccdBBox_bench second x
  refine ⟨?_, ?_, ?_⟩
  · intro d hd
    rw [← Except.ok.inj ((camera_benchNumber second _).symm.trans hd)]
    cases second <;> rfl
  · intro fixed hfixed
    rw [fixedDetector_bench second x hfixed]
    have hfull : (benchEnv (benchFile x)).calcRawCcdBBox (benchDetector second (benchFile x)) =
      benchFile x := hbox
    refine ⟨?_, ?_⟩
    · intro amp hamp
      rw [List.mem_singleton.mp hamp, hfull, htarget]
      exact ⟨Int.le_refl _, Int.le_refl _, Int.le_refl _, Int.le_refl _⟩
    · intro y x' hin
      rw [hfull] at hin
      exact ⟨_, List.mem_singleton.mpr rfl, htarget.symm ▸ hin⟩
  · intro fixed stub p hfixed hstub
    have hdetector := fixedDetector_bench second x hfixed
    have hfull : (benchEnv (benchFile x)).calcRawCcdBBox fixed.detector = benchFile x := by
      rw [hdetector]
      exact hbox
    rw [hfull] at hstub ⊢
    rw [hdetector] at hstub
    rw [buildStub_bench second x hstub]
    exact congrArg Except.ok (benchLoads_dumps second (benchFile x) p)

/-- and so they both are a source. -/
theorem benchSource_sound (x : Int) : benchSource.Sound (benchEnv (benchFile x)) := by
  intro entry hentry
  obtain ⟨second, rfl⟩ := mem_benchSource hentry
  exact benchHandle_sound second x

/-- What a file of the example loads as. -/
def benchLoaded (second : Bool) (x : Int) : Loaded benchAfw :=
  { assembled :=
      { array := Plane.tabulate 1 1 fun _ _ => if second then 0x40000000 else 0x3f800000
        bbox := benchFile x
        detector := updatedDetector (benchDetector second (benchFile x)) }
    stub := onePixel benchAfw (benchFile x) 0 (benchInfo second (benchFile x)) }

/-- The files in the order of their detectors' numbers. -/
def benchFiles (x : Int) : List (Loaded benchAfw) := [benchLoaded false x, benchLoaded true x]

/-- Both files load. -/
theorem loadAll_bench : loadAll (benchEnv (benchFile 0)) benchSource = .ok (benchFiles 0) := by
  rfl

/-- A machine on which everything goes well; its workers are done in the reverse order. -/
def benchHost : Host :=
  { serialEncode := false
    hotThreadPools := none
    shmFreeBytes := none
    sharedMemory := fun size => .ok (List.replicate size 0)
    sharedMemory_size := by
      intro size block h
      rw [← Except.ok.inj h, List.length_replicate]
    poolFailure := none
    schedule := List.reverse
    schedule_perm := List.reverse_perm
    scratch := fun _ _ => 0xdeadbeef }

/-- Either image is of the size that the camera gives it. -/
theorem keepsSize_bench (x : Int) : KeepsSize (benchEnv (benchFile x)) benchSource := by
  intro entry hentry l hl
  obtain ⟨second, rfl⟩ := mem_benchSource hentry
  obtain ⟨fixed, p, array, hfixed, -, -, ha⟩ := assembleImage_ok.mp (loaded_ok.mp hl).1
  have hshape : l.bbox = benchFile x := by
    unfold Loaded.bbox
    rw [ha]
    dsimp only
    rw [fixedDetector_bench second x hfixed]
    exact (ccdBBox_bench second x).1
  rw [hshape]
  cases second <;> rfl

/-- The two have names of their own. -/
theorem nodup_bench (x : Int) : ((benchFiles x).map Loaded.name).Nodup := by
  show [benchName false, benchName true].Nodup
  decide

/-- There is room for the blob, and the pool runs. -/
theorem ready_bench : benchHost.Ready none (benchFiles 0).length :=
  ⟨rfl, rfl, fun size => ⟨List.replicate size 0, rfl⟩, ⟨by decide, rfl⟩⟩

/-- The names and the sizes are within the format's limits. -/
theorem withinFormat_bench : WithinFormat
    (partsOf (sent (benchEnv (benchFile 0)) (fun _ => 0) (benchFiles 0) (nodup_bench 0))) :=
  ⟨by decide +kernel, by decide +kernel, by decide +kernel⟩

/-- The serial encoder's stub carries the image's one, and the worker's carries a zero. -/
theorem framing_in_place_one_pixel :
    ∃ parts block total blob,
      buildRawParts (benchEnv (benchFile 0)) (loadRaw (benchEnv (benchFile 0)) benchHost.scratch)
        benchSource = .ok parts ∧
      buildPartsParallel (benchEnv (benchFile 0)) benchHost benchSource none =
        .ok (block, total) ∧
      packBlob parts = .ok blob ∧ unpackBlob (block.take total) ≠ unpackBlob blob := by
  have henv := benchEnv_sound (benchFile 0)
  have hsource := benchSource_sound 0
  obtain ⟨block, total, hparallel⟩ := buildPartsParallel_returns henv hsource (keepsSize_bench 0)
    loadAll_bench (List.cons_ne_nil _ _) ready_bench withinFormat_bench (by decide)
  obtain ⟨ls, hls, -, hunpack⟩ := buildPartsParallel_sent henv hsource hparallel
  obtain rfl : benchFiles 0 = ls := Except.ok.inj (loadAll_bench.symm.trans hls)
  obtain ⟨got, hgot, hparts⟩ := hunpack (nodup_bench 0)
  obtain ⟨parts, hserial⟩ : ∃ parts, buildRawParts (benchEnv (benchFile 0))
      (loadRaw (benchEnv (benchFile 0)) benchHost.scratch) benchSource = .ok parts := ⟨_, rfl⟩
  obtain ⟨ls, hls, hwire⟩ := buildRawParts_sent henv hsource hserial
  obtain rfl : benchFiles 0 = ls := Except.ok.inj (loadAll_bench.symm.trans hls)
  have hformat : WithinFormat parts := by
    have hfits : WithinFormat (partsOf (sent (benchEnv (benchFile 0)) Loaded.firstPixel
        (benchFiles 0) (nodup_bench 0))) := ⟨by decide +kernel, by decide +kernel, by decide +kernel⟩
    exact WithinFormat.perm (List.Perm.of_eq (hwire (nodup_bench 0))) hfits
  refine ⟨parts, block, total, _, hserial, hparallel, packBlob_fits hformat, ?_⟩
  rw [hgot, unpackBlob_packBlob hformat]
  intro heq
  obtain rfl : got = parts := Except.ok.inj heq
  have hzero := (IsPartsOf.get? hparts "R00_SW0").2
  have hone := (IsPartsOf.get? (List.Perm.of_eq (hwire (nodup_bench 0))) "R00_SW0").2
  have hpixel : ((sent (benchEnv (benchFile 0)) (fun _ => 0) (benchFiles 0) (nodup_bench 0)).get?
      "R00_SW0").map Prod.snd ≠ ((sent (benchEnv (benchFile 0)) Loaded.firstPixel
        (benchFiles 0) (nodup_bench 0)).get? "R00_SW0").map Prod.snd := by
    decide +kernel
  exact hpixel (hzero.symm.trans hone)

theorem framing_in_place_bench :
    ∃ parts block total got,
      buildRawParts (benchEnv (benchFile 0)) (loadRaw (benchEnv (benchFile 0)) benchHost.scratch)
        benchSource = .ok parts ∧
      buildPartsParallel (benchEnv (benchFile 0)) benchHost benchSource none =
        .ok (block, total) ∧
      unpackBlob (block.take total) = .ok got ∧
      DecodesAlike (benchEnv (benchFile 0)) got parts := by
  obtain ⟨block, total, hparallel⟩ := framing_in_place.2.2.2 _ _ _ _ none _ (nodup_bench 0)
    (benchEnv_sound (benchFile 0)) (benchSource_sound 0) (keepsSize_bench 0)
    (List.cons_ne_nil _ _) loadAll_bench ready_bench withinFormat_bench (by decide)
  obtain ⟨parts, hserial⟩ : ∃ parts, buildRawParts (benchEnv (benchFile 0))
      (loadRaw (benchEnv (benchFile 0)) benchHost.scratch) benchSource = .ok parts := ⟨_, rfl⟩
  obtain ⟨-, got, hgot, halike, -⟩ := framing_in_place.2.2.1 _ _ _ _ none _ _ _
    (benchEnv_sound (benchFile 0)) (benchSource_sound 0) hserial hparallel
  exact ⟨parts, block, total, got, hserial, hparallel, hgot, halike⟩

end DonutServer.Producer
