/-
One file, whichever way it is assembled.

The serial encoder assembles into an array of its own and a worker into a slot of a
shared block, and neither clears it first.  Where the amplifiers tile the CCD the result
is the same array (`assembleImage_given`).  The two encoders' pickles differ in the stub's
pixel and in nothing else, and `decodeExposure` does not look at it, so either way what is
decoded is what `loadRaw` returns (`decodeExposure_wire`).
-/
import DonutServer.Producer.Assemble

namespace DonutServer.Producer

variable {A : Afw} {env : CameraEnv A}

/-! ### The blit loop

The loop assigns one block after another, and a later one may lie over an earlier.  That does not
matter here: what two arrays have in common after the loop only grows, and in the end it is all the
blocks.
-/

/-- Arrays of one shape agree nowhere in particular. -/
theorem agreeOn_of_shape {p q : Plane Pixel} (h : p.shape = q.shape) :
    Plane.AgreeOn (fun _ _ => False) p q :=
  Plane.AgreeOn.nowhere (congrArg Prod.fst h) (congrArg Prod.snd h)

/-- Where an amplifier goes depends on the array's shape alone. -/
theorem ampBlock_congr {S : Nat → Nat → Prop} {p q : Plane Pixel} (h : Plane.AgreeOn S p q)
    (full : Box) (amp : Amplifier A) : ampBlock full amp p = ampBlock full amp q :=
  h.block ..

/-- One amplifier leaves the array as large as it was. -/
theorem blitAmp_shape {full : Box} {reader : AmpReader A} {amp : Amplifier A}
    {out out' : Plane Pixel} (h : blitAmp env full reader amp out = .ok out') :
    out'.shape = out.shape := by
  unfold blitAmp at h
  obtain ⟨array, -, h⟩ := Except.bind_eq_ok.mp h
  dsimp only at h
  split at h
  · rw [← Except.ok.inj h]
    rfl
  · exact absurd h nofun

/-- And so do all of them. -/
theorem blitAmps_shape {full : Box} {pairs : List (AmpReader A × Amplifier A)}
    {out out' : Plane Pixel} (h : blitAmps env full pairs out = .ok out') :
    out'.shape = out.shape := by
  induction pairs generalizing out with
  | nil =>
      unfold blitAmps at h
      rw [Except.ok.inj h]
  | cons pair rest ih =>
      unfold blitAmps at h
      obtain ⟨next, hnext, h⟩ := Except.bind_eq_ok.mp h
      exact (ih h).trans (blitAmp_shape hnext)

/-- One amplifier blitted into two arrays: they agree where they did, and on its block. -/
theorem blitAmp_agree {S : Nat → Nat → Prop} {full : Box} {reader : AmpReader A}
    {amp : Amplifier A} {p q p' : Plane Pixel} (h : Plane.AgreeOn S p q)
    (hp : blitAmp env full reader amp p = .ok p') :
    ∃ q', blitAmp env full reader amp q = .ok q' ∧
      Plane.AgreeOn (fun y x => S y x ∨ (ampBlock full amp p).Holds y x) p' q' := by
  unfold blitAmp at hp ⊢
  obtain ⟨array, harray, hp⟩ := Except.bind_eq_ok.mp hp
  rw [← ampBlock_congr h full amp, harray]
  dsimp only [bind, Except.bind] at hp ⊢
  split at hp
  · rename_i htakes
    rw [if_pos htakes]
    rw [← Except.ok.inj hp]
    exact ⟨_, rfl, h.assign _ _⟩
  · exact absurd hp nofun

/-- The blocks of all the amplifiers. -/
def OnSomeAmp (full : Box) (pairs : List (AmpReader A × Amplifier A)) (p : Plane Pixel)
    (y x : Nat) : Prop :=
  ∃ pair ∈ pairs, (ampBlock full pair.2 p).Holds y x

/-- The same amplifiers blitted into two arrays make them agree on all their blocks. -/
theorem blitAmps_agree {full : Box} {pairs : List (AmpReader A × Amplifier A)} :
    ∀ {S : Nat → Nat → Prop} {p q p' : Plane Pixel}, Plane.AgreeOn S p q →
      blitAmps env full pairs p = .ok p' →
      ∃ q', blitAmps env full pairs q = .ok q' ∧
        Plane.AgreeOn (fun y x => S y x ∨ OnSomeAmp full pairs p y x) p' q' := by
  induction pairs with
  | nil =>
      intro S p q p' h hp
      unfold blitAmps at hp ⊢
      refine ⟨q, rfl, ?_⟩
      rw [← Except.ok.inj hp]
      refine ⟨h.height, h.width, ?_⟩
      intro y x hy hx hS
      rcases hS with hS | ⟨pair, hpair, -⟩
      · exact h.pixel y x hy hx hS
      · exact absurd hpair List.not_mem_nil
  | cons pair rest ih =>
      intro S p q p' h hp
      unfold blitAmps at hp ⊢
      obtain ⟨next, hnext, hp⟩ := Except.bind_eq_ok.mp hp
      obtain ⟨next', hnext', hagree⟩ := blitAmp_agree h hnext
      obtain ⟨q', hq', hfinal⟩ := ih hagree hp
      refine ⟨q', Except.bind_eq_ok.mpr ⟨next', hnext', hq'⟩, hfinal.height, hfinal.width, ?_⟩
      intro y x hy hx hS
      apply hfinal.pixel y x hy hx
      rcases hS with hS | ⟨pair', hpair, hblock⟩
      · exact Or.inl (Or.inl hS)
      · rcases List.mem_cons.mp hpair with rfl | hrest
        · exact Or.inl (Or.inr hblock)
        · have hsame := agreeOn_of_shape (blitAmp_shape hnext)
          exact Or.inr ⟨pair', hrest, (ampBlock_congr hsame full pair'.2).symm ▸ hblock⟩

/-! ### Amplifiers that tile the CCD

Where the blocks cover the array, two arrays that agree on all of them are the same.  So what the
array held at first is gone, which is what both encoders and the ingest rely on.
-/

/-- An amplifier inside the CCD stands where its box says. -/
theorem ampBlock_inside {full : Box} {amp : Amplifier A} {p : Plane Pixel}
    (hshape : p.shape = full.shape) (hinside : full.Contains amp.target) {y x : Nat}
    (hin : amp.target.Contains ⟨full.minX + x, full.minY + y, 1, 1⟩) :
    (ampBlock full amp p).Holds y x := by
  obtain ⟨hleft, hright, htop, hbottom⟩ := hinside
  obtain ⟨hx, hx', hy, hy'⟩ := hin
  unfold Plane.shape Box.shape at hshape
  obtain ⟨hheight, hwidth⟩ := Prod.mk.inj hshape
  unfold Box.maxX at hright hx'
  unfold Box.maxY at hbottom hy'
  dsimp only at hx hx' hy hy'
  have htop' : (Plane.sliceBound p.height (amp.target.minY - full.minY) : Int) = _ :=
    Plane.sliceBound_of_le (by omega) (by omega)
  have hbottom' : (Plane.sliceBound p.height (amp.target.maxY + 1 - full.minY) : Int) = _ :=
    Plane.sliceBound_of_le (by unfold Box.maxY; omega) (by unfold Box.maxY; omega)
  have hleft' : (Plane.sliceBound p.width (amp.target.minX - full.minX) : Int) = _ :=
    Plane.sliceBound_of_le (by omega) (by omega)
  have hright' : (Plane.sliceBound p.width (amp.target.maxX + 1 - full.minX) : Int) = _ :=
    Plane.sliceBound_of_le (by unfold Box.maxX; omega) (by unfold Box.maxX; omega)
  unfold Box.maxY at hbottom'
  unfold Box.maxX at hright'
  unfold ampBlock Plane.block Plane.Block.Holds Box.maxX Box.maxY
  dsimp only
  omega

/-- The rebuilt detector: the camera's, with the amplifiers the file has. -/
theorem fixedDetector_ok {handle : RawHandle A} {fixed : FixedDetector A}
    (h : fixedDetector env handle = .ok fixed) :
    ∃ d pairs, env.camera handle.detectorNum = .ok d ∧
      readAmps env handle.path 1 d.amps = .ok pairs ∧
      fixed = ⟨{ d with amps := pairs.map Prod.snd }, pairs.map Prod.fst⟩ := by
  unfold fixedDetector at h
  obtain ⟨d, hd, h⟩ := Except.bind_eq_ok.mp h
  obtain ⟨pairs, hpairs, h⟩ := Except.bind_eq_ok.mp h
  exact ⟨d, pairs, hd, hpairs, (Except.ok.inj h).symm⟩

/-- Every amplifier of the rebuilt detector has a reader. -/
theorem fixedDetector_readers {handle : RawHandle A} {fixed : FixedDetector A}
    (h : fixedDetector env handle = .ok fixed) {amp : Amplifier A}
    (hamp : amp ∈ fixed.detector.amps) :
    ∃ pair ∈ fixed.readers.zip fixed.detector.amps, pair.2 = amp := by
  obtain ⟨d, pairs, -, -, rfl⟩ := fixedDetector_ok h
  obtain ⟨pair, hpair, hsnd⟩ := List.mem_map.mp hamp
  refine ⟨pair, ?_, hsnd⟩
  rw [← List.zip_of_prod rfl rfl]
  exact hpair

/-- Every position of the CCD is on some amplifier. -/
theorem onSomeAmp_of_tiles {handle : RawHandle A} {fixed : FixedDetector A}
    (h : fixedDetector env handle = .ok fixed) (htiles : Tiles env fixed.detector)
    {p : Plane Pixel} (hshape : p.shape = (env.calcRawCcdBBox fixed.detector).shape) {y x : Nat}
    (hy : y < p.height) (hx : x < p.width) :
    OnSomeAmp (env.calcRawCcdBBox fixed.detector) (fixed.readers.zip fixed.detector.amps) p y x := by
  generalize hfull : env.calcRawCcdBBox fixed.detector = full at hshape
  obtain ⟨hheight, hwidth⟩ := Prod.mk.inj hshape
  have hcontains : full.Contains ⟨full.minX + x, full.minY + y, 1, 1⟩ := by
    unfold Box.Contains Box.maxX Box.maxY
    dsimp only
    omega
  obtain ⟨amp, hamp, hin⟩ := htiles.covers (full.minY + y) (full.minX + x) (hfull ▸ hcontains)
  obtain ⟨pair, hpair, rfl⟩ := fixedDetector_readers h hamp
  exact ⟨pair, hpair, ampBlock_inside hshape (hfull ▸ htiles.inside _ hamp) hin⟩

/-- Blitting a whole CCD leaves nothing of what the array held. -/
theorem blitAmps_scratch {handle : RawHandle A} {fixed : FixedDetector A}
    (h : fixedDetector env handle = .ok fixed) (htiles : Tiles env fixed.detector)
    {p q r : Plane Pixel} (hp : p.shape = (env.calcRawCcdBBox fixed.detector).shape)
    (hq : q.shape = p.shape)
    (hblit : blitAmps env (env.calcRawCcdBBox fixed.detector)
      (fixed.readers.zip fixed.detector.amps) p = .ok r) :
    blitAmps env (env.calcRawCcdBBox fixed.detector)
      (fixed.readers.zip fixed.detector.amps) q = .ok r := by
  obtain ⟨r', hr', hagree⟩ := blitAmps_agree (agreeOn_of_shape hq.symm) hblit
  obtain ⟨hheight, hwidth⟩ := Prod.mk.inj (blitAmps_shape hblit)
  have heq : r = r' := hagree.eq fun y x hy hx =>
    Or.inr (onSomeAmp_of_tiles h htiles hp (hheight ▸ hy) (hwidth ▸ hx))
  rw [heq]
  exact hr'

/-- What `assembleImage` is made of. -/
theorem assembleImage_ok {scratch : Nat → Nat → Pixel} {handle : RawHandle A}
    {out : Option (Plane Pixel)} {a : Assembled A} :
    assembleImage env scratch handle out = .ok a ↔
      ∃ fixed p array, fixedDetector env handle = .ok fixed ∧
        destination scratch handle.path (env.calcRawCcdBBox fixed.detector).shape out = .ok p ∧
        blitAmps env (env.calcRawCcdBBox fixed.detector)
          (fixed.readers.zip fixed.detector.amps) p = .ok array ∧
        a = ⟨array, env.calcRawCcdBBox fixed.detector,
          env.makeUpdatedDetector fixed.detector⟩ := by
  unfold assembleImage
  constructor
  · intro h
    obtain ⟨fixed, hfixed, h⟩ := Except.bind_eq_ok.mp h
    obtain ⟨p, hp, h⟩ := Except.bind_eq_ok.mp h
    obtain ⟨array, harray, h⟩ := Except.bind_eq_ok.mp h
    exact ⟨fixed, p, array, hfixed, hp, harray, (Except.ok.inj h).symm⟩
  · intro h
    obtain ⟨fixed, p, array, hfixed, hp, harray, ha⟩ := h
    rw [ha]
    exact Except.bind_eq_ok.mpr ⟨fixed, hfixed, Except.bind_eq_ok.mpr ⟨p, hp,
      Except.bind_eq_ok.mpr ⟨array, harray, rfl⟩⟩⟩

/-- An array that is given has to have the right shape. -/
theorem destination_given {scratch : Nat → Nat → Pixel} {path : String} {shape : Nat × Nat}
    {out p : Plane Pixel} :
    destination scratch path shape (some out) = .ok p ↔ out.shape = shape ∧ out = p := by
  by_cases hshape : out.shape = shape
  · have h : destination scratch path shape (some out) = .ok out := if_pos hshape
    rw [h, Except.ok.injEq]
    exact ⟨fun hout => ⟨hshape, hout⟩, And.right⟩
  · have h : ∃ x, destination scratch path shape (some out) = .error x := ⟨_, if_neg hshape⟩
    obtain ⟨x, hx⟩ := h
    rw [hx]
    exact ⟨nofun, fun h => absurd h.1 hshape⟩

/-- The array to blit into has the shape that is asked for. -/
theorem destination_shape {scratch : Nat → Nat → Pixel} {path : String} {shape : Nat × Nat}
    {out : Option (Plane Pixel)} {p : Plane Pixel}
    (h : destination scratch path shape out = .ok p) : p.shape = shape := by
  cases out with
  | none =>
      have hp : npEmpty scratch shape = p := Except.ok.inj h
      rw [← hp]
      rfl
  | some out =>
      obtain ⟨hshape, hp⟩ := destination_given.mp h
      rw [← hp]
      exact hshape

/-- The image has the shape of the box that is returned with it. -/
theorem assembleImage_shape {scratch : Nat → Nat → Pixel} {handle : RawHandle A}
    {out : Option (Plane Pixel)} {a : Assembled A}
    (h : assembleImage env scratch handle out = .ok a) : a.array.shape = a.bbox.shape := by
  obtain ⟨fixed, p, array, -, hp, harray, rfl⟩ := assembleImage_ok.mp h
  exact (blitAmps_shape harray).trans (destination_shape hp)

/-! ### One file's promises

What is relied on of a file is said in one place.  The header is one that names the detector whose
pixels the file has, since by the header alone it is assembled.
-/

/-- A 1x1 exposure at the corner of a box. -/
def onePixel (A : Afw) (bbox : Box) (p : Pixel) (info : ExposureInfo A) : Exposure A :=
  { exposureF A bbox.corner with image := Plane.tabulate 1 1 fun _ _ => p, info := info }

/-- What the producer relies on for one file: its header names the detector its pixels are
of, its amplifiers tile the CCD, and its stub is unpickled as it was pickled. -/
structure RawHandle.Sound (env : CameraEnv A) (handle : RawHandle A) : Prop where
  named : ∀ d, env.camera handle.detectorNum = .ok d →
    detectorName env handle.header = .ok d.name
  tiles : ∀ fixed, fixedDetector env handle = .ok fixed → Tiles env fixed.detector
  pickled : ∀ fixed stub p, fixedDetector env handle = .ok fixed →
    buildStub env handle (env.calcRawCcdBBox fixed.detector)
      (env.makeUpdatedDetector fixed.detector) = .ok stub →
    let sent : PickledStub A := ⟨onePixel A (env.calcRawCcdBBox fixed.detector) p stub.info,
      env.calcRawCcdBBox fixed.detector⟩
    env.loads (env.dumps sent) = .ok sent

/-- **Whatever it is assembled into**, a file whose amplifiers tile the CCD gives the same
image: an array it is given need only have the right shape. -/
theorem assembleImage_given {handle : RawHandle A} (hsound : handle.Sound env)
    (scratch scratch' : Nat → Nat → Pixel) (out : Plane Pixel) (a : Assembled A) :
    assembleImage env scratch handle (some out) = .ok a ↔
      out.shape = a.bbox.shape ∧ assembleImage env scratch' handle none = .ok a := by
  constructor
  · intro h
    obtain ⟨fixed, p, array, hfixed, hp, harray, rfl⟩ := assembleImage_ok.mp h
    have hshape := destination_shape hp
    refine ⟨(destination_given.mp hp).1, assembleImage_ok.mpr
      ⟨fixed, _, array, hfixed, rfl, ?_, rfl⟩⟩
    exact blitAmps_scratch hfixed (hsound.tiles _ hfixed) hshape hshape.symm harray
  · intro h
    obtain ⟨hout, h⟩ := h
    obtain ⟨fixed, p, array, hfixed, hp, harray, rfl⟩ := assembleImage_ok.mp h
    have hshape := destination_shape hp
    refine assembleImage_ok.mpr
      ⟨fixed, out, array, hfixed, destination_given.mpr ⟨hout, rfl⟩, ?_, rfl⟩
    exact blitAmps_scratch hfixed (hsound.tiles _ hfixed) hshape (hout.trans hshape.symm) harray

/-- A fresh array's content does not matter. -/
theorem assembleImage_fresh {handle : RawHandle A} (hsound : handle.Sound env)
    (scratch scratch' : Nat → Nat → Pixel) {a : Assembled A}
    (h : assembleImage env scratch handle none = .ok a) :
    assembleImage env scratch' handle none = .ok a := by
  have hgiven := (assembleImage_given hsound scratch scratch (npEmpty scratch a.bbox.shape) a).mpr
    ⟨rfl, h⟩
  exact ((assembleImage_given hsound scratch scratch' _ a).mp hgiven).2

/-! ### Over the wire

The image comes back pixel by pixel and the rest out of the pickle.  The components are set on a
new exposure one after the other, in the source's order, so that one which is missing stays
missing.
-/

/-- The exposure of an image and the components of a stub. -/
def Assembled.exposure (a : Assembled A) (info : ExposureInfo A) : Exposure A :=
  { exposureF A a.bbox with image := a.array, info := info }

/-- What `loadRaw` is made of. -/
theorem loadRaw_ok {scratch : Nat → Nat → Pixel} {handle : RawHandle A} {exp : Exposure A} :
    loadRaw env scratch handle = .ok exp ↔
      ∃ a stub, assembleImage env scratch handle none = .ok a ∧
        buildStub env handle a.bbox a.detector = .ok stub ∧ exp = a.exposure stub.info := by
  unfold loadRaw
  constructor
  · intro h
    obtain ⟨a, ha, h⟩ := Except.bind_eq_ok.mp h
    obtain ⟨stub, hstub, h⟩ := Except.bind_eq_ok.mp h
    exact ⟨a, stub, ha, hstub, (Except.ok.inj h).symm⟩
  · intro h
    obtain ⟨a, stub, ha, hstub, hexp⟩ := h
    rw [hexp]
    exact Except.bind_eq_ok.mpr ⟨a, ha, Except.bind_eq_ok.mpr ⟨stub, hstub, rfl⟩⟩

/-- A stub is a single zero at the corner of its box. -/
theorem buildStub_ok {handle : RawHandle A} {bbox : Box} {detector : Detector A}
    {stub : Exposure A} (h : buildStub env handle bbox detector = .ok stub) :
    stub = onePixel A bbox 0 stub.info := by
  unfold buildStub at h
  obtain ⟨info, -, h⟩ := Except.bind_eq_ok.mp h
  obtain ⟨physical, -, h⟩ := Except.bind_eq_ok.mp h
  obtain ⟨band, -, h⟩ := Except.bind_eq_ok.mp h
  rw [← Except.ok.inj h]
  rfl

/-- The detector a stub was built with is the one it carries. -/
theorem buildStub_detector (henv : env.Sound) {handle : RawHandle A} {bbox : Box}
    {detector : Detector A} {stub : Exposure A}
    (h : buildStub env handle bbox detector = .ok stub) :
    stub.info.detector = some detector := by
  unfold buildStub at h
  obtain ⟨info, hinfo, h⟩ := Except.bind_eq_ok.mp h
  obtain ⟨physical, -, h⟩ := Except.bind_eq_ok.mp h
  obtain ⟨band, -, h⟩ := Except.bind_eq_ok.mp h
  rw [← Except.ok.inj h]
  exact henv.attachedDetector _ _ hinfo

/-- One pixel of a plane. -/
theorem cropTo_corner (p : Plane Pixel) :
    cropTo 0 0 (1, 1) p = Plane.tabulate 1 1 fun _ _ => p.pixel 0 0 := by
  refine Plane.ext_pixel (p := cropTo ..) rfl rfl ?_
  intro y x hy hx
  unfold cropTo at hy hx ⊢
  rw [Plane.height_tabulate] at hy
  rw [Plane.width_tabulate] at hx
  dsimp only at hy hx ⊢
  rw [Plane.pixel_tabulate _ hy hx, Plane.pixel_tabulate _ hy hx,
    show 0 + y = 0 by omega, show 0 + x = 0 by omega]

/-- The 1x1 part of an exposure at its corner. -/
theorem subimage_corner {bbox : Box} {p : Plane Pixel} {info : ExposureInfo A}
    (hshape : p.shape = bbox.shape) {exp : Exposure A}
    (hexp : exp = { exposureF A bbox with image := p, info := info }) {stub : Exposure A} :
    exp.subimage env exp.bbox.corner = .ok stub ↔
      bbox.Contains bbox.corner ∧ stub = onePixel A bbox (p.pixel 0 0) info := by
  obtain ⟨hheight, hwidth⟩ := Prod.mk.inj hshape
  have hbbox : exp.bbox = bbox := by
    rw [hexp]
    unfold Exposure.bbox exposureF
    dsimp only
    rw [hheight, hwidth]
  have hx : exp.minX = bbox.minX := congrArg Exposure.minX hexp
  have hy : exp.minY = bbox.minY := congrArg Exposure.minY hexp
  unfold Exposure.subimage
  rw [hbbox]
  by_cases hcontains : bbox.Contains bbox.corner
  · have hpos : 0 < bbox.height ∧ 0 < bbox.width := by
      obtain ⟨-, hright, -, hbottom⟩ := hcontains
      unfold Box.maxX Box.corner at hright
      unfold Box.maxY Box.corner at hbottom
      dsimp only at hright hbottom
      omega
    have hzeros : cropTo 0 0 (1, 1) (zeros bbox.shape) = zeros (1, 1) := by
      have hzero : (zeros bbox.shape).pixel 0 0 = 0 := Plane.pixel_tabulate _ hpos.1 hpos.2
      rw [cropTo_corner, hzero]
      rfl
    have htop : (bbox.corner.minY - exp.minY).toNat = 0 := by
      rw [hy]
      exact Int.toNat_eq_zero.mpr (Int.le_of_eq (Int.sub_self _))
    have hleft : (bbox.corner.minX - exp.minX).toNat = 0 := by
      rw [hx]
      exact Int.toNat_eq_zero.mpr (Int.le_of_eq (Int.sub_self _))
    rw [if_pos hcontains, htop, hleft, hexp]
    dsimp only [exposureF]
    rw [show bbox.corner.shape = (1, 1) from rfl, cropTo_corner p, hzeros]
    exact ⟨fun h => ⟨hcontains, (Except.ok.inj h).symm⟩, fun h => congrArg _ h.2.symm⟩
  · rw [if_neg hcontains]
    exact ⟨nofun, fun h => absurd h.1 hcontains⟩

/-- The worker's pickle: the stub carries a zero. -/
theorem encodeMeta_stub {handle : RawHandle A} {bbox : Box} {detector : Detector A}
    {stub : Exposure A} (h : buildStub env handle bbox detector = .ok stub) :
    encodeMeta env stub (some bbox) = .ok (env.dumps ⟨onePixel A bbox 0 stub.info, bbox⟩) := by
  have hcontains : bbox.corner.Contains bbox.corner.corner :=
    ⟨Int.le_refl _, Int.le_refl _, Int.le_refl _, Int.le_refl _⟩
  have hsub : stub.subimage env stub.bbox.corner = .ok (onePixel A bbox.corner 0 stub.info) :=
    (subimage_corner rfl (buildStub_ok h)).mpr ⟨hcontains, rfl⟩
  exact Except.bind_eq_ok.mpr ⟨_, hsub, rfl⟩

/-- The serial encoder's pickle: the stub carries a pixel of the image. -/
theorem encodeExposure_ok {a : Assembled A} (hshape : a.array.shape = a.bbox.shape)
    {info : ExposureInfo A} {encoded : Bytes × Bytes}
    (h : encodeExposure env (a.exposure info) = .ok encoded) :
    encoded = (imageBytes a.array,
      env.dumps ⟨onePixel A a.bbox (a.array.pixel 0 0) info, a.bbox⟩) := by
  unfold encodeExposure at h
  obtain ⟨pickled, hpickled, h⟩ := Except.bind_eq_ok.mp h
  unfold encodeMeta at hpickled
  obtain ⟨stub, hstub, hpickled⟩ := Except.bind_eq_ok.mp hpickled
  obtain ⟨-, rfl⟩ := (subimage_corner hshape rfl).mp hstub
  have hbbox : (a.exposure info).bbox = a.bbox := by
    obtain ⟨hheight, hwidth⟩ := Prod.mk.inj hshape
    unfold Assembled.exposure Exposure.bbox exposureF
    dsimp only
    rw [hheight, hwidth]
  have hbytes := Except.ok.inj hpickled
  rw [Option.getD_none, hbbox] at hbytes
  rw [← Except.ok.inj h, ← hbytes]
  rfl

/-- **What is decoded is what was assembled**, whatever the pixel of the stub. -/
theorem decodeExposure_wire {handle : RawHandle A} (hsound : handle.Sound env)
    {scratch : Nat → Nat → Pixel} {a : Assembled A} {stub : Exposure A}
    (ha : assembleImage env scratch handle none = .ok a)
    (hstub : buildStub env handle a.bbox a.detector = .ok stub) (p : Pixel) :
    decodeExposure env (imageBytes a.array)
      (env.dumps ⟨onePixel A a.bbox p stub.info, a.bbox⟩) = .ok (a.exposure stub.info) := by
  have hshape := assembleImage_shape ha
  have hloads : env.loads (env.dumps ⟨onePixel A a.bbox p stub.info, a.bbox⟩) =
      .ok ⟨onePixel A a.bbox p stub.info, a.bbox⟩ := by
    obtain ⟨fixed, q, array, hfixed, -, -, rfl⟩ := assembleImage_ok.mp ha
    exact hsound.pickled fixed stub p hfixed hstub
  have himage : imageOf a.bbox.shape (imageBytes a.array) = a.array := by
    rw [← hshape]
    exact imageOf_imageBytes a.array
  have hlength : (imageBytes a.array).length = imageSize a.bbox.shape := by
    rw [length_imageBytes, hshape]
  unfold decodeExposure
  rw [hloads]
  dsimp only [bind, Except.bind]
  rw [if_pos hlength, himage]
  rfl

end DonutServer.Producer
