/-
From one file to one exposure, and over the wire.

`assembleImage` reads the amplifiers of a file and moves each into place in one
CCD-sized array: one it allocates, or one it is given.  `buildStub` makes an exposure
of a single pixel that carries everything else.  `loadRaw` puts the two together, and
`encodeExposure` and `decodeExposure` take them apart and put them together again.

Where the amplifiers cover the CCD, what the array held before does not matter; that is
`assembleImage_given`, and with it an exposure sent as image bytes and a pickled stub is
the one that `loadRaw` makes, whatever the stub's one pixel is.
-/
import DonutServer.Lib.Result
import DonutServer.Producer.Afw

namespace DonutServer.Producer

open PyText

variable {A : Afw}

/-! ### Reading a file

A file has one HDU for each amplifier, each with a header that may correct the amplifier's
geometry.  The corrected amplifiers make a detector of their own; where each one's pixels go is
read off that, and they are flipped on the way as the amplifier says.
-/

/-- One sensor's file, and the header to assemble it under. -/
structure RawHandle (A : Afw) where
  path : String
  header : A.Header
  detectorNum : Nat

/-- The name of the detector, as the header gives it. -/
def detectorName (env : CameraEnv A) (header : A.Header) : Except Exn String :=
  match env.card header "RAFTBAY", env.card header "CCDSLOT" with
  | .error exc, _ | .ok _, .error exc =>
      .error (.runtime s!"header has no {exc} card, so its detector cannot be identified")
  | .ok raft, .ok slot => .ok s!"{raft}_{slot}"

/-- The reader and the corrected amplifier of each amplifier, the first at HDU `hdu`. -/
def readAmps (env : CameraEnv A) (path : String) :
    Nat → List (Amplifier A) → Except Exn (List (AmpReader A × Amplifier A))
  | _, [] => .ok []
  | hdu, amp :: rest => do
      let reader ← env.imageFitsReader path hdu
      let bbox ← reader.readBBox
      let metadata ← reader.readMetadata
      let (fixed, _) ← env.fixAmpGeometry amp bbox metadata
      let others ← readAmps env path (hdu + 1) rest
      .ok ((reader, fixed) :: others)

/-- The detector rebuilt from the corrected amplifiers, and their readers. -/
structure FixedDetector (A : Afw) where
  detector : Detector A
  readers : List (AmpReader A)

def fixedDetector (env : CameraEnv A) (handle : RawHandle A) : Except Exn (FixedDetector A) := do
  let detector ← env.camera handle.detectorNum
  let amps ← readAmps env handle.path 1 detector.amps
  .ok ⟨{ detector with amps := amps.map Prod.snd }, amps.map Prod.fst⟩

/-- Where an amplifier's pixels stand in an array that holds `full`. -/
def ampBlock (full : Box) (amp : Amplifier A) (out : Plane Pixel) : Plane.Block :=
  let target := amp.target
  out.block (target.minY - full.minY) (target.maxY + 1 - full.minY)
    (target.minX - full.minX) (target.maxX + 1 - full.minX)

/-- The pixels of one amplifier, as they are read out. -/
def flipped (amp : Amplifier A) (array : Plane Int) : Plane Int :=
  let array := if amp.rawFlipX then array.flipX else array
  if amp.rawFlipY then array.flipY else array

/-- One amplifier's pixels moved into place. -/
def blitAmp (env : CameraEnv A) (full : Box) (reader : AmpReader A) (amp : Amplifier A)
    (out : Plane Pixel) : Except Exn (Plane Pixel) := do
  let array ← reader.read
  let array := (flipped amp array).map env.asFloat
  let block := ampBlock full amp out
  if block.Takes array then
    .ok (out.assign block array)
  else
    .error (env.couldNotBroadcast array.shape
      (block.bottom - block.top, block.right - block.left))

/-- All the amplifiers, one after the other. -/
def blitAmps (env : CameraEnv A) (full : Box) :
    List (AmpReader A × Amplifier A) → Plane Pixel → Except Exn (Plane Pixel)
  | [], out => .ok out
  | (reader, amp) :: rest, out => do
      let out ← blitAmp env full reader amp out
      blitAmps env full rest out

/-- What `_assemble_image` returns. -/
structure Assembled (A : Afw) where
  array : Plane Pixel
  bbox : Box
  detector : Detector A

/-- An array of unspecified content: `scratch` says what a fresh one happens to hold. -/
def npEmpty (scratch : Nat → Nat → Pixel) (shape : Nat × Nat) : Plane Pixel :=
  Plane.tabulate shape.1 shape.2 scratch

/-- The array to blit into. -/
def destination (scratch : Nat → Nat → Pixel) (path : String) (shape : Nat × Nat) :
    Option (Plane Pixel) → Except Exn (Plane Pixel)
  | none => .ok (npEmpty scratch shape)
  | some out =>
      if out.shape = shape then .ok out
      else
        .error (.runtime
          s!"destination is {reprShape out.shape}, but {path} assembles to {reprShape shape}")

/-- One file's amplifier HDUs as a single untrimmed image. -/
def assembleImage (env : CameraEnv A) (scratch : Nat → Nat → Pixel) (handle : RawHandle A)
    (out : Option (Plane Pixel)) : Except Exn (Assembled A) := do
  let fixed ← fixedDetector env handle
  let full := env.calcRawCcdBBox fixed.detector
  let out ← destination scratch handle.path full.shape out
  let array ← blitAmps env full (fixed.readers.zip fixed.detector.amps) out
  .ok ⟨array, full, env.makeUpdatedDetector fixed.detector⟩

/-- A 1x1 exposure carrying everything about a raw except its pixels. -/
def buildStub (env : CameraEnv A) (handle : RawHandle A) (bbox : Box) (detector : Detector A) :
    Except Exn (Exposure A) := do
  let stub := exposureF A bbox.corner
  let info ← env.attachRawWcsFromBoresight
    { stub.info with detector := some detector, metadata := some handle.header }
  let physical ← env.physicalFilter handle.header handle.path
  let band ← env.physicalToBand physical
  .ok { stub with info := { info with filter := some ⟨band, physical⟩ } }

/-- The components that are carried over from a stub, one setter after the other. -/
def Exposure.withInfo (exp : Exposure A) (info : ExposureInfo A) : Exposure A :=
  { exp with
    info :=
      { detector := info.detector
        wcs := info.wcs
        filter := info.filter
        metadata := info.metadata
        visitInfo := info.visitInfo
        id := info.id } }

/-- One file as an exposure. -/
def loadRaw (env : CameraEnv A) (scratch : Nat → Nat → Pixel) (handle : RawHandle A) :
    Except Exn (Exposure A) := do
  let a ← assembleImage env scratch handle none
  let stub ← buildStub env handle a.bbox a.detector
  .ok ({ exposureF A a.bbox with image := a.array }.withInfo stub.info)

/-! ### The wire form of one exposure

The pixels go as they stand in memory, and everything else in a pickle.  A pickle has to hold an
exposure, so it holds one of a single pixel, with the box of the whole beside it.
-/

/-- The metadata pickle: a 1x1 part of the exposure, and the box of the whole. -/
def encodeMeta (env : CameraEnv A) (exp : Exposure A) (bbox : Option Box) : Except Exn Bytes := do
  let full := bbox.getD exp.bbox
  let stub ← exp.subimage env exp.bbox.corner
  .ok (env.dumps ⟨stub, full⟩)

def encodeExposure (env : CameraEnv A) (exp : Exposure A) : Except Exn (Bytes × Bytes) := do
  let pickled ← encodeMeta env exp none
  .ok (imageBytes exp.image, pickled)

def decodeExposure (env : CameraEnv A) (imgBlob metaBlob : Bytes) :
    Except Exn (Exposure A) := do
  let pickled ← env.loads metaBlob
  let expected := imageSize pickled.bbox.shape
  if imgBlob.length = expected then
    .ok ({ exposureF A pickled.bbox with image := imageOf pickled.bbox.shape imgBlob }.withInfo
      pickled.stub.info)
  else
    .error ⟨.valueError, s!"image blob is {imgBlob.length} bytes, expected {expected} for " ++
      s!"{pickled.bbox.width}x{pickled.bbox.height}"⟩

/-! ### What the stack is relied on for

Two things, of which the first is what the camera package documents and the second is how the
camera is built: amplifiers that leave a gap would leave in it what the array held before.
-/

/-- The documented behaviour of the camera package: updating a detector for assembly keeps
its name and the CCD's box, attaching a WCS leaves the detector on the exposure, and no two
detectors share a name. -/
structure CameraEnv.Sound (env : CameraEnv A) : Prop where
  updatedBBox : ∀ d, env.calcRawCcdBBox (env.makeUpdatedDetector d) = env.calcRawCcdBBox d
  updatedName : ∀ d, (env.makeUpdatedDetector d).name = d.name
  attachedDetector : ∀ info info', env.attachRawWcsFromBoresight info = .ok info' →
    info'.detector = info.detector
  distinctNames : ∀ n m d d', env.camera n = .ok d → env.camera m = .ok d' →
    d.name = d'.name → n = m

/-- The amplifiers lie inside the CCD and leave no gap. -/
structure Tiles (env : CameraEnv A) (d : Detector A) : Prop where
  inside : ∀ amp ∈ d.amps, (env.calcRawCcdBBox d).Contains amp.target
  covers : ∀ y x : Int, (env.calcRawCcdBBox d).Contains ⟨x, y, 1, 1⟩ →
    ∃ amp ∈ d.amps, amp.target.Contains ⟨x, y, 1, 1⟩

end DonutServer.Producer
