/-
What the producer takes from the image library and the camera package.

An exposure is three planes of one shape, where they lie, and the components that
describe them.  A detector is a list of amplifiers, each with the box its pixels have
in the file and where the camera says that box goes in the assembled CCD.  What the
stack computes from these is a parameter: `CameraEnv` names each call the producer makes
of it, a function of its inputs that may raise.
-/
import DonutServer.Lib.BigEndian
import DonutServer.Lib.Plane
import DonutServer.Protocol
import DonutServer.Coordinator.Stack

namespace DonutServer.Producer

open PyText

/-! ### Boxes

Boxes count from a minimum that may be anywhere, negative too, and are printed and compared as the
stack does it.  An image that is cut out of another keeps its place, which is why a box and not a
shape goes with it.
-/

/-- `Box2I`: its minimum and its extent. -/
structure Box where
  minX : Int
  minY : Int
  width : Nat
  height : Nat
  deriving DecidableEq

/-- The last column that is in it. -/
def Box.maxX (b : Box) : Int := b.minX + b.width - 1

/-- The last row that is in it. -/
def Box.maxY (b : Box) : Int := b.minY + b.height - 1

/-- `(height, width)` -/
def Box.shape (b : Box) : Nat × Nat := (b.height, b.width)

/-- The same box somewhere else. -/
def Box.shift (b : Box) (offset : Int × Int) : Box :=
  { b with minX := b.minX + offset.1, minY := b.minY + offset.2 }

/-- `Box2I(b.getMin(), Extent2I(1, 1))` -/
def Box.corner (b : Box) : Box := ⟨b.minX, b.minY, 1, 1⟩

/-- `Box2I.contains` of a box. -/
def Box.Contains (b inner : Box) : Prop :=
  b.minX ≤ inner.minX ∧ inner.maxX ≤ b.maxX ∧ b.minY ≤ inner.minY ∧ inner.maxY ≤ b.maxY

instance (b inner : Box) : Decidable (b.Contains inner) :=
  inferInstanceAs (Decidable (_ ∧ _))

/-- A tuple of two numbers, printed. -/
def reprShape (shape : Nat × Nat) : String := s!"({shape.1}, {shape.2})"

/-! ### Pixels

A pixel is its 32 bits: it is copied and compared, and never computed with.  In memory it stands
least significant byte first, and an image is its pixels one behind the other, with nothing said of
its shape.
-/

/-- The bits of a `float32`. -/
abbrev Pixel := UInt32

/-- A pixel as it stands in memory, least significant byte first. -/
def pixelBytes (p : Pixel) : Bytes := (BigEndian.encode 4 p.toNat).reverse

/-- The pixel that four bytes stand for. -/
def pixelOf (field : Bytes) : Pixel := UInt32.ofNat (BigEndian.value field.reverse)

/-- A pixel takes four bytes. -/
theorem length_pixelBytes (p : Pixel) : (pixelBytes p).length = 4 := by
  unfold pixelBytes
  rw [List.length_reverse, BigEndian.length_encode]

/-- A pixel is read back from its bytes. -/
theorem pixelOf_pixelBytes (p : Pixel) : pixelOf (pixelBytes p) = p := by
  have hlt : p.toNat < 256 ^ 4 := p.toNat_lt
  unfold pixelOf pixelBytes
  rw [List.reverse_reverse, BigEndian.value_encode hlt, UInt32.ofNat_toNat]

/-- `tobytes()` -/
def imageBytes (p : Plane Pixel) : Bytes := p.spell pixelBytes

/-- `np.frombuffer(blob, dtype=IMG_DTYPE).reshape(height, width)` -/
def imageOf (shape : Nat × Nat) (blob : Bytes) : Plane Pixel :=
  Plane.unspell 4 pixelOf shape.1 shape.2 blob

/-- `np.dtype(IMG_DTYPE).itemsize` for each pixel. -/
def imageSize (shape : Nat × Nat) : Nat := shape.1 * shape.2 * 4

/-- An image takes four bytes for each of its pixels. -/
theorem length_imageBytes (p : Plane Pixel) : (imageBytes p).length = imageSize p.shape :=
  Plane.length_spell length_pixelBytes p

/-- **An image is read back** from the bytes it is sent as. -/
theorem imageOf_imageBytes (p : Plane Pixel) : imageOf p.shape (imageBytes p) = p :=
  Plane.unspell_spell length_pixelBytes pixelOf_pixelBytes p

/-- An image is read back from where it stands in a block. -/
theorem imageOf_block {p : Plane Pixel} {shape : Nat × Nat} (hshape : p.shape = shape)
    {block : Bytes} (h : block.take (imageSize shape) = imageBytes p) : imageOf shape block = p := by
  have htake : imageOf shape (block.take (imageSize shape)) = imageOf shape block :=
    Plane.unspell_take 4 pixelOf shape.1 shape.2 block
  rw [← htake, h, ← hshape]
  exact imageOf_imageBytes p

/-! ### Detectors

What the producer looks at of a detector are the boxes of its amplifiers and how they are flipped.
The rest is handed on as it came, and goes by a type of its own.
-/

/-- The types of the stack's values that the producer only hands on. -/
structure Afw where
  Header : Type
  AmpInfo : Type
  DetectorInfo : Type
  Wcs : Type
  VisitInfo : Type

/-- An amplifier.  `rest` is what the producer does not look at: the boxes of its data and
overscan sections, its gain and so on. -/
structure Amplifier (A : Afw) where
  rawBBox : Box
  rawXYOffset : Int × Int
  rawFlipX : Bool
  rawFlipY : Bool
  rest : A.AmpInfo

/-- Where an amplifier's pixels go in the assembled CCD. -/
def Amplifier.target {A : Afw} (amp : Amplifier A) : Box := amp.rawBBox.shift amp.rawXYOffset

structure Detector (A : Afw) where
  name : String
  amps : List (Amplifier A)
  rest : A.DetectorInfo

/-! ### Exposures

An exposure has three planes and a number of components, any of which may be missing.  A component
is set as a whole; a setter that is not called leaves what was there.
-/

structure FilterLabel where
  band : String
  physical : String
  deriving DecidableEq

/-- The components of an exposure, as far as they are set. -/
structure ExposureInfo (A : Afw) where
  detector : Option (Detector A)
  wcs : Option A.Wcs
  filter : Option FilterLabel
  metadata : Option A.Header
  visitInfo : Option A.VisitInfo
  id : Option Nat

/-- No component is set. -/
def ExposureInfo.empty {A : Afw} : ExposureInfo A := ⟨none, none, none, none, none, none⟩

/-- `ExposureF`: `minX` and `minY` are its `XY0`. -/
structure Exposure (A : Afw) where
  minX : Int
  minY : Int
  image : Plane Pixel
  mask : Plane Pixel
  variance : Plane Pixel
  info : ExposureInfo A

def Exposure.bbox {A : Afw} (exp : Exposure A) : Box :=
  ⟨exp.minX, exp.minY, exp.image.width, exp.image.height⟩

/-- A plane of zeros. -/
def zeros (shape : Nat × Nat) : Plane Pixel := Plane.tabulate shape.1 shape.2 fun _ _ => 0

/-- `ExposureF(bbox)`: every plane zero, no component set. -/
def exposureF (A : Afw) (bbox : Box) : Exposure A :=
  { minX := bbox.minX
    minY := bbox.minY
    image := zeros bbox.shape
    mask := zeros bbox.shape
    variance := zeros bbox.shape
    info := ExposureInfo.empty }

/-- The part of a plane that starts in row `top` and column `left`. -/
def cropTo (top left : Nat) (shape : Nat × Nat) (p : Plane Pixel) : Plane Pixel :=
  Plane.tabulate shape.1 shape.2 fun y x => p.pixel (top + y) (left + x)

/-- What the metadata pickle holds. -/
structure PickledStub (A : Afw) where
  stub : Exposure A
  bbox : Box

/-! ### The calls out of the module

What the stack does with a file, a header or a detector is not modelled.  Each call is a function
here, and what the producer relies on of it is a hypothesis of the theorems that rely on it.
-/

/-- One amplifier's HDU, open for reading. -/
structure AmpReader (A : Afw) where
  readBBox : Except Exn Box
  readMetadata : Except Exn A.Header
  /-- `read(dtype=int32).getArray()` -/
  read : Except Exn (Plane Int)

structure CameraEnv (A : Afw) where
  /-- `LsstCam.getCamera()[detector_num]` -/
  camera : Nat → Except Exn (Detector A)
  /-- `ImageFitsReader(path, hdu=hdu)` -/
  imageFitsReader : String → Nat → Except Exn (AmpReader A)
  /-- The `float32` an `int32` is converted to. -/
  asFloat : Int → Pixel
  /-- The corrected amplifier, and whether it was modified. -/
  fixAmpGeometry : Amplifier A → Box → A.Header → Except Exn (Amplifier A × Bool)
  calcRawCcdBBox : Detector A → Box
  makeUpdatedDetector : Detector A → Detector A
  /-- What it leaves on the exposure, from what it finds there. -/
  attachRawWcsFromBoresight : ExposureInfo A → Except Exn (ExposureInfo A)
  /-- `obs_info(header, filename=path).physical_filter` -/
  physicalFilter : A.Header → String → Except Exn String
  /-- `LsstCam.filterDefinitions.physical_to_band[physical]` -/
  physicalToBand : String → Except Exn String
  /-- `header[card]`, or the text of the `KeyError`. -/
  card : A.Header → String → Except String String
  dumps : PickledStub A → Bytes
  loads : Bytes → Except Exn (PickledStub A)
  -- what the libraries raise
  couldNotBroadcast : Nat × Nat → Nat × Nat → Exn
  notContained : Box → Box → Exn
  noDetector : Exn
  bufferTooSmall : Exn

/-- `exp[box]` -/
def Exposure.subimage {A : Afw} (env : CameraEnv A) (exp : Exposure A) (box : Box) :
    Except Exn (Exposure A) :=
  if exp.bbox.Contains box then
    let crop := cropTo (box.minY - exp.minY).toNat (box.minX - exp.minX).toNat box.shape
    .ok
      { exp with
        minX := box.minX
        minY := box.minY
        image := crop exp.image
        mask := crop exp.mask
        variance := crop exp.variance }
  else
    .error (env.notContained exp.bbox box)

/-- `exp.getDetector().getName()` -/
def Exposure.detectorName {A : Afw} (env : CameraEnv A) (exp : Exposure A) : Except Exn String :=
  match exp.info.detector with
  | some detector => .ok detector.name
  | none => .error env.noDetector

end DonutServer.Producer
