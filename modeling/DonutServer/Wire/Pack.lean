/-
The producer's half of the wire format, and the two readers that copy.

`packBlob` builds a blob by concatenation: the header, one descriptor for each part at
the running offset, and the parts' bytes.  `buildFraming` computes only the first two,
for a producer that writes each part where it has to stand, and says where that is;
its offsets may be pinned.  `unpackBlob` is the inverse of `packBlob`, and `splitParts`
regroups a flat map of parts by sensor.
-/
import DonutServer.Lib.BigEndian
import DonutServer.Lib.OrderedDict
import DonutServer.Protocol

namespace DonutServer

open PyText

/-- What packing raises: the module's own error, `struct.pack` refusing a number that does
not fit its field, or `max` of nothing. -/
inductive PackError
  | protocolError (message : String)
  | structError
  | valueError
  deriving DecidableEq, Repr

def imgSuffix : String := ":img"

def metaSuffix : String := ":meta"

/-- Wire name for one part of a sensor. -/
def partName (sensor suffix : String) : String := sensor ++ suffix

/-- `name.encode("utf-8")` -/
def nameBytes (name : String) : Bytes := name.toUTF8.data.toList

/-! ### Framing

The framing is computed from names and sizes.  Where the offsets are pinned they are taken as they
are and checked against the format's fields only; that two parts might share a byte is left to
whoever pins them.
-/

/-- One descriptor: its fixed part and the bytes of the name. -/
def packDescriptor (name : String) (offset byteCount : Nat) : Except PackError Bytes :=
  if 255 < (nameBytes name).length then
    .error (.protocolError s!"part name too long: {reprText name}")
  else if offset < 2 ^ 64 ∧ byteCount < 2 ^ 64 then
    .ok (BigEndian.encode 1 (nameBytes name).length ++ BigEndian.encode 8 offset ++
      BigEndian.encode 8 byteCount ++ nameBytes name)
  else
    .error .structError

def packHeader (partCount payloadLength : Nat) : Except PackError Bytes :=
  if partCount < 2 ^ 16 ∧ payloadLength < 2 ^ 64 then
    .ok (magic ++ BigEndian.encode 2 version ++ BigEndian.encode 2 partCount ++
      BigEndian.encode 8 payloadLength)
  else
    .error .structError

/-- The descriptors of the parts from `rawOffset` on, and where the last part ends. -/
def packParts : Nat → List (String × Bytes) → Except PackError (Bytes × Nat)
  | rawOffset, [] => .ok ([], rawOffset)
  | rawOffset, (name, payload) :: rest =>
      match packDescriptor name rawOffset payload.length with
      | .error e => .error e
      | .ok descriptor =>
          match packParts (rawOffset + payload.length) rest with
          | .error e => .error e
          | .ok (descriptors, payloadLength) => .ok (descriptor ++ descriptors, payloadLength)

/-- Pack a map from part name to bytes into the wire format. -/
def packBlob (parts : OrderedDict String Bytes) : Except PackError Bytes :=
  match packParts 0 parts.entries with
  | .error e => .error e
  | .ok (descriptors, payloadLength) =>
      match packHeader parts.size payloadLength with
      | .error e => .error e
      | .ok header => .ok (header ++ descriptors ++ parts.entries.flatMap Prod.snd)

/-- Bytes the descriptors for `names` will occupy. -/
def descriptorRegionSize : List String → Except PackError Nat
  | [] => .ok 0
  | name :: rest =>
      if 255 < (nameBytes name).length then
        .error (.protocolError s!"part name too long: {reprText name}")
      else
        match descriptorRegionSize rest with
        | .error e => .error e
        | .ok total => .ok (descFixedSize + (nameBytes name).length + total)

/-- The offsets of parts packed in order with no gaps, and where the last one ends. -/
def cursorOffsets : Nat → List (String × Nat) → List Descriptor × Nat
  | cursor, [] => ([], cursor)
  | cursor, (name, size) :: rest =>
      let (placed, payloadLength) := cursorOffsets (cursor + size) rest
      (⟨name, cursor, size⟩ :: placed, payloadLength)

/-- Each part at its pinned offset, where there is one. -/
def pinnedOffsets (offsets : OrderedDict String Nat) (sizes : List (String × Nat)) :
    List Descriptor :=
  sizes.filterMap fun size => (offsets.get? size.1).map fun offset => ⟨size.1, offset, size.2⟩

/-- The first byte behind every part. -/
def payloadCover : List Descriptor → Nat
  | [] => 0
  | d :: rest => max (d.offset + d.byteCount) (payloadCover rest)

/-- The descriptors alone, at offsets already chosen. -/
def packDescriptors : List Descriptor → Except PackError Bytes
  | [] => .ok []
  | d :: rest =>
      match packDescriptor d.name d.offset d.byteCount with
      | .error e => .error e
      | .ok descriptor =>
          match packDescriptors rest with
          | .error e => .error e
          | .ok descriptors => .ok (descriptor ++ descriptors)

/-- What `build_framing` returns: the bytes to write first, where each part has to stand, and
how long the whole blob is. -/
structure Framing where
  framing : Bytes
  absolute : OrderedDict String Nat
  totalSize : Nat

/-- The framing of parts that are placed. -/
def framePlaced (placed : List Descriptor) (payloadLength : Nat) : Except PackError Framing :=
  match packDescriptors placed with
  | .error e => .error e
  | .ok descriptors =>
      match packHeader placed.length payloadLength with
      | .error e => .error e
      | .ok header =>
          let dataStart := headerSize + descriptors.length
          .ok
            { framing := header ++ descriptors
              absolute := OrderedDict.empty.update
                (placed.map fun d => (d.name, dataStart + d.offset))
              totalSize := dataStart + payloadLength }

/-- The header and descriptors for parts of known size. -/
def buildFraming (sizes : OrderedDict String Nat) (offsets : Option (OrderedDict String Nat)) :
    Except PackError Framing :=
  match offsets with
  | none =>
      let (placed, payloadLength) := cursorOffsets 0 sizes.entries
      framePlaced placed payloadLength
  | some offsets =>
      let missing := sizes.keys.filter fun name => (offsets.get? name).isNone
      if missing ≠ [] then
        .error (.protocolError s!"no offset given for part(s): {reprList missing}")
      else if sizes.entries = [] then
        .error .valueError
      else
        let placed := pinnedOffsets offsets sizes.entries
        framePlaced placed (payloadCover placed)

/-! ### Reading back

`unpackBlob` copies every part out.  The server does without it: there `parseLayout` says where the
parts are, and what `splitParts` groups are views of the block.
-/

/-- Inverse of `packBlob`, every part as its own bytes. -/
def unpackBlob (blob : Bytes) : Except ParseError (OrderedDict String Bytes) :=
  match parseLayout blob with
  | .error e => .error e
  | .ok layout =>
      .ok (OrderedDict.empty.update
        (layout.map fun part => (part.name, slice blob part.offset part.byteCount)))

/-- The parts of each sensor, by suffix. -/
abbrev Grouped := OrderedDict String (OrderedDict String Bytes)

/-- `grouped.setdefault(sensor, {})[suffix] = payload` -/
def Grouped.add (grouped : Grouped) (sensor suffix : String) (payload : Bytes) : Grouped :=
  grouped.set sensor (((grouped.get? sensor).getD OrderedDict.empty).set suffix payload)

/-- The parts of a blob, grouped by sensor. -/
def groupParts : Grouped → List (String × Bytes) → Except ParseError Grouped
  | grouped, [] => .ok grouped
  | grouped, (name, payload) :: rest =>
      match [imgSuffix, metaSuffix].find? (endsWith name) with
      | none => .error (.protocolError s!"part {reprText name} has no recognized suffix")
      | some suffix => groupParts (grouped.add (dropSuffix name suffix) suffix payload) rest

/-- The suffixes nothing was found for. -/
def missingParts (found : OrderedDict String Bytes) : List String :=
  [imgSuffix, metaSuffix].filter fun suffix => (found.get? suffix).isNone

/-- A sensor has to have all of its parts. -/
def joinParts : OrderedDict String (Bytes × Bytes) → List (String × OrderedDict String Bytes) →
    Except ParseError (OrderedDict String (Bytes × Bytes))
  | result, [] => .ok result
  | result, (sensor, found) :: rest =>
      match found.get? imgSuffix, found.get? metaSuffix with
      | some img, some metadata => joinParts (result.set sensor (img, metadata)) rest
      | _, _ =>
          .error (.protocolError
            s!"sensor {reprText sensor} missing part(s): {reprList (missingParts found)}")

/-- Regroup a flat map of parts by sensor. -/
def splitParts (parts : OrderedDict String Bytes) :
    Except ParseError (OrderedDict String (Bytes × Bytes)) :=
  match groupParts OrderedDict.empty parts.entries with
  | .error e => .error e
  | .ok grouped => joinParts OrderedDict.empty grouped.entries

end DonutServer
