/-
What is packed is read back.

The framing of placed parts is, for parts within the format's limits, plain concatenation:
the header and then each part's descriptor.  The parser walks it descriptor by descriptor,
and `parseLayout_framed` says that it finds the parts where they were placed, whatever
stands between and behind them.  The rest is about the two producers' arithmetic and about
the grouping by suffix: the last four characters of a part name tell the two suffixes
apart, so a sensor whose own name ends like one is no exception.
-/
import Mathlib.Data.List.Basic
import DonutServer.Lib.Buffer
import DonutServer.Wire.Pack

namespace DonutServer

open PyText

/-! ### Slices

A blob is a concatenation, and a piece of it is found at the sum of the lengths before it.
-/

theorem slice_eq {blob tail : Bytes} {pos count : Nat} (h : blob.drop pos = tail) :
    slice blob pos count = tail.take count := by
  unfold slice
  rw [h]

/-- A slice behind a piece that is skipped. -/
theorem slice_skip (piece tail : Bytes) (pos count : Nat) :
    slice (piece ++ tail) (piece.length + pos) count = slice tail pos count := by
  unfold slice
  rw [← List.drop_drop, List.drop_left]

/-- A piece is read where it stands. -/
theorem slice_piece (before piece after : Bytes) {blob : Bytes} {pos count : Nat}
    (h : blob = before ++ (piece ++ after)) (hpos : before.length = pos)
    (hcount : piece.length = count) : slice blob pos count = piece := by
  unfold slice
  rw [h, List.drop_left' hpos, List.take_left' hcount]

/-! ### The bytes of a framing

Within the limits every field is written without loss, so packing is plain concatenation, and the
functions of the packer can be left behind from here on.
-/

/-- What the format can express. -/
structure Descriptor.Fits (d : Descriptor) : Prop where
  name : (nameBytes d.name).length ≤ 255
  offset : d.offset < 2 ^ 64
  byteCount : d.byteCount < 2 ^ 64

/-- The fixed part of a descriptor. -/
def Descriptor.fixedBytes (d : Descriptor) : Bytes :=
  BigEndian.encode 1 (nameBytes d.name).length ++
    (BigEndian.encode 8 d.offset ++ BigEndian.encode 8 d.byteCount)

def Descriptor.bytes (d : Descriptor) : Bytes := d.fixedBytes ++ nameBytes d.name

def headerBytes (partCount payloadLength : Nat) : Bytes :=
  magic ++ (BigEndian.encode 2 version ++
    (BigEndian.encode 2 partCount ++ BigEndian.encode 8 payloadLength))

/-- The framing of placed parts. -/
def framingBytes (placed : List Descriptor) (payloadLength : Nat) : Bytes :=
  headerBytes placed.length payloadLength ++ placed.flatMap Descriptor.bytes

@[simp] theorem Descriptor.length_fixedBytes (d : Descriptor) :
    d.fixedBytes.length = descFixedSize := by
  unfold fixedBytes
  rw [List.length_append, List.length_append, BigEndian.length_encode, BigEndian.length_encode,
    BigEndian.length_encode]
  rfl

/-- The header is as long as its fields. -/
@[simp] theorem length_headerBytes (partCount payloadLength : Nat) :
    (headerBytes partCount payloadLength).length = headerSize := by
  unfold headerBytes
  rw [List.length_append, List.length_append, List.length_append, BigEndian.length_encode,
    BigEndian.length_encode, BigEndian.length_encode]
  rfl

/-- A framing is as long as the header and the descriptors. -/
theorem length_framingBytes (placed : List Descriptor) (payloadLength : Nat) :
    (framingBytes placed payloadLength).length =
      headerSize + (placed.flatMap Descriptor.bytes).length := by
  unfold framingBytes
  rw [List.length_append, length_headerBytes]

theorem packDescriptor_fits {d : Descriptor} (h : d.Fits) :
    packDescriptor d.name d.offset d.byteCount = .ok d.bytes := by
  unfold packDescriptor
  rw [if_neg (Nat.not_lt.mpr h.name), if_pos ⟨h.offset, h.byteCount⟩]
  unfold Descriptor.bytes Descriptor.fixedBytes
  rw [List.append_assoc (BigEndian.encode 1 _)]

theorem packDescriptors_fits {placed : List Descriptor} (h : ∀ d ∈ placed, d.Fits) :
    packDescriptors placed = .ok (placed.flatMap Descriptor.bytes) := by
  induction placed with
  | nil => rfl
  | cons d rest ih =>
      unfold packDescriptors
      rw [packDescriptor_fits (h d (List.mem_cons_self ..)),
        ih fun q hq => h q (List.mem_cons_of_mem _ hq)]
      rfl

/-- A number of parts that fits is packed. -/
theorem packHeader_fits {partCount payloadLength : Nat} (hcount : partCount < 2 ^ 16)
    (hlength : payloadLength < 2 ^ 64) :
    packHeader partCount payloadLength = .ok (headerBytes partCount payloadLength) := by
  unfold packHeader headerBytes
  rw [if_pos ⟨hcount, hlength⟩, List.append_assoc, List.append_assoc]

/-! ### The parser on a framing

The parser goes from one descriptor to the next by the lengths it reads, so the induction is on the
descriptors that are left, with the bytes behind them arbitrary.
-/

/-- The header is read back. -/
theorem parseHeader_headerBytes {partCount payloadLength : Nat} (hcount : partCount < 2 ^ 16)
    (hlength : payloadLength < 2 ^ 64) :
    parseHeader (headerBytes partCount payloadLength) =
      .ok { version := version, partCount := partCount, payloadLength := payloadLength } := by
  have hmagic : slice (headerBytes partCount payloadLength) 0 4 = magic :=
    slice_piece [] magic _ rfl rfl rfl
  have hversion : slice (headerBytes partCount payloadLength) 4 2 = BigEndian.encode 2 version :=
    slice_piece magic (BigEndian.encode 2 version) _ rfl rfl (BigEndian.length_encode ..)
  have hparts : slice (headerBytes partCount payloadLength) 6 2 = BigEndian.encode 2 partCount :=
    slice_piece (magic ++ BigEndian.encode 2 version) (BigEndian.encode 2 partCount)
      (BigEndian.encode 8 payloadLength) rfl rfl (BigEndian.length_encode ..)
  have hpayload : slice (headerBytes partCount payloadLength) 8 8 =
      BigEndian.encode 8 payloadLength := by
    refine slice_piece (magic ++ (BigEndian.encode 2 version ++ BigEndian.encode 2 partCount))
      (BigEndian.encode 8 payloadLength) [] ?_ ?_ (BigEndian.length_encode ..)
    · unfold headerBytes
      rw [List.append_nil, List.append_assoc, List.append_assoc]
    · rw [List.length_append, List.length_append, BigEndian.length_encode, BigEndian.length_encode]
      rfl
  have hv : beNat (BigEndian.encode 2 version) = version := BigEndian.value_encode (by decide)
  have hn : beNat (BigEndian.encode 2 partCount) = partCount := BigEndian.value_encode (by omega)
  have hl : beNat (BigEndian.encode 8 payloadLength) = payloadLength :=
    BigEndian.value_encode (by omega)
  unfold parseHeader
  rw [length_headerBytes, if_neg (Nat.lt_irrefl _), hmagic, hversion, hparts, hpayload, hv, hn, hl,
    if_neg (not_not.mpr rfl), if_neg (not_not.mpr rfl)]

/-- A name's bytes decode to the name. -/
theorem decode_nameBytes (name : String) :
    String.fromUTF8? ⟨(nameBytes name).toArray⟩ = some name := by
  unfold String.fromUTF8?
  exact dif_pos name.isValidUTF8

/-- The fields of a descriptor's fixed part are read back. -/
theorem Descriptor.fixedBytes_fields {d : Descriptor} (h : d.Fits) :
    beNat (slice d.fixedBytes 0 1) = (nameBytes d.name).length ∧
      beNat (slice d.fixedBytes 1 8) = d.offset ∧
      beNat (slice d.fixedBytes 9 8) = d.byteCount := by
  have hname : slice d.fixedBytes 0 1 = BigEndian.encode 1 (nameBytes d.name).length :=
    slice_piece [] _ _ rfl rfl (BigEndian.length_encode ..)
  have hoffset : slice d.fixedBytes 1 8 = BigEndian.encode 8 d.offset :=
    slice_piece (BigEndian.encode 1 (nameBytes d.name).length) _ _ rfl
      (BigEndian.length_encode ..) (BigEndian.length_encode ..)
  have hcount : slice d.fixedBytes 9 8 = BigEndian.encode 8 d.byteCount := by
    refine slice_piece
      (BigEndian.encode 1 (nameBytes d.name).length ++ BigEndian.encode 8 d.offset) _ [] ?_ ?_
      (BigEndian.length_encode ..)
    · unfold fixedBytes
      rw [List.append_nil, List.append_assoc]
    · rw [List.length_append, BigEndian.length_encode, BigEndian.length_encode]
  have hlen := h.name
  have hoff := h.offset
  have hsize := h.byteCount
  rw [hname, hoffset, hcount]
  exact ⟨BigEndian.value_encode (by omega), BigEndian.value_encode (by omega),
    BigEndian.value_encode (by omega)⟩

/-- **The descriptors are read back one by one.**  `rest` is whatever stands behind them. -/
theorem parseDescriptors_bytes {blob rest : Bytes} {placed : List Descriptor} :
    ∀ {pos : Nat}, (∀ d ∈ placed, d.Fits) →
      blob.drop pos = placed.flatMap Descriptor.bytes ++ rest →
      parseDescriptors blob placed.length pos =
        .ok (placed, pos + (placed.flatMap Descriptor.bytes).length) := by
  induction placed with
  | nil =>
      intro pos _ _
      rfl
  | cons d tail ih =>
      intro pos hfits hdrop
      obtain ⟨hnameLen, hoffset, hcount⟩ :=
        Descriptor.fixedBytes_fields (hfits d (List.mem_cons_self ..))
      have hblob : blob.drop pos =
          d.fixedBytes ++ (nameBytes d.name ++ (tail.flatMap Descriptor.bytes ++ rest)) := by
        rw [hdrop, List.flatMap_cons]
        unfold Descriptor.bytes
        rw [List.append_assoc, List.append_assoc]
      have hbehind : blob.drop (pos + descFixedSize) =
          nameBytes d.name ++ (tail.flatMap Descriptor.bytes ++ rest) := by
        rw [← List.drop_drop, hblob, List.drop_left' d.length_fixedBytes]
      have hnext : blob.drop (pos + descFixedSize + (nameBytes d.name).length) =
          tail.flatMap Descriptor.bytes ++ rest := by
        rw [← List.drop_drop, hbehind, List.drop_left]
      have hroom : ¬pos + descFixedSize > blob.length := by
        have hlen := congrArg List.length hblob
        rw [List.length_drop, List.length_append, d.length_fixedBytes] at hlen
        unfold descFixedSize at hlen ⊢
        omega
      have hfixed : slice blob pos descFixedSize = d.fixedBytes := by
        rw [slice_eq hblob, List.take_left' d.length_fixedBytes]
      have hname : slice blob (pos + descFixedSize) (nameBytes d.name).length =
          nameBytes d.name := by
        rw [slice_eq hbehind, List.take_left]
      have hend : pos + descFixedSize + (nameBytes d.name).length +
          (tail.flatMap Descriptor.bytes).length =
          pos + ((d :: tail).flatMap Descriptor.bytes).length := by
        rw [List.flatMap_cons, List.length_append]
        unfold Descriptor.bytes
        rw [List.length_append, d.length_fixedBytes]
        omega
      have htail := ih (fun q hq => hfits q (List.mem_cons_of_mem _ hq)) hnext
      show parseDescriptors blob (tail.length + 1) pos = _
      unfold parseDescriptors
      rw [if_neg hroom]
      dsimp only
      rw [hfixed, hnameLen, hname, decode_nameBytes]
      dsimp only
      rw [htail, hoffset, hcount, hend]

/-- Where a placed part stands once the part data starts at `dataStart`. -/
def Descriptor.at (dataStart : Nat) (d : Descriptor) : PartLayout :=
  ⟨d.name, dataStart + d.offset, d.byteCount⟩

theorem placeParts_at {dataStart payloadEnd : Nat} {placed : List Descriptor}
    (h : ∀ d ∈ placed, dataStart + d.offset + d.byteCount ≤ payloadEnd) :
    placeParts dataStart payloadEnd placed = .ok (placed.map (Descriptor.at dataStart)) := by
  induction placed with
  | nil => rfl
  | cons d rest ih =>
      unfold placeParts
      dsimp only
      rw [if_neg (Nat.not_lt.mpr (h d (List.mem_cons_self ..))),
        ih fun q hq => h q (List.mem_cons_of_mem _ hq)]
      rfl

/-- What a framing has to keep for its parts to be found again. -/
structure Framed (placed : List Descriptor) (payloadLength : Nat) : Prop where
  count : placed.length < 2 ^ 16
  length : payloadLength < 2 ^ 64
  fits : ∀ d ∈ placed, d.Fits
  covered : ∀ d ∈ placed, d.offset + d.byteCount ≤ payloadLength

/-- **A blob that starts with a framing is parsed to the parts where they were placed**,
whatever its payload holds. -/
theorem parseLayout_framed {placed : List Descriptor} {payloadLength : Nat} {payload : Bytes}
    (h : Framed placed payloadLength) (hlong : payloadLength ≤ payload.length) :
    parseLayout (framingBytes placed payloadLength ++ payload) =
      .ok (placed.map (Descriptor.at (framingBytes placed payloadLength).length)) := by
  have hblob : framingBytes placed payloadLength ++ payload =
      headerBytes placed.length payloadLength ++
        (placed.flatMap Descriptor.bytes ++ payload) := by
    unfold framingBytes
    rw [List.append_assoc]
  have hheader : slice (framingBytes placed payloadLength ++ payload) 0 headerSize =
      headerBytes placed.length payloadLength :=
    slice_piece [] _ _ hblob rfl (length_headerBytes ..)
  have hdrop : (framingBytes placed payloadLength ++ payload).drop headerSize =
      placed.flatMap Descriptor.bytes ++ payload := by
    rw [hblob, List.drop_left' (length_headerBytes ..)]
  have hdata := length_framingBytes placed payloadLength
  have hroom : ¬headerSize + (placed.flatMap Descriptor.bytes).length + payloadLength >
      (framingBytes placed payloadLength ++ payload).length := by
    rw [List.length_append, hdata]
    omega
  unfold parseLayout
  rw [hheader, parseHeader_headerBytes h.count h.length]
  dsimp only
  rw [parseDescriptors_bytes h.fits hdrop]
  dsimp only
  rw [if_neg hroom, hdata]
  refine placeParts_at fun d hd => ?_
  have := h.covered d hd
  omega

/-- What `unpackBlob` reads behind a framing. -/
theorem unpackBlob_framed {placed : List Descriptor} {payloadLength : Nat} {payload : Bytes}
    (h : Framed placed payloadLength) (hlong : payloadLength ≤ payload.length) :
    unpackBlob (framingBytes placed payloadLength ++ payload) =
      .ok (OrderedDict.empty.update
        (placed.map fun d => (d.name, slice payload d.offset d.byteCount))) := by
  unfold unpackBlob
  rw [parseLayout_framed h hlong]
  dsimp only
  rw [List.map_map]
  congr 3
  funext d
  show (d.name, slice _ (_ + d.offset) d.byteCount) = _
  rw [slice_skip]

/-! ### Parts packed in order

The copying packer puts each part behind the one before.  So the offsets are the sums of the sizes,
the parts lie in order, and each is cut out of the payload where it was put.
-/

/-- The sizes of parts, as `buildFraming` is given them. -/
def partSizes (parts : List (String × Bytes)) : List (String × Nat) :=
  parts.map fun part => (part.1, part.2.length)

/-- Where the parts stand when they are packed in order with no gaps. -/
def inOrder (parts : List (String × Bytes)) : List Descriptor :=
  (cursorOffsets 0 (partSizes parts)).1

def payloadBytes (parts : List (String × Bytes)) : Bytes := parts.flatMap Prod.snd

theorem cursorOffsets_end (parts : List (String × Bytes)) :
    ∀ cursor, (cursorOffsets cursor (partSizes parts)).2 =
      cursor + (payloadBytes parts).length := by
  induction parts with
  | nil =>
      intro cursor
      rfl
  | cons part rest ih =>
      intro cursor
      show (cursorOffsets (cursor + part.2.length) (partSizes rest)).2 = _
      rw [ih]
      unfold payloadBytes
      rw [List.flatMap_cons, List.length_append]
      omega

/-- The copying packer writes the descriptors of `cursorOffsets`, and fails where they do. -/
theorem packParts_eq (parts : List (String × Bytes)) :
    ∀ cursor, packParts cursor parts =
      (packDescriptors (cursorOffsets cursor (partSizes parts)).1).map
        fun descriptors => (descriptors, cursor + (payloadBytes parts).length) := by
  induction parts with
  | nil =>
      intro cursor
      rfl
  | cons part rest ih =>
      intro cursor
      have hend : cursor + part.2.length + (payloadBytes rest).length =
          cursor + (payloadBytes (part :: rest)).length := by
        unfold payloadBytes
        rw [List.flatMap_cons, List.length_append]
        omega
      have hplaced : (cursorOffsets cursor (partSizes (part :: rest))).1 =
          ⟨part.1, cursor, part.2.length⟩ ::
            (cursorOffsets (cursor + part.2.length) (partSizes rest)).1 := rfl
      rw [packParts, ih, hend, hplaced, packDescriptors]
      dsimp only
      cases packDescriptor part.1 cursor part.2.length with
      | error e => rfl
      | ok descriptor =>
          cases packDescriptors (cursorOffsets (cursor + part.2.length) (partSizes rest)).1 with
          | error e => rfl
          | ok descriptors => rfl

/-- Each part of an ordered packing lies behind the ones before it and ends by the end. -/
theorem cursorOffsets_ordered (parts : List (String × Bytes)) :
    ∀ cursor, ((cursorOffsets cursor (partSizes parts)).1.Pairwise fun d d' =>
        d.offset + d.byteCount ≤ d'.offset) ∧
      ∀ d ∈ (cursorOffsets cursor (partSizes parts)).1,
        cursor ≤ d.offset ∧ d.offset + d.byteCount ≤ cursor + (payloadBytes parts).length := by
  induction parts with
  | nil =>
      intro cursor
      exact ⟨List.Pairwise.nil, fun d hd => absurd hd List.not_mem_nil⟩
  | cons part rest ih =>
      intro cursor
      obtain ⟨hpair, hrange⟩ := ih (cursor + part.2.length)
      have hend : (payloadBytes (part :: rest)).length =
          part.2.length + (payloadBytes rest).length := by
        unfold payloadBytes
        rw [List.flatMap_cons, List.length_append]
      refine ⟨List.pairwise_cons.mpr ⟨fun d hd => (hrange d hd).1, hpair⟩, ?_⟩
      intro d hd
      rw [hend]
      rcases List.mem_cons.mp hd with rfl | htail
      · exact ⟨Nat.le_refl _, by dsimp only; omega⟩
      · have := hrange d htail
        omega

/-- The names and sizes are those of the parts. -/
theorem cursorOffsets_sizes (sizes : List (String × Nat)) :
    ∀ cursor, (cursorOffsets cursor sizes).1.map (fun d => (d.name, d.byteCount)) = sizes := by
  induction sizes with
  | nil =>
      intro cursor
      rfl
  | cons size rest ih =>
      intro cursor
      show (size.1, size.2) :: (cursorOffsets (cursor + size.2) rest).1.map _ = _
      rw [ih]

/-- Each part is cut back out of where its offset put it. -/
theorem cursorOffsets_read (parts : List (String × Bytes)) :
    ∀ front : Bytes, (cursorOffsets front.length (partSizes parts)).1.map
      (fun d => (d.name, slice (front ++ payloadBytes parts) d.offset d.byteCount)) = parts := by
  induction parts with
  | nil =>
      intro front
      rfl
  | cons part rest ih =>
      intro front
      have hpayload : front ++ payloadBytes (part :: rest) =
          front ++ (part.2 ++ payloadBytes rest) := by
        unfold payloadBytes
        rw [List.flatMap_cons]
      have htail := ih (front ++ part.2)
      rw [List.length_append, List.append_assoc, ← hpayload] at htail
      show (part.1, slice (front ++ payloadBytes (part :: rest)) front.length part.2.length) ::
        (cursorOffsets (front.length + part.2.length) (partSizes rest)).1.map _ = _
      rw [htail, slice_piece front part.2 _ hpayload rfl rfl]

/-- The format's limits on a map of parts. -/
structure WithinFormat (parts : OrderedDict String Bytes) : Prop where
  count : parts.size ≤ 65535
  names : ∀ name ∈ parts.keys, (nameBytes name).length ≤ 255
  total : (payloadBytes parts.entries).length < 2 ^ 64

theorem mem_inOrder {parts : List (String × Bytes)} {d : Descriptor} (h : d ∈ inOrder parts) :
    ∃ payload, (d.name, payload) ∈ parts ∧ d.byteCount = payload.length := by
  have hmem : (d.name, d.byteCount) ∈ partSizes parts := by
    rw [← cursorOffsets_sizes (partSizes parts) 0]
    exact List.mem_map.mpr ⟨d, h, rfl⟩
  obtain ⟨part, hpart, heq⟩ := List.mem_map.mp hmem
  obtain ⟨hname, hsize⟩ := Prod.mk.inj heq
  exact ⟨part.2, hname ▸ hpart, hsize.symm⟩

/-- There are as many as there are parts. -/
theorem length_inOrder (parts : List (String × Bytes)) : (inOrder parts).length = parts.length := by
  have h := congrArg List.length (cursorOffsets_sizes (partSizes parts) 0)
  rw [List.length_map] at h
  unfold inOrder
  rw [h]
  exact List.length_map _

/-- Parts within the limits, packed in order, are a framing the parser reads. -/
theorem framed_inOrder {parts : OrderedDict String Bytes} (h : WithinFormat parts) :
    Framed (inOrder parts.entries) (payloadBytes parts.entries).length := by
  have htotal := h.total
  have hrange : ∀ d ∈ inOrder parts.entries,
      d.offset + d.byteCount ≤ (payloadBytes parts.entries).length := by
    intro d hd
    have := ((cursorOffsets_ordered parts.entries 0).2 d hd).2
    omega
  refine ⟨?_, htotal, ?_, hrange⟩
  · have := h.count
    rw [length_inOrder]
    unfold OrderedDict.size at this
    omega
  · intro d hd
    obtain ⟨payload, hmem, -⟩ := mem_inOrder hd
    have := hrange d hd
    exact ⟨h.names d.name (List.mem_map.mpr ⟨_, hmem, rfl⟩), by omega, by omega⟩

/-- What packing parts within the limits gives. -/
theorem packBlob_fits {parts : OrderedDict String Bytes} (h : WithinFormat parts) :
    packBlob parts = .ok
      (framingBytes (inOrder parts.entries) (payloadBytes parts.entries).length ++
        payloadBytes parts.entries) := by
  have hframed := framed_inOrder h
  have hdescriptors := packDescriptors_fits hframed.fits
  have hheader := packHeader_fits hframed.count hframed.length
  unfold inOrder at hdescriptors
  unfold packBlob
  rw [packParts_eq, hdescriptors]
  dsimp only [Except.map]
  rw [Nat.zero_add, show parts.size = (inOrder parts.entries).length from
    (length_inOrder parts.entries).symm, hheader]
  rfl

/-- **`unpackBlob` undoes `packBlob`**, the order of the parts included. -/
theorem unpackBlob_packBlob {parts : OrderedDict String Bytes} (h : WithinFormat parts) :
    unpackBlob (framingBytes (inOrder parts.entries) (payloadBytes parts.entries).length ++
      payloadBytes parts.entries) = .ok parts := by
  have hread := cursorOffsets_read parts.entries []
  rw [List.nil_append] at hread
  rw [unpackBlob_framed (framed_inOrder h) (Nat.le_refl _)]
  show Except.ok (OrderedDict.empty.update ((cursorOffsets 0 _).1.map _)) = _
  rw [show (0 : Nat) = ([] : Bytes).length from rfl, hread, OrderedDict.update_empty]

/-! ### Grouping by suffix

A part's name is its sensor's name and a suffix.  Both suffixes have four characters and differ in
them, so a part name has exactly one, whatever comes before it; cutting it off gives the sensor's
name back.
-/

def suffixes : List String := [imgSuffix, metaSuffix]

/-- Two texts that end in different characters are different. -/
theorem suffix_ne {front front' : List Char} {c c' : Char} (h : c ≠ c') :
    front ++ [c] ≠ front' ++ [c'] := by
  intro heq
  exact h (List.cons.inj (List.append_inj' heq rfl).2).1

/-- Neither suffix ends a part name that was given the other. -/
theorem find_suffix {suffix : String} (h : suffix ∈ suffixes) (sensor : String) :
    [imgSuffix, metaSuffix].find? (endsWith (partName sensor suffix)) = some suffix := by
  have hself : endsWith (partName sensor suffix) suffix = true := endsWith_iff.mpr ⟨sensor, rfl⟩
  rcases List.mem_cons.mp h with rfl | hmeta
  · rw [List.find?_cons_of_pos hself]
  · obtain rfl := List.mem_singleton.mp hmeta
    have hother : ¬endsWith (partName sensor metaSuffix) imgSuffix = true := by
      unfold endsWith partName
      rw [List.isSuffixOf_iff_suffix, String.toList_append]
      intro hc
      obtain ⟨front, heq⟩ := hc
      have himg : imgSuffix.toList = [':', 'i', 'm'] ++ ['g'] := by decide
      have hmeta : metaSuffix.toList = [':', 'm', 'e', 't'] ++ ['a'] := by decide
      rw [himg, hmeta, ← List.append_assoc, ← List.append_assoc] at heq
      exact suffix_ne (by decide) heq
    rw [List.find?_cons_of_neg hother, List.find?_cons_of_pos hself]

/-- Cutting the suffix off gives the sensor's name. -/
theorem dropSuffix_partName (sensor suffix : String) :
    dropSuffix (partName sensor suffix) suffix = sensor :=
  dropSuffix_append sensor suffix

/-- Part names of different sensors, or with different suffixes, are different. -/
theorem partName_inj {sensor sensor' suffix suffix' : String} (h : suffix ∈ suffixes)
    (h' : suffix' ∈ suffixes) (heq : partName sensor suffix = partName sensor' suffix') :
    sensor = sensor' ∧ suffix = suffix' := by
  have hsuffix : suffix = suffix' := by
    have hfind := find_suffix h sensor
    rw [heq, find_suffix h' sensor'] at hfind
    exact (Option.some.inj hfind).symm
  refine ⟨?_, hsuffix⟩
  rw [← dropSuffix_partName sensor suffix, heq, hsuffix, dropSuffix_partName]

/-- What is found for a sensor under a suffix. -/
def Grouped.found (grouped : Grouped) (sensor suffix : String) : Option Bytes :=
  (grouped.get? sensor).bind fun parts => parts.get? suffix

theorem Grouped.found_add (grouped : Grouped) (sensor suffix : String) (payload : Bytes)
    (sensor' suffix' : String) :
    (grouped.add sensor suffix payload).found sensor' suffix' =
      if sensor' = sensor ∧ suffix' = suffix then some payload
      else grouped.found sensor' suffix' := by
  unfold found add
  rw [OrderedDict.get?_set]
  by_cases hsensor : sensor' = sensor
  · rw [if_pos hsensor, Option.bind_some, OrderedDict.get?_set, hsensor]
    by_cases hsuffix : suffix' = suffix
    · rw [if_pos hsuffix, if_pos ⟨rfl, hsuffix⟩]
    · rw [if_neg hsuffix, if_neg fun hboth => hsuffix hboth.2]
      cases grouped.get? sensor with
      | none => rfl
      | some parts => rfl
  · rw [if_neg hsensor, if_neg fun hboth => hsensor hboth.1]

/-- What grouping a list of named parts comes to. -/
structure Groups (before : Grouped) (parts : List (String × Bytes)) (after : Grouped) : Prop where
  found : ∀ sensor, ∀ suffix ∈ suffixes, ∀ payload,
    (partName sensor suffix, payload) ∈ parts → after.found sensor suffix = some payload
  kept : ∀ sensor, ∀ suffix ∈ suffixes, partName sensor suffix ∉ parts.map Prod.fst →
    after.found sensor suffix = before.found sensor suffix
  keys : ∀ sensor ∈ after.keys, sensor ∈ before.keys ∨
    ∃ suffix ∈ suffixes, partName sensor suffix ∈ parts.map Prod.fst

/-- Parts with recognized names are all grouped. -/
theorem groupParts_named {parts : List (String × Bytes)} :
    ∀ before : Grouped, (parts.map Prod.fst).Nodup →
      (∀ part ∈ parts, ∃ sensor, ∃ suffix ∈ suffixes, part.1 = partName sensor suffix) →
      ∃ after, groupParts before parts = .ok after ∧ Groups before parts after := by
  induction parts with
  | nil =>
      intro before _ _
      exact ⟨before, rfl, fun _ _ _ _ hmem => absurd hmem List.not_mem_nil, fun _ _ _ _ => rfl,
        fun _ hmem => Or.inl hmem⟩
  | cons part rest ih =>
      intro before hnodup hnamed
      obtain ⟨hnew, hrest⟩ := List.nodup_cons.mp hnodup
      obtain ⟨sensor, suffix, hsuffix, hname⟩ := hnamed part (List.mem_cons_self ..)
      obtain ⟨after, hok, hgroups⟩ := ih (before.add sensor suffix part.2) hrest
        fun q hq => hnamed q (List.mem_cons_of_mem _ hq)
      refine ⟨after, ?_, ?_, ?_, ?_⟩
      · show groupParts before ((part.1, part.2) :: rest) = _
        rw [groupParts, hname, find_suffix hsuffix]
        dsimp only
        rw [dropSuffix_partName, hok]
      · intro sensor' suffix' hsuffix' payload hmem
        rcases List.mem_cons.mp hmem with heq | htail
        · obtain ⟨hsame, rfl⟩ := Prod.mk.inj heq
          obtain ⟨rfl, rfl⟩ := partName_inj hsuffix' hsuffix (hsame.trans hname)
          rw [hgroups.kept sensor' suffix' hsuffix' (by rw [hsame]; exact hnew),
            Grouped.found_add, if_pos ⟨rfl, rfl⟩]
        · exact hgroups.found sensor' suffix' hsuffix' payload htail
      · intro sensor' suffix' hsuffix' hmissing
        have hother : ¬(sensor' = sensor ∧ suffix' = suffix) := by
          intro h
          obtain ⟨rfl, rfl⟩ := h
          exact hmissing (by rw [← hname]; exact List.mem_cons_self ..)
        rw [hgroups.kept sensor' suffix' hsuffix' fun hmem =>
          hmissing (List.mem_cons_of_mem _ hmem), Grouped.found_add, if_neg hother]
      · intro sensor' hmem
        rcases hgroups.keys sensor' hmem with hadded | ⟨suffix', hsuffix', htail⟩
        · rcases OrderedDict.mem_keys_set.mp hadded with rfl | hold
          · exact Or.inr ⟨suffix, hsuffix, by rw [← hname]; exact List.mem_cons_self ..⟩
          · exact Or.inl hold
        · exact Or.inr ⟨suffix', hsuffix', List.mem_cons_of_mem _ htail⟩

/-- Groups that hold what a map has are joined to its entries. -/
theorem joinParts_complete {m : OrderedDict String (Bytes × Bytes)}
    {entries : List (String × OrderedDict String Bytes)} :
    ∀ result : OrderedDict String (Bytes × Bytes),
      (∀ entry ∈ entries, ∃ v, m.get? entry.1 = some v ∧
        entry.2.get? imgSuffix = some v.1 ∧ entry.2.get? metaSuffix = some v.2) →
      ∃ joined, joinParts result entries = .ok joined ∧
        ∀ sensor, joined.get? sensor =
          if sensor ∈ entries.map Prod.fst then m.get? sensor else result.get? sensor := by
  induction entries with
  | nil =>
      intro result _
      exact ⟨result, rfl, fun sensor => (if_neg List.not_mem_nil).symm⟩
  | cons entry rest ih =>
      intro result hcomplete
      obtain ⟨v, hget, himg, hmeta⟩ := hcomplete entry (List.mem_cons_self ..)
      obtain ⟨joined, hok, hjoined⟩ := ih (result.set entry.1 (v.1, v.2))
        fun q hq => hcomplete q (List.mem_cons_of_mem _ hq)
      refine ⟨joined, ?_, ?_⟩
      · show joinParts result ((entry.1, entry.2) :: rest) = _
        rw [joinParts, himg, hmeta]
        exact hok
      · intro sensor
        have hcons : sensor ∈ (entry :: rest).map Prod.fst ↔
            sensor = entry.1 ∨ sensor ∈ rest.map Prod.fst := List.mem_cons
        rw [hjoined, OrderedDict.get?_set]
        by_cases hrest : sensor ∈ rest.map Prod.fst
        · rw [if_pos hrest, if_pos (hcons.mpr (Or.inr hrest))]
        · rw [if_neg hrest]
          by_cases hhead : sensor = entry.1
          · rw [if_pos hhead, if_pos (hcons.mpr (Or.inl hhead)), hhead, hget]
          · rw [if_neg hhead, if_neg fun hmem => (hcons.mp hmem).elim hhead hrest]

/-! ### The round trip

Everything put together, for a map of sensors of any names.  Since the parts of a blob are found by
name, their order is no matter; it comes back all the same.
-/

/-- The two parts of every sensor, under their wire names. -/
def wireParts (m : OrderedDict String (Bytes × Bytes)) : List (String × Bytes) :=
  m.entries.flatMap fun entry =>
    [(partName entry.1 imgSuffix, entry.2.1), (partName entry.1 metaSuffix, entry.2.2)]

/-- A map's parts in some order. -/
def IsPartsOf (parts : OrderedDict String Bytes) (m : OrderedDict String (Bytes × Bytes)) : Prop :=
  parts.entries.Perm (wireParts m)

theorem mem_wireParts {m : OrderedDict String (Bytes × Bytes)} {part : String × Bytes}
    (h : part ∈ wireParts m) : ∃ entry ∈ m.entries, ∃ suffix ∈ suffixes,
      part.1 = partName entry.1 suffix := by
  obtain ⟨entry, hentry, hpart⟩ := List.mem_flatMap.mp h
  rcases List.mem_cons.mp hpart with rfl | hmeta
  · exact ⟨entry, hentry, imgSuffix, List.mem_cons_self .., rfl⟩
  · obtain rfl := List.mem_singleton.mp hmeta
    exact ⟨entry, hentry, metaSuffix, List.mem_cons_of_mem _ (List.mem_cons_self ..), rfl⟩

/-- **Grouping a map's parts gives back the map**, in whatever order they come. -/
theorem splitParts_wireParts {parts : OrderedDict String Bytes}
    {m : OrderedDict String (Bytes × Bytes)} (h : IsPartsOf parts m) :
    ∃ back, splitParts parts = .ok back ∧ back.Same m := by
  have hnamed : ∀ part ∈ parts.entries, ∃ sensor, ∃ suffix ∈ suffixes,
      part.1 = partName sensor suffix := by
    intro part hpart
    obtain ⟨entry, -, suffix, hsuffix, hname⟩ := mem_wireParts (h.mem_iff.mp hpart)
    exact ⟨entry.1, suffix, hsuffix, hname⟩
  obtain ⟨grouped, hgrouped, hgroups⟩ := groupParts_named OrderedDict.empty parts.nodup hnamed
  -- both parts of every sensor of the map are found
  have hfound : ∀ entry ∈ m.entries, grouped.found entry.1 imgSuffix = some entry.2.1 ∧
      grouped.found entry.1 metaSuffix = some entry.2.2 := by
    intro entry hentry
    refine ⟨hgroups.found _ _ (List.mem_cons_self ..) _ ?_,
      hgroups.found _ _ (List.mem_cons_of_mem _ (List.mem_cons_self ..)) _ ?_⟩
    · exact h.mem_iff.mpr (List.mem_flatMap.mpr ⟨entry, hentry, List.mem_cons_self ..⟩)
    · exact h.mem_iff.mpr (List.mem_flatMap.mpr
        ⟨entry, hentry, List.mem_cons_of_mem _ (List.mem_cons_self ..)⟩)
  have hkeys : ∀ sensor, sensor ∈ grouped.keys ↔ sensor ∈ m.keys := by
    intro sensor
    constructor
    · intro hmem
      rcases hgroups.keys sensor hmem with hold | ⟨suffix, hsuffix, hpart⟩
      · exact absurd hold List.not_mem_nil
      · obtain ⟨part, hpart, hname⟩ := List.mem_map.mp hpart
        obtain ⟨entry, hentry, suffix', hsuffix', hname'⟩ := mem_wireParts (h.mem_iff.mp hpart)
        have hsame := partName_inj hsuffix' hsuffix (hname'.symm.trans hname)
        exact List.mem_map.mpr ⟨entry, hentry, hsame.1⟩
    · intro hmem
      obtain ⟨entry, hentry, rfl⟩ := List.mem_map.mp hmem
      rw [← OrderedDict.get?_ne_none]
      intro hnone
      have himg := (hfound entry hentry).1
      unfold Grouped.found at himg
      rw [hnone] at himg
      exact absurd himg nofun
  have hcomplete : ∀ entry ∈ grouped.entries, ∃ v, m.get? entry.1 = some v ∧
      entry.2.get? imgSuffix = some v.1 ∧ entry.2.get? metaSuffix = some v.2 := by
    intro entry hentry
    have hkey : entry.1 ∈ m.keys := (hkeys entry.1).mp (List.mem_map.mpr ⟨entry, hentry, rfl⟩)
    obtain ⟨v, hget⟩ := Option.ne_none_iff_exists'.mp (OrderedDict.get?_ne_none.mpr hkey)
    obtain ⟨himg, hmeta⟩ := hfound (entry.1, v) (OrderedDict.get?_eq_some.mp hget)
    have hlook : grouped.get? entry.1 = some entry.2 := OrderedDict.get?_eq_some.mpr hentry
    unfold Grouped.found at himg hmeta
    rw [hlook, Option.bind_some] at himg hmeta
    exact ⟨v, hget, himg, hmeta⟩
  obtain ⟨back, hok, hback⟩ := joinParts_complete OrderedDict.empty hcomplete
  refine ⟨back, ?_, ?_⟩
  · unfold splitParts
    rw [hgrouped]
    exact hok
  · intro sensor
    rw [hback]
    by_cases hmem : sensor ∈ grouped.entries.map Prod.fst
    · rw [if_pos hmem]
    · have hnone := OrderedDict.get?_eq_none.mpr fun hkey => hmem ((hkeys sensor).mpr hkey)
      rw [if_neg hmem, hnone]
      rfl

/-- Two ranges of a blob that share no byte. -/
def PartLayout.Disjoint (p q : PartLayout) : Prop :=
  Buffer.Clear p.offset p.byteCount q.offset q.byteCount

/-- **Wire round trip.** -/
theorem wire_round_trip (m : OrderedDict String (Bytes × Bytes)) (parts : OrderedDict String Bytes)
    (hparts : IsPartsOf parts m) (hformat : WithinFormat parts) :
    ∃ blob layout unpacked back,
      packBlob parts = .ok blob ∧
      unpackBlob blob = .ok unpacked ∧
      splitParts unpacked = .ok back ∧ back.Same m ∧
      parseLayout blob = .ok layout ∧
      layout.Pairwise PartLayout.Disjoint ∧
      (∀ part ∈ layout, part.offset + part.byteCount ≤ blob.length) ∧
      layout.map (fun part => (part.name, part.byteCount)) = partSizes parts.entries := by
  obtain ⟨back, hback, hsame⟩ := splitParts_wireParts hparts
  have hframed := framed_inOrder hformat
  have hlayout := parseLayout_framed hframed (Nat.le_refl _)
  refine ⟨_, _, parts, back, packBlob_fits hformat, unpackBlob_packBlob hformat, hback, hsame,
    hlayout, ?_, parseLayout_within hlayout, ?_⟩
  · rw [List.pairwise_map]
    refine (cursorOffsets_ordered parts.entries 0).1.imp ?_
    intro d d' hbefore
    refine Buffer.clear_of_le ?_
    unfold Descriptor.at
    dsimp only
    omega
  · rw [List.map_map]
    exact cursorOffsets_sizes (partSizes parts.entries) 0

/-- A map whose sensors are named like parts, one a prefix of the other. -/
def suffixedMap : OrderedDict String (Bytes × Bytes) :=
  OrderedDict.empty.update [("S:img", ([1, 2], [3])), ("S", ([], [4]))]

def suffixedParts : OrderedDict String Bytes :=
  OrderedDict.empty.update
    [("S:meta", [4]), ("S:img:meta", [3]), ("S:img", []), ("S:img:img", [1, 2])]

theorem wire_round_trip_suffixed :
    IsPartsOf suffixedParts suffixedMap ∧ WithinFormat suffixedParts ∧
      ∃ blob layout unpacked back,
        packBlob suffixedParts = .ok blob ∧ unpackBlob blob = .ok unpacked ∧
        splitParts unpacked = .ok back ∧ back.Same suffixedMap ∧ parseLayout blob = .ok layout ∧
        layout.Pairwise PartLayout.Disjoint ∧
        (∀ part ∈ layout, part.offset + part.byteCount ≤ blob.length) ∧
        layout.map (fun part => (part.name, part.byteCount)) = partSizes suffixedParts.entries := by
  have hparts : IsPartsOf suffixedParts suffixedMap := by
    unfold IsPartsOf
    decide +kernel
  have hformat : WithinFormat suffixedParts :=
    ⟨by decide +kernel, by decide +kernel, by decide +kernel⟩
  exact ⟨hparts, hformat, wire_round_trip suffixedMap suffixedParts hparts hformat⟩

end DonutServer
