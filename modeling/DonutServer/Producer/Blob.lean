/-
The blob that is assembled in place.

The images are written at offsets chosen before the framing is known, the framing and the
metadata afterwards.  The descriptors' size is computed from the names, so the images
already stand where the framing will say, and what is unpacked is each sensor's image and
its worker's pickle (`encodeSensors_unpacks`).  Metadata within the allowance is all it
takes for a blob to be assembled (`encodeSensors_returns`).

What makes this work is an estimate.  The images must stand where they stand before the metadata
exists, so room is left for descriptors whose size is known and for metadata whose size is not; too
little of it is an error at the very end, when everything else has been done.
-/
import DonutServer.Wire.Limits
import DonutServer.Producer.Layout

namespace DonutServer.Producer

open PyText

variable {A : Afw} {env : CameraEnv A} {host : Host}

/-- A sensor whose file loads, at the shape the camera gives its image. -/
structure Encodes (env : CameraEnv A) (e : Sensor A × Loaded A) : Prop where
  sound : e.1.handle.Sound env
  loads : loaded env e.1.handle = .ok e.2
  shape : e.1.shape = e.2.bbox.shape

/-! ### The parts

Each sensor has two parts, under its name with one suffix or the other.  In the blob the images
come first and the pickles behind them, so the order is another one than sensor by sensor; since
the names are all different that makes no difference to what is found.
-/

/-- The images, with their names. -/
def imgParts (es : List (Sensor A × Loaded A)) : List (String × Bytes) :=
  es.map fun e => (e.1.imgPart, e.2.img)

/-- The pickles, with theirs. -/
def metaParts (env : CameraEnv A) (es : List (Sensor A × Loaded A)) : List (String × Bytes) :=
  es.map fun e => (e.1.metaPart, e.2.pickle env 0)

theorem imgSuffix_mem : imgSuffix ∈ suffixes := List.mem_cons_self ..

theorem metaSuffix_mem : metaSuffix ∈ suffixes := List.mem_cons_of_mem _ (List.mem_cons_self ..)

/-- Sensors with names of their own have parts with names of their own. -/
theorem nodup_partNames {names : List String} (h : names.Nodup) :
    (names.map (partName · imgSuffix) ++ names.map (partName · metaSuffix)).Nodup := by
  have hinj : ∀ suffix ∈ suffixes, Function.Injective (partName · suffix) :=
    fun suffix hsuffix a b heq => (partName_inj hsuffix hsuffix heq).1
  refine List.nodup_append.mpr ⟨h.map (hinj _ imgSuffix_mem), h.map (hinj _ metaSuffix_mem), ?_⟩
  intro a ha b hb heq
  obtain ⟨sensor, -, rfl⟩ := List.mem_map.mp ha
  obtain ⟨sensor', -, rfl⟩ := List.mem_map.mp hb
  have hsuffix := (partName_inj imgSuffix_mem metaSuffix_mem heq).2
  exact absurd hsuffix (by decide)

/-- The names of both are those of the parts. -/
theorem parts_names (env : CameraEnv A) (es : List (Sensor A × Loaded A)) :
    (imgParts es ++ metaParts env es).map Prod.fst =
      (es.map fun e => e.1.name).map (partName · imgSuffix) ++
        (es.map fun e => e.1.name).map (partName · metaSuffix) := by
  unfold imgParts metaParts
  rw [List.map_append, List.map_map, List.map_map, List.map_map, List.map_map]
  rfl

/-- The images first, the metadata behind them. -/
def blobParts (env : CameraEnv A) (es : List (Sensor A × Loaded A))
    (hnames : (es.map fun e => e.1.name).Nodup) : OrderedDict String Bytes :=
  ⟨imgParts es ++ metaParts env es, parts_names env es ▸ nodup_partNames hnames⟩

/-- The same names, sensor by sensor or the images first. -/
theorem sensorNames_perm (env : CameraEnv A) {es : List (Sensor A × Loaded A)}
    (hnames : (es.map fun e => e.1.name).Nodup) :
    ((es.map Prod.fst).flatMap fun s => [s.imgPart, s.metaPart]).Perm
      (blobParts env es hnames).keys := by
  show List.Perm _ ((imgParts es ++ metaParts env es).map Prod.fst)
  rw [parts_names, List.map_map, List.map_map, List.flatMap_map, List.map_eq_flatMap,
    List.map_eq_flatMap]
  exact (List.flatMap_append_perm es (fun e => [e.1.imgPart]) fun e => [e.1.metaPart]).symm

/-! ### The layout

The layout of the images is made first and that of the metadata goes on from it, so that the slots
do not move.  The sizes are those of the parts, as far as the images are concerned because the
camera's shape is the image's.
-/

/-- The slots of the images. -/
def imageSlots (sensors : List (Sensor A)) : Laid String :=
  layParts (Laid.nothing String) (sensors.map fun s => (s.imgPart, imageSize s.shape))

/-- The whole layout. -/
def blobLayout (env : CameraEnv A) (es : List (Sensor A × Loaded A)) : Laid String :=
  layParts (imageSlots (es.map Prod.fst)) (partSizes (metaParts env es))

section Sensors

variable {es : List (Sensor A × Loaded A)} (hes : ∀ e ∈ es, Encodes env e)
  (hnames : (es.map fun e => e.1.name).Nodup)

include hes

/-- An image is as large as its slot. -/
theorem imgSizes : (es.map Prod.fst).map (fun s => (s.imgPart, imageSize s.shape)) =
    partSizes (imgParts es) := by
  unfold partSizes imgParts
  rw [List.map_map, List.map_map]
  apply List.map_congr_left
  intro e he
  show (e.1.imgPart, imageSize e.1.shape) = (e.1.imgPart, e.2.img.length)
  rw [Loaded.length_img (hes e he).loads, (hes e he).shape]

include hnames

omit hes in
theorem nodup_sizes (env : CameraEnv A) :
    ((partSizes (imgParts es) ++ partSizes (metaParts env es)).map Prod.fst).Nodup := by
  have hnodup := (blobParts env es hnames).nodup
  have hfst : ∀ parts : List (String × Bytes),
      (partSizes parts).map Prod.fst = parts.map Prod.fst := fun parts => List.map_map
  rw [List.map_append, hfst, hfst, ← List.map_append]
  exact hnodup

/-- The images' slots, one behind the other. -/
theorem imageSlots_holds : (imageSlots (es.map Prod.fst)).Holds (partSizes (imgParts es)) := by
  have hnodup := nodup_sizes hnames env
  rw [List.map_append] at hnodup
  unfold imageSlots
  rw [imgSizes hes]
  exact (layParts_holds Laid.nothing_holds (List.nodup_append.mp hnodup).1).1

/-- The metadata goes behind the images, which stay in their slots. -/
theorem blobLayout_holds :
    (blobLayout env es).Holds (partSizes (imgParts es) ++ partSizes (metaParts env es)) ∧
      ∀ p ∈ partSizes (imgParts es), (blobLayout env es).offsetOf p.1 =
        (imageSlots (es.map Prod.fst)).offsetOf p.1 :=
  layParts_holds (imageSlots_holds hes hnames) (nodup_sizes hnames env)

/-- Each part has the range that its size asks for. -/
theorem blobLayout_sizes : (blobLayout env es).sizes = sizesOf (blobParts env es hnames) := by
  apply OrderedDict.eq_of_entries
  rw [(blobLayout_holds hes hnames).1.sizes]
  exact List.map_append.symm

/-- The offsets are those that the framing is given. -/
theorem blobLayout_given : ∀ name ∈ (blobParts env es hnames).keys,
    name ∈ (blobLayout env es).offsets.keys := by
  intro name hname
  rw [(blobLayout_holds hes hnames).1.given]
  unfold partSizes
  rw [← List.map_append, List.map_map]
  exact hname

/-- No two parts share a byte. -/
theorem blobLayout_apart : (blobParts env es hnames).entries.Pairwise fun p q =>
    Buffer.Clear (pinnedAt (blobLayout env es).offsets p.1) p.2.length
      (pinnedAt (blobLayout env es).offsets q.1) q.2.length := by
  have hapart := (blobLayout_holds hes hnames).1.apart
  unfold partSizes at hapart
  rw [← List.map_append, List.pairwise_map] at hapart
  exact hapart

omit hes in
/-- There is something in it. -/
theorem blobParts_nonempty (hnonempty : es ≠ []) : (blobParts env es hnames).entries ≠ [] := by
  intro hnil
  have himg : imgParts es = [] := (List.append_eq_nil_iff.mp hnil).1
  exact hnonempty (List.map_eq_nil_iff.mp himg)

/-- The layout is one the framing can be built for, whenever it is built. -/
theorem blobLayout_pinned (hnonempty : es ≠ []) {f : Framing}
    (h : buildFraming (sizesOf (blobParts env es hnames)) (some (blobLayout env es).offsets) =
      .ok f) :
    Pinned (blobParts env es hnames) (blobLayout env es).offsets :=
  pinned_of_buildFraming (blobParts_nonempty hnames hnonempty) (blobLayout_given hes hnames)
    (blobLayout_apart hes hnames) h

omit hnames in
/-- The workers' tasks, for sensors that load. -/
theorem imageTasks_fits {dataStart : Nat} {task : Task A}
    (h : task ∈ imageTasks dataStart (imageSlots (es.map Prod.fst)) (es.map Prod.fst)) :
    ∃ e ∈ es, task.Fits env e.2 ∧ task.handle = e.1.handle ∧
      task.offset = dataStart + (imageSlots (es.map Prod.fst)).offsetOf e.1.imgPart := by
  obtain ⟨s, hs, rfl⟩ := List.mem_map.mp h
  obtain ⟨e, he, rfl⟩ := List.mem_map.mp hs
  exact ⟨e, he, ⟨(hes e he).loads, rfl, (hes e he).shape⟩, rfl, rfl⟩

end Sensors

/-! ### The workers

The workers run in any order, each with the block as the others have left it.  They write into
slots that are apart, so what is in a slot in the end is what its own worker wrote.
-/

/-- The image a task's worker writes, and the pickle it returns. -/
def imgOf (env : CameraEnv A) (task : Task A) : Bytes :=
  ((loaded env task.handle).toOption.map Loaded.img).getD []

/-- The pickle that a task's worker returns. -/
def pickleOf (env : CameraEnv A) (task : Task A) : Bytes :=
  ((loaded env task.handle).toOption.map (Loaded.pickle env 0)).getD []

/-- For a file that loads it is the bytes of its image, -/
theorem imgOf_eq {task : Task A} {l : Loaded A} (h : loaded env task.handle = .ok l) :
    imgOf env task = l.img := by
  unfold imgOf
  rw [h]
  rfl

/-- and the pickle is the one with the zero. -/
theorem pickleOf_eq {task : Task A} {l : Loaded A} (h : loaded env task.handle = .ok l) :
    pickleOf env task = l.pickle env 0 := by
  unfold pickleOf
  rw [h]
  rfl

section Workers

variable {es : List (Sensor A × Loaded A)} (hes : ∀ e ∈ es, Encodes env e)
  (hnames : (es.map fun e => e.1.name).Nodup) (hids : (es.map fun e => e.1.detId).Nodup)

include hes hnames hids

/-- **The images are in their slots** when the workers have returned. -/
theorem fanOut_images (dataStart : Nat) (block : Bytes) {nWorkers : Option Int}
    (hhost : host.RunsPool nWorkers es.length)
    (hroom : dataStart + (imageSlots (es.map Prod.fst)).cursor ≤ block.length) :
    ∃ pieces, fanOut host (encodeOne env host.scratch)
        (imageTasks dataStart (imageSlots (es.map Prod.fst)) (es.map Prod.fst)) nWorkers block =
          .ok (Buffer.writeAll block pieces, es.map fun e => e.2.pickle env 0) ∧
      pieces.Perm (es.map fun e =>
        (dataStart + (imageSlots (es.map Prod.fst)).offsetOf e.1.imgPart, e.2.img)) := by
  generalize htasks : imageTasks dataStart (imageSlots (es.map Prod.fst)) (es.map Prod.fst) = tasks
  have hfits : ∀ task ∈ tasks, ∃ e ∈ es, task.Fits env e.2 ∧ task.handle = e.1.handle ∧
      task.offset = dataStart + (imageSlots (es.map Prod.fst)).offsetOf e.1.imgPart :=
    fun task htask => imageTasks_fits hes (htasks ▸ htask)
  have htasksEq : tasks = es.map fun e => (⟨e.1.detId, e.1.handle,
      dataStart + (imageSlots (es.map Prod.fst)).offsetOf e.1.imgPart, imageSize e.1.shape,
      e.1.shape⟩ : Task A) := by
    rw [← htasks]
    exact List.map_map
  have hnodup : (tasks.map Task.detId).Nodup := by
    rw [htasksEq, List.map_map]
    exact hids
  have hend : ∀ task ∈ tasks, task.offset + task.byteCount ≤ block.length := by
    intro task htask
    obtain ⟨e, he, hfit, -, hoffset⟩ := hfits task htask
    have hwithin := (imageSlots_holds hes hnames).within (e.1.imgPart, e.2.img.length)
      (List.mem_map.mpr ⟨_, List.mem_map.mpr ⟨e, he, rfl⟩, rfl⟩)
    have hsize := hfit.byteCount
    dsimp only at hwithin
    omega
  refine ⟨(host.schedule tasks).map fun task => (task.offset, imgOf env task), ?_, ?_⟩
  · have hvalues : tasks.map (pickleOf env) = es.map fun e => e.2.pickle env 0 := by
      rw [htasksEq, List.map_map]
      exact List.map_congr_left fun e he => pickleOf_eq (hes e he).loads
    rw [← hvalues]
    apply fanOut_fills
    · rw [htasksEq, List.length_map]
      exact hhost
    · exact hnodup
    · intro task htask b hb
      obtain ⟨e, he, hfit, hhandle, -⟩ := hfits task htask
      rw [imgOf_eq hfit.loads, pickleOf_eq hfit.loads]
      exact encodeOne_fits (hhandle ▸ (hes e he).sound) _ hfit
        (Nat.le_trans (hend task htask) hb)
    · intro task htask
      obtain ⟨e, -, hfit, -, -⟩ := hfits task htask
      rw [imgOf_eq hfit.loads, hfit.byteCount]
      exact hend task htask
  · have hperm := (host.schedule_perm tasks).map fun task => (task.offset, imgOf env task)
    refine hperm.trans (List.Perm.of_eq ?_)
    rw [htasksEq, List.map_map]
    exact List.map_congr_left fun e he => congrArg (Prod.mk _) (imgOf_eq (hes e he).loads)

end Workers

/-- A block is at least as large as it was asked to be. -/
theorem Host.allocate_size (host : Host) {size : Nat} {block : Bytes}
    (h : host.allocate size = .ok block) : size ≤ block.length := by
  unfold Host.allocate at h
  cases hfree : host.shmFreeBytes.filter (· < size) with
  | some free =>
      rw [hfree] at h
      exact absurd h nofun
  | none =>
      rw [hfree] at h
      cases hblock : host.sharedMemory size with
      | error text =>
          rw [hblock] at h
          exact absurd h nofun
      | ok b =>
          rw [hblock] at h
          rw [← Except.ok.inj h]
          exact host.sharedMemory_size size b hblock

/-! ### The framing and the metadata

The framing goes to the front and the pickles behind the images, and neither reaches into a slot.
Then the front of the block is a blob, and unpacking it finds each part where the layout has put
it.
-/

section Blob

variable {es : List (Sensor A × Loaded A)} (hes : ∀ e ∈ es, Encodes env e)
  (hnames : (es.map fun e => e.1.name).Nodup) (hids : (es.map fun e => e.1.detId).Nodup)

include hes hnames

/-- What `finishBlob` returns, and when. -/
theorem finishBlob_ok {size : Nat} {filled : Bytes} {done : Bytes × Nat} :
    finishBlob (es.map Prod.fst) (imageSlots (es.map Prod.fst))
        (es.map fun e => e.2.pickle env 0) size filled = .ok done ↔
      ∃ f, buildFraming (sizesOf (blobParts env es hnames)) (some (blobLayout env es).offsets) =
          .ok f ∧ f.totalSize ≤ size ∧
        done = (Buffer.writeAll (Buffer.write filled 0 f.framing)
          (f.pieces (metaParts env es)), f.totalSize) := by
  have hzip : ((es.map Prod.fst).zip (es.map fun e => e.2.pickle env 0)).map
      (fun s => (s.1.metaPart, s.2)) = metaParts env es := by
    rw [List.zip_map', List.map_map]
    rfl
  have hlaid : layParts (imageSlots (es.map Prod.fst))
      ((metaParts env es).map fun part => (part.1, part.2.length)) = blobLayout env es := rfl
  unfold finishBlob
  dsimp only
  rw [hzip, hlaid, blobLayout_sizes hes hnames]
  cases hf : buildFraming (sizesOf (blobParts env es hnames)) (some (blobLayout env es).offsets) with
  | error e =>
      refine ⟨nofun, fun h => ?_⟩
      obtain ⟨f, hf', -⟩ := h
      exact absurd hf' nofun
  | ok f =>
      dsimp only
      by_cases hsize : size < f.totalSize
      · rw [if_pos hsize]
        refine ⟨nofun, fun h => ?_⟩
        obtain ⟨f', hf', hle, -⟩ := h
        rw [← Except.ok.inj hf'] at hle
        omega
      · rw [if_neg hsize]
        constructor
        · intro h
          exact ⟨f, rfl, Nat.not_lt.mp hsize, (Except.ok.inj h).symm⟩
        · intro h
          obtain ⟨f', hf', -, rfl⟩ := h
          rw [Except.ok.inj hf']

/-- **What is read of the finished block**: every sensor's image and pickle. -/
theorem finishBlob_unpacks {descriptors size total : Nat} {block block' : Bytes}
    {pieces : List (Nat × Bytes)} (hnonempty : es ≠ [])
    (hdescriptors : descriptorRegionSize ((es.map Prod.fst).flatMap fun s =>
      [s.imgPart, s.metaPart]) = .ok descriptors)
    (hpieces : pieces.Perm (es.map fun e =>
      (headerSize + descriptors + (imageSlots (es.map Prod.fst)).offsetOf e.1.imgPart, e.2.img)))
    (hsize : size ≤ block.length)
    (h : finishBlob (es.map Prod.fst) (imageSlots (es.map Prod.fst))
      (es.map fun e => e.2.pickle env 0) size (Buffer.writeAll block pieces) =
        .ok (block', total)) :
    (block'.take total).length = total ∧
      unpackBlob (block'.take total) = .ok (blobParts env es hnames) := by
  obtain ⟨f, hf, hfits, hdone⟩ := (finishBlob_ok hes hnames).mp h
  obtain ⟨rfl, rfl⟩ := Prod.mk.inj hdone
  have hpinned := blobLayout_pinned hes hnames hnonempty hf
  obtain ⟨f', hf', hframing, -, -⟩ := buildFraming_pinned hpinned
  obtain rfl : f' = f := Except.ok.inj (hf'.symm.trans hf)
  have hlength : f'.framing.length = headerSize + descriptors := by
    rw [hframing]
    exact length_framing (sensorNames_perm env hnames) hdescriptors
  have himgs : f'.pieces (imgParts es) = es.map fun e =>
      (headerSize + descriptors + (imageSlots (es.map Prod.fst)).offsetOf e.1.imgPart,
        e.2.img) := by
    have hpart : ∀ part ∈ imgParts es, part ∈ (blobParts env es hnames).entries :=
      fun part hpart => List.mem_append_left _ hpart
    rw [hpinned.pieces_eq hf hpart, hlength]
    unfold imgParts
    rw [List.map_map]
    apply List.map_congr_left
    intro e he
    have hkept := (blobLayout_holds hes hnames).2 (e.1.imgPart, e.2.img.length)
      (List.mem_map.mpr ⟨_, List.mem_map.mpr ⟨e, he, rfl⟩, rfl⟩)
    exact congrArg (fun offset => (headerSize + descriptors + offset, e.2.img)) hkept
  have hperm : (pieces ++ (0, f'.framing) :: f'.pieces (metaParts env es)).Perm
      ((0, f'.framing) :: f'.pieces (blobParts env es hnames).entries) := by
    have hall : f'.pieces (blobParts env es hnames).entries =
        f'.pieces (imgParts es) ++ f'.pieces (metaParts env es) := List.filterMap_append
    rw [hall, himgs]
    exact List.perm_middle.trans ((hpieces.append_right _).cons _)
  have hwritten := hpinned.unpackBlob_written hf block _ (Nat.le_trans hfits hsize) hperm
  have happend : Buffer.writeAll block (pieces ++ (0, f'.framing) :: f'.pieces (metaParts env es)) =
      Buffer.writeAll (Buffer.write (Buffer.writeAll block pieces) 0 f'.framing)
        (f'.pieces (metaParts env es)) := List.foldl_append
  rw [happend] at hwritten
  exact hwritten

/-- Metadata within the allowance fits behind the images. -/
theorem finishBlob_returns {descriptors : Nat} (hnonempty : es ≠ [])
    (hlimits : WithinFormat (blobParts env es hnames))
    (hdescriptors : descriptorRegionSize ((es.map Prod.fst).flatMap fun s =>
      [s.imgPart, s.metaPart]) = .ok descriptors)
    (hallowance : (es.map fun e => (e.2.pickle env 0).length).sum ≤ metaAllowance)
    (filled : Bytes) :
    ∃ done, finishBlob (es.map Prod.fst) (imageSlots (es.map Prod.fst))
      (es.map fun e => e.2.pickle env 0)
      (headerSize + descriptors + (imageSlots (es.map Prod.fst)).cursor + metaAllowance)
      filled = .ok done := by
  have hholds := (blobLayout_holds hes hnames).1
  have hmem : ∀ part ∈ (blobParts env es hnames).entries, (part.1, part.2.length) ∈
      partSizes (imgParts es) ++ partSizes (metaParts env es) := by
    intro part hpart
    unfold partSizes
    rw [← List.map_append]
    exact List.mem_map.mpr ⟨part, hpart, rfl⟩
  have hcursor : (blobLayout env es).cursor = (imageSlots (es.map Prod.fst)).cursor +
      (es.map fun e => (e.2.pickle env 0).length).sum := by
    rw [hholds.total, (imageSlots_holds hes hnames).total, List.map_append, List.sum_append_nat]
    unfold partSizes metaParts
    rw [List.map_map, List.map_map, List.map_map]
    rfl
  have htotal : (blobLayout env es).cursor < 2 ^ 64 := by
    have hpayload := hlimits.total
    have hsum : (payloadBytes (blobParts env es hnames).entries).length =
        ((partSizes (imgParts es) ++ partSizes (metaParts env es)).map Prod.snd).sum := by
      unfold payloadBytes partSizes
      rw [List.length_flatMap, ← List.map_append, List.map_map]
      rfl
    rw [hholds.total, ← hsum]
    exact hpayload
  have hpinned : Pinned (blobParts env es hnames) (blobLayout env es).offsets := by
    refine ⟨blobParts_nonempty hnames hnonempty, hlimits.count, hlimits.names,
      blobLayout_given hes hnames, ?_, blobLayout_apart hes hnames⟩
    intro part hpart
    exact Nat.lt_of_le_of_lt (hholds.within _ (hmem part hpart)) htotal
  obtain ⟨f, hf, hframing, hsize, -⟩ := buildFraming_pinned hpinned
  have hcover : payloadCover (placedAt (pinnedAt (blobLayout env es).offsets)
      (blobParts env es hnames).entries) < (blobLayout env es).cursor + 1 := by
    refine payloadCover_lt (Nat.succ_pos _) ?_
    intro d hd
    obtain ⟨part, hpart, rfl⟩ := List.mem_map.mp hd
    exact Nat.lt_succ_of_le (hholds.within _ (hmem part hpart))
  rw [length_framing (sensorNames_perm env hnames) hdescriptors] at hsize
  exact ⟨_, (finishBlob_ok hes hnames).mpr ⟨f, hf, by omega, rfl⟩⟩

include hids

/-- A block for the blob, and a pool that runs: then the images are in it when the framing
and the metadata are written. -/
theorem encodeSensors_eq {nWorkers : Option Int} {descriptors : Nat} {block : Bytes}
    (hdescriptors : descriptorRegionSize ((es.map Prod.fst).flatMap fun s =>
      [s.imgPart, s.metaPart]) = .ok descriptors)
    (hblock : host.allocate (headerSize + descriptors + (imageSlots (es.map Prod.fst)).cursor +
      metaAllowance) = .ok block)
    (hhost : host.RunsPool nWorkers es.length) :
    ∃ pieces, encodeSensors env host (es.map Prod.fst) nWorkers =
        finishBlob (es.map Prod.fst) (imageSlots (es.map Prod.fst))
          (es.map fun e => e.2.pickle env 0)
          (headerSize + descriptors + (imageSlots (es.map Prod.fst)).cursor + metaAllowance)
          (Buffer.writeAll block pieces) ∧
      pieces.Perm (es.map fun e =>
        (headerSize + descriptors + (imageSlots (es.map Prod.fst)).offsetOf e.1.imgPart,
          e.2.img)) := by
  have hsize := host.allocate_size hblock
  obtain ⟨pieces, hfan, hperm⟩ := fanOut_images hes hnames hids (headerSize + descriptors) block
    hhost (by omega)
  refine ⟨pieces, ?_, hperm⟩
  unfold encodeSensors
  rw [hdescriptors]
  dsimp only [bind, Except.bind, Except.mapError]
  rw [show layParts (Laid.nothing String) ((es.map Prod.fst).map fun s =>
    (s.imgPart, imageSize s.shape)) = imageSlots (es.map Prod.fst) from rfl, hblock]
  dsimp only
  rw [hfan]

end Blob

/-- Every worker of a blob that was assembled had a task that fits. -/
theorem encodeSensors_returns {sensors : List (Sensor A)} {nWorkers : Option Int}
    {done : Bytes × Nat} (hsound : ∀ s ∈ sensors, s.handle.Sound env)
    (hids : (sensors.map Sensor.detId).Nodup)
    (h : encodeSensors env host sensors nWorkers = .ok done) :
    ∃ descriptors block,
      descriptorRegionSize (sensors.flatMap fun s => [s.imgPart, s.metaPart]) =
        .ok descriptors ∧
      host.allocate (headerSize + descriptors + (imageSlots sensors).cursor + metaAllowance) =
        .ok block ∧
      host.RunsPool nWorkers sensors.length ∧
      ∀ s ∈ sensors, ∃ l, Encodes env (s, l) := by
  unfold encodeSensors at h
  obtain ⟨descriptors, hdescriptors, h⟩ := Except.bind_eq_ok.mp h
  obtain ⟨block, hblock, h⟩ := Except.bind_eq_ok.mp h
  obtain ⟨filled, hfilled, h⟩ := Except.bind_eq_ok.mp h
  have hids' : ((imageTasks (headerSize + descriptors) (imageSlots sensors) sensors).map
      Task.detId).Nodup := by
    unfold imageTasks
    rw [List.map_map]
    exact hids
  obtain ⟨hpool, hreturned⟩ := fanOut_returns hids' hfilled
  unfold imageTasks at hpool
  rw [List.length_map] at hpool
  refine ⟨descriptors, block, Except.mapError_eq_ok.mp hdescriptors, hblock, hpool, ?_⟩
  intro s hs
  obtain ⟨b, value, hvalue⟩ := hreturned _ (List.mem_map.mpr ⟨s, hs, rfl⟩)
  obtain ⟨l, hfits⟩ := encodeOne_returns (hsound s hs) hvalue
  exact ⟨l, hsound s hs, hfits.loads, hfits.shape⟩

end DonutServer.Producer
