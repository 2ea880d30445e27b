import DataRecovery.Chunks
import DataRecovery.NTFS.Recovery
import DataRecovery.NTFS.Streams

/-!
# Fragmented files

The file info keeps one run, so of a file's runs the engine recovers the last one
read. What it writes is the file exactly when the clusters the file's bytes lie in
are the first clusters of its last run.
-/

namespace DataRecovery.NTFS

/-! ## The last run -/

def lastLength (runs : List Run) : Nat := (runs.getLast?.map Run.length).getD 0

theorem lastLCN_inside {total : Nat} : ∀ {runs : List Run} {lcn : Int}, (∀ r ∈ runs, r.WellFormed) →
    RunsInside total lcn runs → 0 ≤ lcn → lcn ≤ total → 0 ≤ lastLCN lcn runs ∧ lastLCN lcn runs ≤ total
  | [], _, _, _, hlo, hhi => ⟨hlo, hhi⟩
  | r :: runs, lcn, hwf, hin, hlo, hhi => by
    obtain ⟨hlo', hhi'⟩ := next_inside (hwf r (List.mem_cons_self ..)) hin hlo hhi
    show 0 ≤ lastLCN (lcn + r.offset) runs ∧ lastLCN (lcn + r.offset) runs ≤ total
    exact lastLCN_inside (fun r' hr' => hwf r' (List.mem_cons_of_mem _ hr')) hin.2 hlo' hhi'

theorem assigned_getLast? : ∀ {runs : List Run} {lcn : Int}, runs ≠ [] →
    (assigned lcn runs).getLast? = some (UInt64.ofInt (lastLCN lcn runs), UInt64.ofNat (lastLength runs))
  | [r], lcn, _ => rfl
  | r :: r' :: runs, lcn, _ => by
    have ih := @assigned_getLast? (r' :: runs) (lcn + r.offset) (List.cons_ne_nil r' runs)
    rw [assigned, assigned, List.getLast?_cons_cons]
    exact ih

theorem lastLength_bounds {runs : List Run} (hne : runs ≠ []) (hwf : ∀ r ∈ runs, r.WellFormed) :
    1 ≤ lastLength runs ∧ lastLength runs < 2 ^ 64 := by
  have hr := hwf _ (List.getLast_mem hne)
  have hlt : (runs.getLast hne).length < 256 ^ 8 :=
    Nat.lt_of_lt_of_le hr.length_lt (Nat.pow_le_pow_right (by decide) hr.lengthSize_le)
  unfold lastLength
  rw [List.getLast?_eq_some_getLast hne]
  exact ⟨hr.length_pos, hlt⟩

theorem clustersOf_inside {total c : Nat} : ∀ {runs : List Run} {lcn : Int}, RunsInside total lcn runs →
    some c ∈ clustersOf lcn runs → c < total
  | r :: runs, lcn, hin, hc => by
    rw [clustersOf, List.mem_append] at hc
    rcases hc with hc | hc
    · obtain ⟨k, hk, hval⟩ := List.mem_map.mp hc
      cases hs : r.isSparse with
      | true => simp [hs] at hval
      | false =>
        rw [hs, if_neg (by simp)] at hval
        have hrun := hin.1 hs
        have hlt := List.mem_range.mp hk
        cases hval
        omega
    · exact clustersOf_inside hin.2 hc

/-! ## The chain -/

theorem chainLoop_eq (start : UInt64) : ∀ (count i : Nat) (used : List UInt64), i + count ≤ 2 ^ 64 →
    (∀ c ∈ used, ∃ j < i, c = start + UInt64.ofNat j) →
    chainLoop start count (UInt64.ofNat i) used = (List.range' i count).map fun k => start + UInt64.ofNat k
  | 0, i, used, _, _ => rfl
  | count + 1, i, used, hle, hused => by
    -- below the 64-bit wrap no cluster repeats
    have hfresh : used.contains (start + UInt64.ofNat i) = false := by
      rw [Bool.eq_false_iff]
      intro h
      obtain ⟨j, hj, heq⟩ := hused _ (List.contains_iff_mem.mp h)
      have hnat := congrArg UInt64.toNat ((UInt64.add_right_inj start).mp heq)
      rw [UInt64.toNat_ofNat_of_lt' (show i < 2 ^ 64 by omega), UInt64.toNat_ofNat_of_lt' (show j < 2 ^ 64 by omega)]
        at hnat
      omega
    have hsucc : UInt64.ofNat i + 1 = UInt64.ofNat (i + 1) := (UInt64.ofNat_add i 1).symm
    unfold chainLoop
    dsimp only
    rw [hfresh, if_neg (by simp), hsucc, List.range'_succ, List.map_cons]
    congr 1
    apply chainLoop_eq start count (i + 1) _ (by omega)
    intro c hc
    rcases List.mem_cons.mp hc with rfl | hc
    · exact ⟨i, Nat.lt_succ_self i, rfl⟩
    · obtain ⟨j, hj, heq⟩ := hused c hc
      exact ⟨j, Nat.lt_succ_of_lt hj, heq⟩

theorem validateClusterChain_eq {info : FileInfo} {cluster : Nat} (hcluster : info.cluster = UInt64.ofNat cluster) :
    validateClusterChain info = (List.range info.runLength.toNat).map fun k => UInt64.ofNat (cluster + k) := by
  have hlt := info.runLength.toNat_lt
  have h := chainLoop_eq info.cluster info.runLength.toNat 0 [] (by omega) (by simp)
  unfold validateClusterChain
  rw [List.range_eq_range']
  refine h.trans (List.map_congr_left fun k _ => ?_)
  rw [hcluster, UInt64.ofNat_add]

/-! ## The data of clusters -/

section
variable (v : Volume)

def DriveInfo.clusterSize (drive : DriveInfo) : Nat :=
  drive.bootSector.sectorsPerCluster.toNat * drive.bootSector.bytesPerSector.toNat

def clusterData : Option Nat → List UInt8
  | some c => (List.range v.sectorsPerCluster.toNat).flatMap fun i =>
      sectorData v.readSector (UInt64.ofNat (c * v.sectorsPerCluster.toNat + i))
  | none => List.replicate v.driveInfo.clusterSize 0

def readable (c : Nat) : Prop :=
  ∀ i < v.sectorsPerCluster.toNat, (v.readSector (UInt64.ofNat (c * v.sectorsPerCluster.toNat + i))).isSome

def fileData (runs : List Run) (realSize : UInt64) : List UInt8 :=
  ((clustersOf 0 runs).flatMap (clusterData v)).take realSize.toNat

def copiedClusters (runs : List Run) : List (Option Nat) :=
  (List.range (lastLength runs)).map fun k => some ((lastLCN 0 runs).toNat + k)

theorem sectorsOf_data (c : Nat) :
    (v.sectorsOf (UInt64.ofNat c)).flatMap (sectorData v.readSector) = clusterData v (some c) := by
  have hspc : v.sectorsPerCluster.toUInt64 = UInt64.ofNat v.sectorsPerCluster.toNat := by
    rw [UInt64.ofNat_uInt8ToNat]
  unfold Volume.sectorsOf Volume.clusterToSector clusterData
  rw [List.flatMap_map, hspc]
  simp only [UInt64.ofNat_add, UInt64.ofNat_mul]

theorem length_sectorData {sector : UInt64} (h : (v.readSector sector).isSome) :
    (sectorData v.readSector sector).length = v.bytesPerSector.toNat := by
  obtain ⟨buffer, hread⟩ := Option.isSome_iff_exists.mp h
  unfold sectorData
  rw [hread, Option.getD_some, Volume.length_of_readSector hread, UInt16.toNat_toUInt64]

theorem length_clusterData {c : Option Nat} (h : ∀ n, c = some n → readable v n) :
    (clusterData v c).length = v.driveInfo.clusterSize := by
  cases c with
  | none => simp [clusterData]
  | some c =>
    unfold clusterData
    rw [length_flatMap_chunks (n := v.bytesPerSector.toNat), List.length_range]
    · rfl
    intro i hi
    exact length_sectorData v (h c rfl i (List.mem_range.mp hi))

/-! ## Copying the last run -/

variable {runs : List Run} {realSize : UInt64}

theorem written_eq {info : FileInfo} (hcluster : info.cluster = UInt64.ofNat (lastLCN 0 runs).toNat)
    (hlength : info.runLength.toNat = lastLength runs) (hpos : 0 < realSize) {host : Host} {status : RecoveryStatus}
    (hbytes : status.recoveredBytes = 0) (hclusters : status.recoveredClusters = 0) {outputPath : Path}
    {st : RunState host} (hcreate : host.canCreate outputPath = true) :
    (recoverNonResidentFile v (validateClusterChain info) status outputPath realSize st).1.1.files.read outputPath =
      some (.data (((copiedClusters runs).flatMap (clusterData v)).take realSize.toNat)) := by
  unfold recoverNonResidentFile
  rw [if_pos hcreate, hbytes, hclusters]
  dsimp only
  rw [read_write, copyChain_written v.readSector _ realSize Volume.length_of_readSector v.sectorsOf _ hpos,
    validateClusterChain_eq hcluster, hlength]
  unfold copiedClusters
  rw [List.flatMap_map, List.flatMap_map]
  simp only [sectorsOf_data]

end

/-! ## The record -/

/-- A deleted record in `b` with a file name and, as its only `$DATA`, an unnamed non-resident
one with a run list inside the volume. -/
structure FragmentedFile (drive : DriveInfo) (b : ByteMap) where
  pre : List (UInt32 × Nat)
  attr : Nat
  post : List (UInt32 × Nat)
  before : List Attribute
  after : List Attribute
  realSize : UInt64
  dataRunOffset : UInt16
  runs : List Run
  record : DeletedRecord drive b (pre ++ (DATA, attr) :: post)
  only : ∀ a ∈ pre ++ post, a.1 ≠ DATA
  before_eq : readAttributes drive b pre = .ok before
  after_eq : readAttributes drive b post = .ok after
  named : lastName (before ++ after) ≠ []
  unnamed : isNamed b attr = false
  nonResident : ∃ flag, readByte b (attr + 8) = .ok flag ∧ flag ≠ 0
  realSize_eq : readU64 b (attr + 48) = .ok realSize
  dataRunOffset_eq : readU16 b (attr + 32) = .ok dataRunOffset
  runList : Holds b (attr + dataRunOffset.toNat) (runListBytes runs)
  runs_ne : runs ≠ []
  wellFormed : ∀ r ∈ runs, r.WellFormed
  inside : RunsInside drive.lastCluster.toNat 0 runs

theorem readAttribute_content {drive : DriveInfo} {b : ByteMap} {type : UInt32} {attr : Nat} {a : Attribute}
    (hne : type ≠ DATA) (h : readAttribute drive b type attr = .ok a) : a.content = none := by
  unfold readAttribute at h
  by_cases hname : type = FILE_NAME
  · rw [if_pos hname] at h
    obtain ⟨name, -, h⟩ := Except.bind_ok h
    cases h
    rfl
  · rw [if_neg hname, if_neg hne] at h
    cases h
    rfl

theorem contents_of_no_data {drive : DriveInfo} {b : ByteMap} : ∀ {attrs : List (UInt32 × Nat)}
    {attributes : List Attribute}, (∀ a ∈ attrs, a.1 ≠ DATA) → readAttributes drive b attrs = .ok attributes →
      contents attributes = []
  | [], attributes, _, h => by
    cases h
    rfl
  | a :: attrs, attributes, hne, h => by
    unfold readAttributes at h
    rw [List.mapM_cons] at h
    obtain ⟨x, hx, h⟩ := Except.bind_ok h
    obtain ⟨xs, hxs, h⟩ := Except.bind_ok h
    cases h
    have ih := contents_of_no_data (fun a' ha' => hne a' (List.mem_cons_of_mem _ ha')) hxs
    unfold contents at ih ⊢
    rw [List.filterMap_cons_none (readAttribute_content (hne a (List.mem_cons_self ..)) hx), ih]

namespace FragmentedFile

section
variable {drive : DriveInfo} {b : ByteMap} (f : FragmentedFile drive b)

def attrs : List (UInt32 × Nat) := f.pre ++ (DATA, f.attr) :: f.post

def attributes : List Attribute :=
  f.before ++ .data false (.nonResident f.realSize (assigned 0 f.runs)) :: f.after

theorem contents_eq : contents f.attributes = [.nonResident f.realSize (assigned 0 f.runs)] := by
  have hpre := contents_of_no_data (fun a ha => f.only a (List.mem_append_left _ ha)) f.before_eq
  have hpost := contents_of_no_data (fun a ha => f.only a (List.mem_append_right _ ha)) f.after_eq
  unfold contents at hpre hpost
  simp [contents, attributes, List.filterMap_append, hpre, hpost, Attribute.content]

theorem lastName_eq : lastName f.attributes = lastName (f.before ++ f.after) := by
  simp [lastName, attributes, List.filterMap_append, List.filterMap_cons, Attribute.name]

theorem content_eq (fileId : UInt16) : (storeAll fileId f.attributes).fileInfo.content =
    (f.realSize, true, (UInt64.ofInt (lastLCN 0 f.runs), UInt64.ofNat (lastLength f.runs)), []) := by
  have hlast := @assigned_getLast? f.runs 0 f.runs_ne
  have hne : assigned 0 f.runs ≠ [] := by
    intro h
    rw [h] at hlast
    cases hlast
  rw [storeAll_content, f.contents_eq]
  simp [lastOf, Content.size, Content.residency, Content.lastRun, Content.bytes, hne, hlast]

theorem valid_iff (fileId : UInt16) : validateFileInfo (storeAll fileId f.attributes).fileInfo = true ↔
    f.realSize ≠ 0 ∧ lastLCN 0 f.runs ≠ 0 := by
  have hcontent := f.content_eq fileId
  simp only [FileInfo.content, Prod.mk.injEq] at hcontent
  obtain ⟨hsize, hflag, ⟨hcluster, hlength⟩, -⟩ := hcontent
  have hlen := lastLength_bounds f.runs_ne f.wellFormed
  have hlength_ne : UInt64.ofNat (lastLength f.runs) ≠ 0 := by
    intro h
    have hnat := congrArg UInt64.toNat h
    rw [UInt64.toNat_ofNat_of_lt' hlen.2] at hnat
    exact absurd hnat (Nat.ne_of_gt hlen.1)
  have hlcn := lastLCN_inside f.wellFormed f.inside (Int.le_refl 0) (Int.natCast_nonneg _)
  have hcluster_ne : UInt64.ofInt (lastLCN 0 f.runs) = 0 ↔ lastLCN 0 f.runs = 0 := by
    obtain ⟨n, hn⟩ := Int.eq_ofNat_of_zero_le hlcn.1
    have hlast := drive.lastCluster.toNat_lt
    rw [hn] at hlcn ⊢
    rw [ofInt_natCast, ← UInt64.toNat_inj, UInt64.toNat_ofNat_of_lt' (show n < 2 ^ 64 by omega)]
    exact Int.natCast_eq_zero.symm
  rw [validateFileInfo_iff, storeAll_fileName, f.lastName_eq, hsize, hflag, hcluster, hlength]
  simp [f.named, hlength_ne, hcluster_ne]

end

section
variable {drive : DriveInfo} {buffer : List UInt8} (f : FragmentedFile drive (ofBuffer buffer))
  (hlen : buffer.length = drive.mftRecordSize.toNat)
include hlen

theorem runs_lt_rounds : f.runs.length < drive.runRounds := by
  have hbytes : ∀ runs : List Run, runs.length < (runListBytes runs).length := by
    intro runs
    unfold runListBytes
    induction runs with
    | nil => simp
    | cons r runs ih =>
      simp only [List.flatMap_cons, List.length_append, List.length_cons, Run.bytes] at ih ⊢
      omega
  have hne : runListBytes f.runs ≠ [] := by simp [runListBytes]
  have hfit := f.runList.le_length hne
  have hruns := hbytes f.runs
  unfold DriveInfo.runRounds
  omega

variable (hspc : drive.bootSector.sectorsPerCluster ≠ 0)
include hspc

theorem readAttributes_eq : readAttributes drive (ofBuffer buffer) f.attrs =
    if f.runs.any Run.isWideNegative then .error .undefinedShift else .ok f.attributes := by
  have hlcn : (0 : UInt64) = UInt64.ofInt 0 := rfl
  have hstarts := f.inside.startsInside f.wellFormed (Int.le_refl 0) (Int.natCast_nonneg _)
  have hruns := decodeRuns_of_holds hspc f.runs drive.runRounds _ 0 f.runList f.wellFormed hstarts (f.runs_lt_rounds hlen)
  obtain ⟨flag, hflag, hne⟩ := f.nonResident
  have hbefore := f.before_eq
  have hafter := f.after_eq
  unfold readAttributes at hbefore hafter
  unfold readAttributes attrs
  rw [List.mapM_append, hbefore, List.mapM_cons, hafter]
  simp only [ok_bind, readAttribute, show DATA ≠ FILE_NAME by decide, if_false, if_true, readContent, hflag, hne,
    f.realSize_eq, f.dataRunOffset_eq, hlcn, hruns, f.unnamed]
  cases f.runs.any Run.isWideNegative with
  | true => rfl
  | false => rfl

/-- The record is listed, unless the size or the last run's cluster is zero. -/
theorem processMftRecord_eq {rounds : Nat} (hr : f.attrs.length < rounds) (st : ScanState) :
    processMftRecord drive (ofBuffer buffer) rounds st =
      if f.runs.any Run.isWideNegative then .error .undefinedShift
      else .ok (if validateFileInfo (storeAll st.fileId f.attributes).fileInfo then
        addToRecoveryList (storeAll st.fileId f.attributes).fileInfo st else st) := by
  rw [NTFS.processMftRecord_eq f.record hr]
  have h := f.readAttributes_eq hlen hspc
  unfold attrs at h
  rw [h]
  cases f.runs.any Run.isWideNegative with
  | true => rfl
  | false =>
    rw [if_neg (by simp), if_neg (by simp), ok_bind, finishRecord_storeAll]
    rfl

end

end FragmentedFile

/-! ## Telling clusters apart -/

def markedDevice (marks : UInt64 → Bool) : Device where
  readSector sector size := some (List.replicate size.toNat (if marks sector then 1 else 0))
  getBytesPerSector := 512
  getTotalMftRecords := 0
  length_of_read := by rintro _ _ _ ⟨⟩; simp

def markOf (drive : DriveInfo) (marks : UInt64 → Bool) : Option Nat → UInt8
  | some c => if marks (UInt64.ofNat (c * drive.bootSector.sectorsPerCluster.toNat)) then 1 else 0
  | none => 0

theorem copiedClusters_getElem? {runs : List Run} {j : Nat} (hj : j < lastLength runs) :
    (copiedClusters runs)[j]? = some (some ((lastLCN 0 runs).toNat + j)) := by
  simp [copiedClusters, hj]

section
variable {drive : DriveInfo} (hspc : 0 < drive.bootSector.sectorsPerCluster.toNat)
include hspc

theorem cluster_eq_of_sector_eq {c d : Nat} (hc : c ≤ drive.lastCluster.toNat) (hd : d ≤ drive.lastCluster.toNat)
    (h : UInt64.ofNat (c * drive.bootSector.sectorsPerCluster.toNat) =
      UInt64.ofNat (d * drive.bootSector.sectorsPerCluster.toNat)) : c = d := by
  have hlast : drive.lastCluster.toNat * drive.bootSector.sectorsPerCluster.toNat < 2 ^ 64 := by
    unfold DriveInfo.lastCluster
    rw [UInt64.toNat_div, UInt8.toNat_toUInt64]
    exact Nat.lt_of_le_of_lt (Nat.div_mul_le_self ..) (UInt64.toNat_lt _)
  have hlt : ∀ {n}, n ≤ drive.lastCluster.toNat → n * drive.bootSector.sectorsPerCluster.toNat < 2 ^ 64 := fun hn =>
    Nat.lt_of_le_of_lt (Nat.mul_le_mul_right _ hn) hlast
  have hnat := congrArg UInt64.toNat h
  rw [UInt64.toNat_ofNat_of_lt' (hlt hc), UInt64.toNat_ofNat_of_lt' (hlt hd)] at hnat
  exact Nat.eq_of_mul_eq_mul_right hspc hnat

theorem sectorsPerCluster_ne : drive.bootSector.sectorsPerCluster ≠ 0 := by
  intro h
  rw [h] at hspc
  exact absurd hspc (by decide)

variable (hbps : 0 < drive.bootSector.bytesPerSector.toNat)
include hbps

theorem clusterSize_pos : 0 < drive.clusterSize := Nat.mul_pos hspc hbps

theorem head_clusterData (marks : UInt64 → Bool) (c : Option Nat) :
    (clusterData ⟨markedDevice marks, drive⟩ c)[0]? = some (markOf drive marks c) := by
  cases c with
  | none =>
    have hpos := clusterSize_pos hspc hbps
    simp [clusterData, markOf, hpos]
  | some c =>
    have hchunk : ∀ i ∈ List.range drive.bootSector.sectorsPerCluster.toNat,
        (sectorData (Volume.readSector ⟨markedDevice marks, drive⟩)
          (UInt64.ofNat (c * drive.bootSector.sectorsPerCluster.toNat + i))).length =
          drive.bootSector.bytesPerSector.toNat := fun i _ => length_sectorData ⟨markedDevice marks, drive⟩ rfl
    have h := getElem?_flatMap_chunks hbps hchunk 0
    rw [Nat.zero_mul, List.getElem?_range hspc] at h
    refine h.trans ?_
    simp [sectorData, Volume.readSector, markedDevice, Volume.bytesPerSector, hbps, markOf]

theorem marks_eq_of_written_eq {marks : UInt64 → Bool} {cs ds : List (Option Nat)} {size j : Nat}
    (h : (cs.flatMap (clusterData ⟨markedDevice marks, drive⟩)).take size =
      (ds.flatMap (clusterData ⟨markedDevice marks, drive⟩)).take size) (hj : j * drive.clusterSize < size) :
    cs[j]?.map (markOf drive marks) = ds[j]?.map (markOf drive marks) := by
  have hsize : ∀ c, (clusterData ⟨markedDevice marks, drive⟩ c).length = drive.clusterSize := fun c =>
    length_clusterData ⟨markedDevice marks, drive⟩ fun _ _ _ _ => rfl
  have hheads := heads_of_take_eq (clusterSize_pos hspc hbps) (fun c _ => hsize c) (fun c _ => hsize c) h hj
  simp only [head_clusterData hspc hbps] at hheads
  rw [Option.map_eq_bind, Option.map_eq_bind]
  exact hheads

variable {runs : List Run} (hwf : ∀ r ∈ runs, r.WellFormed) (hin : RunsInside drive.lastCluster.toNat 0 runs)
include hwf hin

/-- When the same is written on every such device, the last run's first clusters are the file's. -/
theorem clusters_eq_of_written_eq {size : Nat}
    (h : ∀ marks, ((copiedClusters runs).flatMap (clusterData ⟨markedDevice marks, drive⟩)).take size =
      ((clustersOf 0 runs).flatMap (clusterData ⟨markedDevice marks, drive⟩)).take size) :
    ∀ j, j * drive.clusterSize < size → (clustersOf 0 runs)[j]? = (copiedClusters runs)[j]? := by
  intro j
  -- up to `j` the copied clusters are those of the file, so the `j`-th one starts inside the volume
  induction j using Nat.strongRecOn with
  | ind j ih =>
    intro hj
    have hones := marks_eq_of_written_eq hspc hbps (h fun _ => true) hj
    by_cases hlt : j < lastLength runs
    · have hcopied := copiedClusters_getElem? hlt
      rw [hcopied] at hones ⊢
      cases hfile : (clustersOf 0 runs)[j]? with
      | none => simp [hfile] at hones
      | some x =>
        cases x with
        | none => simp [hfile, markOf] at hones
        | some c =>
          have hc := clustersOf_inside hin (List.mem_of_getElem? hfile)
          have hstart : (lastLCN 0 runs).toNat + j ≤ drive.lastCluster.toNat := by
            cases j with
            | zero =>
              have hlcn := lastLCN_inside hwf hin (Int.le_refl 0) (Int.natCast_nonneg _)
              omega
            | succ k =>
              have hk := ih k (Nat.lt_succ_self k) (Nat.lt_of_le_of_lt (Nat.mul_le_mul_right _ (Nat.le_succ k)) hj)
              rw [copiedClusters_getElem? (Nat.lt_of_succ_lt hlt)] at hk
              exact clustersOf_inside hin (List.mem_of_getElem? hk)
          have hmark := marks_eq_of_written_eq hspc hbps
            (h fun s => s == UInt64.ofNat (c * drive.bootSector.sectorsPerCluster.toNat)) hj
          rw [hcopied, hfile] at hmark
          have hsector : UInt64.ofNat (((lastLCN 0 runs).toNat + j) * drive.bootSector.sectorsPerCluster.toNat) =
              UInt64.ofNat (c * drive.bootSector.sectorsPerCluster.toNat) := by
            simpa [markOf] using hmark
          rw [cluster_eq_of_sector_eq hspc hstart (Nat.le_of_lt hc) hsector]
    · have hcopied : (copiedClusters runs)[j]? = none := by simp [copiedClusters, Nat.le_of_not_lt hlt]
      rw [hcopied] at hones ⊢
      cases hfile : (clustersOf 0 runs)[j]? with
      | none => rfl
      | some x => simp [hfile] at hones

end

/-! ## When the file is restored -/

def DriveInfo.clustersFor (drive : DriveInfo) (size : Nat) : Nat :=
  (size + drive.clusterSize - 1) / drive.clusterSize

/-- No run offset is negative in eight bytes, the last run's cluster is not 0, and the file's
bytes lie in its first clusters. -/
structure LastRunSuffices (drive : DriveInfo) (runs : List Run) (realSize : UInt64) : Prop where
  defined : ∀ r ∈ runs, r.isWideNegative = false
  start : realSize ≠ 0 → lastLCN 0 runs ≠ 0
  clusters : (clustersOf 0 runs).take (drive.clustersFor realSize.toNat) =
    (copiedClusters runs).take (drive.clustersFor realSize.toNat)

/-- Scanning the record lists the file and recovering it writes its data, on every device that
can read its clusters. An empty file is not listed. -/
def FragmentedFile.Restored {drive : DriveInfo} {buffer : List UInt8} (f : FragmentedFile drive (ofBuffer buffer)) :
    Prop :=
  ∀ (device : Device), (∀ c, some c ∈ clustersOf 0 f.runs → readable ⟨device, drive⟩ c) →
    ∀ (rounds : Nat) (st : ScanState), f.attrs.length < rounds →
      ∃ st', processMftRecord drive (ofBuffer buffer) rounds st = .ok st' ∧
        (f.realSize ≠ 0 → ∃ item, st'.recoveryList = st.recoveryList ++ [item] ∧ item.nonResident = true ∧
          ∀ (host : Host) (run : RunState host) (outputPath : Path), host.canCreate outputPath = true →
            (recoverNonResidentFile ⟨device, drive⟩ (validateClusterChain item)
              { expectedClusters := expectedClusters ⟨device, drive⟩ item.fileSize } outputPath item.fileSize
              run).1.1.files.read outputPath = some (.data (fileData ⟨device, drive⟩ f.runs f.realSize)))

section
variable {drive : DriveInfo} {buffer : List UInt8} (f : FragmentedFile drive (ofBuffer buffer))

theorem item_written (fileId : UInt16) (hne : f.realSize ≠ 0) (device : Device) {host : Host} (run : RunState host)
    {outputPath : Path} (hcreate : host.canCreate outputPath = true) :
    (recoverNonResidentFile ⟨device, drive⟩ (validateClusterChain (storeAll fileId f.attributes).fileInfo)
      { expectedClusters := expectedClusters ⟨device, drive⟩ (storeAll fileId f.attributes).fileInfo.fileSize }
      outputPath (storeAll fileId f.attributes).fileInfo.fileSize run).1.1.files.read outputPath =
      some (.data (((copiedClusters f.runs).flatMap (clusterData ⟨device, drive⟩)).take f.realSize.toNat)) := by
  have hcontent := f.content_eq fileId
  simp only [FileInfo.content, Prod.mk.injEq] at hcontent
  obtain ⟨hsize, -, ⟨hcluster, hlength⟩, -⟩ := hcontent
  have hlcn := lastLCN_inside f.wellFormed f.inside (Int.le_refl 0) (Int.natCast_nonneg _)
  have hstart : UInt64.ofInt (lastLCN 0 f.runs) = UInt64.ofNat (lastLCN 0 f.runs).toNat := by
    rw [← ofInt_natCast, Int.toNat_of_nonneg hlcn.1]
  have hruns : (storeAll fileId f.attributes).fileInfo.runLength.toNat = lastLength f.runs := by
    rw [hlength, UInt64.toNat_ofNat_of_lt' (lastLength_bounds f.runs_ne f.wellFormed).2]
  have hpos : 0 < f.realSize := by
    rw [UInt64.lt_iff_toNat_lt]
    exact Nat.pos_of_ne_zero fun h => hne (UInt64.toNat_inj.mp h)
  rw [hsize]
  exact written_eq ⟨device, drive⟩ (hcluster.trans hstart) hruns hpos rfl rfl hcreate

variable (hlen : buffer.length = drive.mftRecordSize.toNat) (hspc : 0 < drive.bootSector.sectorsPerCluster.toNat)
  (hbps : 0 < drive.bootSector.bytesPerSector.toNat)
include hlen hspc hbps

theorem suffices_of_restored (h : f.Restored) : LastRunSuffices drive f.runs f.realSize := by
  have hspc_ne := sectorsPerCluster_ne hspc
  have hpos := clusterSize_pos hspc hbps
  have hscan := h (markedDevice fun _ => true) (fun _ _ _ _ => rfl) (f.attrs.length + 1) {} (Nat.lt_succ_self _)
  rw [f.processMftRecord_eq hlen hspc_ne (Nat.lt_succ_self _)] at hscan
  obtain ⟨st', hst', hlisted⟩ := hscan
  have hdefined : f.runs.any Run.isWideNegative = false := by
    cases hwide : f.runs.any Run.isWideNegative with
    | true => simp [hwide] at hst'
    | false => rfl
  have hstart : f.realSize ≠ 0 → lastLCN 0 f.runs ≠ 0 := by
    intro hne h0
    have hinvalid := mt (f.valid_iff 1).mp fun hv => hv.2 h0
    rw [hdefined, if_neg (by simp), if_neg hinvalid] at hst'
    cases hst'
    obtain ⟨item, hitem, -⟩ := hlisted hne
    simp at hitem
  have hwritten : f.realSize ≠ 0 → ∀ marks,
      ((copiedClusters f.runs).flatMap (clusterData ⟨markedDevice marks, drive⟩)).take f.realSize.toNat =
        ((clustersOf 0 f.runs).flatMap (clusterData ⟨markedDevice marks, drive⟩)).take f.realSize.toNat := by
    intro hne marks
    obtain ⟨st', hst', hlisted⟩ := h (markedDevice marks) (fun _ _ _ _ => rfl) (f.attrs.length + 1) {}
      (Nat.lt_succ_self _)
    rw [f.processMftRecord_eq hlen hspc_ne (Nat.lt_succ_self _), hdefined, if_neg (by simp),
      if_pos ((f.valid_iff _).mpr ⟨hne, hstart hne⟩)] at hst'
    cases hst'
    obtain ⟨item, hitem, -, hdata⟩ := hlisted hne
    have hinfo : item = (storeAll 1 f.attributes).fileInfo := by simpa [addToRecoveryList] using hitem.symm
    have hfile := hdata plainHost { files := ∅ } ⟨[], []⟩ rfl
    rw [hinfo, item_written f 1 hne _ _ rfl] at hfile
    simpa [fileData] using hfile
  refine ⟨fun r hr => by simpa using List.any_eq_false.mp hdefined r hr, hstart, ?_⟩
  apply List.ext_getElem?
  intro j
  rw [List.getElem?_take, List.getElem?_take]
  by_cases hj : j < drive.clustersFor f.realSize.toNat
  · have hbytes := (lt_ceil_iff hpos).mp hj
    have hne : f.realSize ≠ 0 := by
      intro h0
      rw [h0] at hbytes
      exact absurd hbytes (Nat.not_lt_zero _)
    rw [if_pos hj, if_pos hj]
    exact clusters_eq_of_written_eq hspc hbps f.wellFormed f.inside (hwritten hne) j hbytes
  · rw [if_neg hj, if_neg hj]

theorem restored_of_suffices (h : LastRunSuffices drive f.runs f.realSize) : f.Restored := by
  obtain ⟨hdefined, hstart, hclusters⟩ := h
  have hspc_ne := sectorsPerCluster_ne hspc
  have hpos := clusterSize_pos hspc hbps
  intro device hread rounds st hr
  have hany : f.runs.any Run.isWideNegative = false := List.any_eq_false.mpr fun r hr' => by simp [hdefined r hr']
  rw [f.processMftRecord_eq hlen hspc_ne hr, hany, if_neg (by simp)]
  refine ⟨_, rfl, fun hne => ⟨(storeAll st.fileId f.attributes).fileInfo, ?_, ?_, ?_⟩⟩
  · rw [if_pos ((f.valid_iff st.fileId).mpr ⟨hne, hstart hne⟩)]
    rfl
  · have hcontent := f.content_eq st.fileId
    simp only [FileInfo.content, Prod.mk.injEq] at hcontent
    exact hcontent.2.1
  · intro host run outputPath hcreate
    have hroom : f.realSize.toNat ≤ drive.clustersFor f.realSize.toNat * drive.clusterSize := le_ceil_mul hpos _
    have hlength : ∀ c ∈ (clustersOf 0 f.runs).take (drive.clustersFor f.realSize.toNat),
        (clusterData ⟨device, drive⟩ c).length = drive.clusterSize := fun c hc =>
      length_clusterData ⟨device, drive⟩ fun n hn => hread n (hn ▸ List.mem_of_mem_take hc)
    rw [item_written f st.fileId hne device run hcreate, fileData, take_flatMap_chunks hlength hroom, hclusters,
      take_flatMap_chunks (hclusters ▸ hlength) hroom]

/-- A fragmented file is restored if and only if its last run suffices. -/
theorem restored_iff : f.Restored ↔ LastRunSuffices drive f.runs f.realSize :=
  ⟨suffices_of_restored f hlen hspc hbps, restored_of_suffices f hlen hspc hbps⟩

end

/-! ## Small files -/

def runsRecord (realSize : UInt64) (runs : List Run) : List UInt8 :=
  rawRecord (rawFileName 0x41 ++ rawNonResident [] realSize.toNat (runListBytes runs))

def runsFile (realSize : UInt64) (runs : List Run) (hne : runs ≠ []) (hwf : ∀ r ∈ runs, r.WellFormed)
    (hin : RunsInside 16 0 runs)
    (hwalk : visited smallDrive (ofBuffer (runsRecord realSize runs)) 3 56 = .ok [(FILE_NAME, 56), (DATA, 148)])
    (hname : readAttributes smallDrive (ofBuffer (runsRecord realSize runs)) [(FILE_NAME, 56)] =
      .ok [.fileName (some [0x41])])
    (hsize : readU64 (ofBuffer (runsRecord realSize runs)) 196 = .ok realSize)
    (hruns : Holds (ofBuffer (runsRecord realSize runs)) 212 (runListBytes runs)) :
    FragmentedFile smallDrive (ofBuffer (runsRecord realSize runs)) where
  pre := [(FILE_NAME, 56)]
  attr := 148
  post := []
  before := [.fileName (some [0x41])]
  after := []
  realSize := realSize
  dataRunOffset := 64
  runs := runs
  record := ⟨rfl, ⟨0, rfl, rfl⟩, ⟨56, rfl, visits_of_visited 3 56 _ hwalk⟩⟩
  only := by decide
  before_eq := hname
  after_eq := rfl
  named := by decide
  unnamed := rfl
  nonResident := ⟨1, rfl, by decide⟩
  realSize_eq := hsize
  dataRunOffset_eq := rfl
  runList := hruns
  runs_ne := hne
  wellFormed := hwf
  inside := hin

def oneRunFile : FragmentedFile smallDrive (ofBuffer (runsRecord 600 [⟨1, 2, 1, 3⟩])) :=
  runsFile 600 [⟨1, 2, 1, 3⟩] (by decide) (by decide) (by decide) (by decide +kernel) (by decide +kernel)
    (by decide +kernel) (by decide +kernel)

theorem oneRunFile_restored : oneRunFile.Restored :=
  (restored_iff oneRunFile (by decide +kernel) (by decide) (by decide)).mpr
    ⟨by decide, fun _ => by decide, by decide⟩

def twoRunsFile : FragmentedFile smallDrive (ofBuffer (runsRecord 1024 [⟨1, 1, 1, 3⟩, ⟨1, 1, 1, 2⟩])) :=
  runsFile 1024 [⟨1, 1, 1, 3⟩, ⟨1, 1, 1, 2⟩] (by decide) (by decide) (by decide) (by decide +kernel)
    (by decide +kernel) (by decide +kernel) (by decide +kernel)

theorem two_runs_not_restored :
    ¬ ∀ (drive : DriveInfo) (buffer : List UInt8) (f : FragmentedFile drive (ofBuffer buffer)),
      buffer.length = drive.mftRecordSize.toNat → 0 < drive.bootSector.sectorsPerCluster.toNat →
      0 < drive.bootSector.bytesPerSector.toNat → f.Restored := by
  intro h
  have hlen : (runsRecord 1024 [⟨1, 1, 1, 3⟩, ⟨1, 1, 1, 2⟩]).length = smallDrive.mftRecordSize.toNat := by
    decide +kernel
  have hfile := h smallDrive _ twoRunsFile hlen (by decide) (by decide)
  have hclusters := (suffices_of_restored twoRunsFile hlen (by decide) (by decide) hfile).clusters
  -- the file's first cluster is 3, the copied one 5
  exact absurd hclusters (by decide)

end DataRecovery.NTFS
