import DataRecovery.Footprint
import DataRecovery.NTFS.MftReads

/-!
# The sectors an NTFS run depends on

The scan depends on the records of the MFT, and the work on a file on the clusters of its last
run. A resident file is recovered from its record alone.
-/

namespace DataRecovery.NTFS

def Volume.on (v : Volume) (device : Device) : Volume := { v with device }

/-- The other drive has as many records, and the same content in these sectors. -/
structure Volume.Agrees (v : Volume) (device : Device) (reads : UInt64 → Prop) : Prop where
  totalMftRecords : device.getTotalMftRecords = v.device.getTotalMftRecords
  readSector : ∀ sector, reads sector → (v.on device).readSector sector = v.readSector sector

section
variable (v : Volume) (config : Config) (rounds : Nat)

inductive ScanReads : UInt64 → Prop
  | record {sectors index i} : getSectorsPerMftRecord v = .ok sectors → index < v.device.getTotalMftRecords.toNat →
      i < sectors.toNat → ScanReads (v.mftSector + UInt64.ofNat index * sectors.toUInt64 + UInt64.ofNat i)

inductive FileReads (info : FileInfo) : UInt64 → Prop
  | data {c sector} : info.nonResident = true → c ∈ validateClusterChain info → sector ∈ v.sectorsOf c →
      FileReads info sector

variable {v} {device : Device}

theorem readMftSectors_on {currentSector : UInt64} : ∀ {count i : Nat} {mftBuffer : List UInt8},
    (∀ k < count, (v.on device).readSector (currentSector + UInt64.ofNat (i + k)) =
      v.readSector (currentSector + UInt64.ofNat (i + k))) →
    readMftSectors (v.on device) currentSector count i mftBuffer = readMftSectors v currentSector count i mftBuffer
  | 0, _, _, _ => rfl
  | count + 1, i, mftBuffer, h => by
    have hrest : ∀ buffer : List UInt8, readMftSectors (v.on device) currentSector count (i + 1) buffer =
        readMftSectors v currentSector count (i + 1) buffer := fun buffer =>
      readMftSectors_on fun k hk => by
        rw [Nat.add_assoc, Nat.add_comm 1 k]
        exact h (k + 1) (Nat.succ_lt_succ hk)
    have hfirst := h 0 (Nat.succ_pos count)
    rw [Nat.add_zero] at hfirst
    unfold readMftSectors
    rw [hfirst]
    simp only [hrest]
    rfl

theorem scanRecords_on {sectors : UInt32} {limit : Nat}
    (h : ∀ index < limit, ∀ i < sectors.toNat,
      (v.on device).readSector (v.mftSector + UInt64.ofNat index * sectors.toUInt64 + UInt64.ofNat i) =
        v.readSector (v.mftSector + UInt64.ofNat index * sectors.toUInt64 + UInt64.ofNat i)) :
    ∀ {count index : Nat} {mftBuffer : List UInt8} {st : ScanState}, index + count ≤ limit →
      scanRecords (v.on device) rounds v.mftSector sectors count (UInt64.ofNat index) mftBuffer st =
        scanRecords v rounds v.mftSector sectors count (UInt64.ofNat index) mftBuffer st
  | 0, _, _, _, _ => rfl
  | count + 1, index, mftBuffer, st, hle => by
    have hnext : UInt64.ofNat index + 1 = UInt64.ofNat (index + 1) := (UInt64.ofNat_add index 1).symm
    have hread : readMftRecord (v.on device) sectors (v.mftSector + UInt64.ofNat index * sectors.toUInt64) mftBuffer =
        readMftRecord v sectors (v.mftSector + UInt64.ofNat index * sectors.toUInt64) mftBuffer := by
      refine readMftSectors_on fun k hk => ?_
      rw [Nat.zero_add]
      exact h index (by omega) k hk
    have hrest : ∀ (buffer : List UInt8) (st : ScanState),
        scanRecords (v.on device) rounds v.mftSector sectors count (UInt64.ofNat (index + 1)) buffer st =
          scanRecords v rounds v.mftSector sectors count (UInt64.ofNat (index + 1)) buffer st :=
      fun _ _ => scanRecords_on h (by omega)
    unfold scanRecords
    dsimp only
    rw [hread, hnext]
    simp only [hrest]
    rfl

/-- The scan on the other drive lists the same files. -/
theorem scanMFT_on (h : v.Agrees device (ScanReads v)) (st : ScanState) :
    scanMFT (v.on device) rounds st = scanMFT v rounds st := by
  have hsame : getSectorsPerMftRecord (v.on device) = getSectorsPerMftRecord v := rfl
  have hvalid : (v.on device).isValidSector ((v.on device).clusterToSector (v.on device).driveInfo.bootSector.mftCluster) =
      v.isValidSector (v.clusterToSector v.driveInfo.bootSector.mftCluster) := rfl
  have htotal : (v.on device).device.getTotalMftRecords = v.device.getTotalMftRecords := h.totalMftRecords
  unfold scanMFT
  dsimp only
  rw [hsame, htotal, hvalid]
  split
  · rfl
  · cases hsectors : getSectorsPerMftRecord v with
    | error fault => rfl
    | ok sectors =>
      have hreads : ∀ index < v.device.getTotalMftRecords.toNat, ∀ i < sectors.toNat,
          (v.on device).readSector (v.mftSector + UInt64.ofNat index * sectors.toUInt64 + UInt64.ofNat i) =
            v.readSector (v.mftSector + UInt64.ofNat index * sectors.toUInt64 + UInt64.ofNat i) :=
        fun index hindex i hi => h.readSector _ (.record hsectors hindex hi)
      exact scanRecords_on rounds hreads (Nat.le_of_eq (Nat.zero_add _))

theorem recoverNonResidentFile_on {host : Host} {clusterChain : List UInt64}
    (h : ∀ c ∈ clusterChain, ∀ sector ∈ v.sectorsOf c, (v.on device).readSector sector = v.readSector sector)
    (status : RecoveryStatus) (outputPath : Path) (expectedSize : UInt64) (st : RunState host) :
    recoverNonResidentFile v clusterChain status outputPath expectedSize st =
      recoverNonResidentFile (v.on device) clusterChain status outputPath expectedSize st := by
  have hcopy := fun st : CopyState => @copyChain_congr _ _ v.bytesPerSector.toUInt64 expectedSize _ _ _ st h
  unfold recoverNonResidentFile
  rw [← hcopy]
  rfl

theorem processFileForRecovery_on {host : Host} {info : FileInfo} (h : v.Agrees device (FileReads v info)) :
    @processFileForRecovery v config host info = processFileForRecovery (v.on device) config info := by
  funext st
  have hcopy := fun (hnonResident : info.nonResident = true) (status : RecoveryStatus) (outputPath : Path) =>
    @recoverNonResidentFile_on v device host (validateClusterChain info)
      (fun c hc sector hsector => h.readSector _ (.data hnonResident hc hsector)) status outputPath info.fileSize st
  unfold processFileForRecovery
  dsimp only
  split
  · rfl
  · split
    · rfl
    · split
      · rename_i hzero
        exact (if_pos hzero).symm
      · rename_i hpos
        refine Eq.trans ?_ (if_neg hpos).symm
        split
        · split
          · rename_i hnonResident
            exact congrArg Prod.fst (hcopy hnonResident _ _)
          · rfl
        · rfl

variable (v)

def RunReads (sector : UInt64) : Prop :=
  ScanReads v sector ∨ ∃ scan, scanMFT v rounds {} = .ok scan ∧ ∃ info ∈ scan.recoveryList, FileReads v info sector

theorem startRecovery_on (h : v.Agrees device (RunReads v rounds)) (host : Host) (driveType : DriveType)
    (input : List UInt8) (st : RunState host) :
    startRecovery host config (v.on device) rounds driveType input st =
      startRecovery host config v rounds driveType input st := by
  refine (Engine.startRecovery_congr ?_ ?_ ?_ driveType input st).symm
  · rfl
  · unfold engine
    dsimp only
    rw [scanMFT_on rounds ⟨h.totalMftRecords, fun sector hsector => h.readSector sector (.inl hsector)⟩]
  · intro recoveryList hlist info hinfo
    obtain ⟨scan, hscan, rfl⟩ := engine_scan hlist
    exact processFileForRecovery_on config
      ⟨h.totalMftRecords, fun sector hsector => h.readSector sector (.inr ⟨scan, hscan, info, hinfo, hsector⟩)⟩

end

end DataRecovery.NTFS
