import DataRecovery.Clusters

/-! # FAT32 volumes: boot sector, geometry and cluster operations -/

namespace DataRecovery.FAT32

structure BootSector where
  bytesPerSector : UInt16
  sectorsPerCluster : UInt8
  reservedSectorCount : UInt16
  numFATs : UInt8
  rootEntryCount : UInt16
  totalSectors16 : UInt16
  totalSectors32 : UInt32
  fatSize32 : UInt32
  rootCluster : UInt32
  fileSystemType : List UInt8

/-- The packed layout of the first sector. -/
def BootSector.ofBytes (b : List UInt8) : BootSector where
  bytesPerSector := le16 b 11
  sectorsPerCluster := b.getD 13 0
  reservedSectorCount := le16 b 14
  numFATs := b.getD 16 0
  rootEntryCount := le16 b 17
  totalSectors16 := le16 b 19
  totalSectors32 := le32 b 32
  fatSize32 := le32 b 36
  rootCluster := le32 b 44
  fileSystemType := slice b 82 8

structure DriveInfo where
  bootSector : BootSector
  fatStartSector : UInt32
  dataStartSector : UInt32
  rootDirCluster : UInt32
  maxClusterCount : UInt32

namespace BootSector
variable (b : BootSector)

def fatSectors : UInt32 := b.numFATs.toUInt32 * b.fatSize32

def rootDirSectors : UInt32 :=
  (b.rootEntryCount.toUInt32 * 32 + (b.bytesPerSector.toUInt32 - 1)) / b.bytesPerSector.toUInt32

def totalSectors : UInt32 :=
  if b.totalSectors32 ≠ 0 then b.totalSectors32 else b.totalSectors16.toUInt32

def dataSectors : UInt32 :=
  b.totalSectors - (b.reservedSectorCount.toUInt32 + b.fatSectors + b.rootDirSectors)

end BootSector

/-- The geometry `readBootSector` derives, all of it in 32-bit arithmetic. -/
def DriveInfo.ofBootSector (b : BootSector) : DriveInfo where
  bootSector := b
  fatStartSector := b.reservedSectorCount.toUInt32
  dataStartSector := b.reservedSectorCount.toUInt32 + b.fatSectors
  rootDirCluster := b.rootCluster
  maxClusterCount := b.dataSectors / b.sectorsPerCluster.toUInt32

def readBootSector (device : Device) : Except Abort DriveInfo :=
  let bytesPerSector := device.getBytesPerSector
  if bytesPerSector = 0 then .error (.exception "Invalid bytes per sector")
  else
    match device.readSector 0 bytesPerSector with
    | none => .error (.exception "Failed to read FAT32 boot sector")
    | some buffer =>
      -- the buffer has eight zeroed bytes for each byte of the sector
      if 8 * bytesPerSector.toNat < 512 then .error .undefined
      else
        let b := BootSector.ofBytes (buffer ++ List.replicate (7 * bytesPerSector.toNat) 0)
        if b.fileSystemType.take 5 ≠ "FAT32".toList.map (fun c => UInt8.ofNat c.toNat) then
          .error (.exception "Not a valid FAT32 volume")
        else if b.bytesPerSector = 0 ∨ b.sectorsPerCluster = 0 then .error .undefined
        else .ok (.ofBootSector b)

/-- An opened volume: the drive, its boot sector, and the memory behind a sector
buffer. `readBootSector` divides by both sizes, so they are positive. -/
structure Volume where
  device : Device
  bootSector : BootSector
  pastEnd : Nat → UInt8
  bytesPerSector_pos : 0 < bootSector.bytesPerSector
  sectorsPerCluster_pos : 0 < bootSector.sectorsPerCluster

def MIN_DATA_CLUSTER : UInt32 := 2
def BAD_CLUSTER : UInt32 := 0x0FFFFFF7

namespace Volume
variable (v : Volume)

def driveInfo : DriveInfo := .ofBootSector v.bootSector

def bytesPerSector : UInt32 := v.bootSector.bytesPerSector.toUInt32

def sectorsPerCluster : UInt32 := v.bootSector.sectorsPerCluster.toUInt32

def readSector (sector : UInt64) : Option (List UInt8) := v.device.readSector sector v.bytesPerSector

def isValidCluster (cluster : UInt32) : Bool := clusterInRange v.driveInfo.maxClusterCount BAD_CLUSTER cluster

def sanitizeCluster (cluster : UInt32) : UInt32 :=
  if cluster = 0 ∨ cluster < MIN_DATA_CLUSTER ∨ BAD_CLUSTER ≤ cluster then 0
  else if v.driveInfo.maxClusterCount < cluster then 0
  else cluster

def clusterToSector (cluster : UInt32) : UInt32 :=
  v.driveInfo.dataStartSector + (cluster - 2) * v.sectorsPerCluster

def getNextCluster (cluster : UInt32) : UInt32 :=
  fatLookup v.readSector v.driveInfo.fatStartSector v.bytesPerSector v.pastEnd cluster

def sectorsOf (cluster : UInt32) : List UInt64 :=
  (List.range v.bootSector.sectorsPerCluster.toNat).map fun i =>
    (v.clusterToSector cluster).toUInt64 + UInt64.ofNat i

theorem isValidCluster_iff {c : UInt32} :
    v.isValidCluster c = true ↔ 2 ≤ c ∧ c ≤ v.driveInfo.maxClusterCount ∧ c < BAD_CLUSTER :=
  clusterInRange_iff

variable {v} in
theorem length_of_readSector {sector : UInt64} {buffer : List UInt8} (h : v.readSector sector = some buffer) :
    buffer.length = v.bytesPerSector.toUInt64.toNat :=
  (v.device.length_of_read h).trans (UInt32.toNat_toUInt64 _).symm

theorem sanitizeCluster_eq (c : UInt32) : v.sanitizeCluster c = if v.isValidCluster c then c else 0 := by
  unfold sanitizeCluster
  by_cases h : v.isValidCluster c = true
  · obtain ⟨h1, h2, h3⟩ := v.isValidCluster_iff.mp h
    have h0 : c ≠ 0 := by rintro rfl; exact absurd h1 (by decide)
    simp [h, h0, MIN_DATA_CLUSTER, UInt32.not_lt.mpr h1, UInt32.not_lt.mpr h2, UInt32.not_le.mpr h3]
  · rw [if_neg h]
    split
    · rfl
    · rename_i hc
      simp only [not_or, UInt32.not_lt, UInt32.not_le, MIN_DATA_CLUSTER] at hc
      rw [if_pos]
      exact UInt32.not_le.mp fun hle => h (v.isValidCluster_iff.mpr ⟨hc.2.1, hle, hc.2.2⟩)

end Volume

end DataRecovery.FAT32
