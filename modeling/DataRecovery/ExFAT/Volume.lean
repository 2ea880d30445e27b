import DataRecovery.Clusters

/-! # exFAT volumes: boot sector and cluster operations -/

namespace DataRecovery.ExFAT

structure BootSector where
  fileSystemName : List UInt8
  volumeLength : UInt64
  fatOffset : UInt32
  fatLength : UInt32
  clusterHeapOffset : UInt32
  clusterCount : UInt32
  rootDirectoryCluster : UInt32
  bytesPerSectorShift : UInt8
  sectorsPerClusterShift : UInt8

def BootSector.ofBytes (b : List UInt8) : BootSector where
  fileSystemName := slice b 3 8
  volumeLength := le64 b 72
  fatOffset := le32 b 80
  fatLength := le32 b 84
  clusterHeapOffset := le32 b 88
  clusterCount := le32 b 92
  rootDirectoryCluster := le32 b 96
  bytesPerSectorShift := b.getD 108 0
  sectorsPerClusterShift := b.getD 109 0

structure DriveInfo where
  bootSector : BootSector
  bytesPerSector : UInt32
  sectorsPerCluster : UInt32

def DriveInfo.ofBootSector (b : BootSector) : DriveInfo where
  bootSector := b
  bytesPerSector := 1 <<< b.bytesPerSectorShift.toUInt32
  sectorsPerCluster := 1 <<< b.sectorsPerClusterShift.toUInt32

def readBootSector (device : Device) : Except Abort DriveInfo :=
  let bytesPerSector := device.getBytesPerSector
  if bytesPerSector = 0 then .error (.exception "Invalid bytes per sector")
  else
    match device.readSector 0 bytesPerSector with
    | none => .error (.exception "Failed to read exFAT boot sector")
    | some buffer =>
      if bytesPerSector.toNat < 512 then .error .undefined
      else
        let b := BootSector.ofBytes buffer
        if b.fileSystemName ≠ "EXFAT   ".toList.map (fun c => UInt8.ofNat c.toNat) then
          .error (.exception "Not a valid exFAT volume")
        else if 32 ≤ b.bytesPerSectorShift ∨ 32 ≤ b.sectorsPerClusterShift then .error .undefined
        else .ok (.ofBootSector b)

/-- An opened volume. The shifts that give the sizes are by less than the width
of the result. -/
structure Volume where
  device : Device
  bootSector : BootSector
  pastEnd : Nat → UInt8
  bytesPerSectorShift_lt : bootSector.bytesPerSectorShift < 32
  sectorsPerClusterShift_lt : bootSector.sectorsPerClusterShift < 32

def MIN_DATA_CLUSTER : UInt32 := 2
def BAD_CLUSTER : UInt32 := 0xFFFFFFF7

namespace Volume
variable (v : Volume)

def driveInfo : DriveInfo := .ofBootSector v.bootSector

def bytesPerSector : UInt32 := v.driveInfo.bytesPerSector

def sectorsPerCluster : UInt32 := v.driveInfo.sectorsPerCluster

def readSector (sector : UInt64) : Option (List UInt8) := v.device.readSector sector v.bytesPerSector

def isValidCluster (cluster : UInt32) : Bool := clusterInRange v.bootSector.clusterCount BAD_CLUSTER cluster

def isValidDeletedEntry (cluster : UInt32) (size : UInt64) : Bool :=
  let volumeSize := v.bootSector.volumeLength * v.bytesPerSector.toUInt64
  if size = 0 then false else if volumeSize < size then false else v.isValidCluster cluster

def clusterToSector (cluster : UInt32) : UInt32 :=
  v.bootSector.clusterHeapOffset + (cluster - 2) * v.sectorsPerCluster

/-- The table is looked up from `clusterHeapOffset` on. -/
def getNextCluster (cluster : UInt32) : UInt32 :=
  fatLookup v.readSector v.bootSector.clusterHeapOffset v.bytesPerSector v.pastEnd cluster

def sectorsOf (cluster : UInt32) : List UInt64 :=
  (List.range v.sectorsPerCluster.toNat).map fun i => (v.clusterToSector cluster).toUInt64 + UInt64.ofNat i

variable {v} in
theorem length_of_readSector {sector : UInt64} {buffer : List UInt8} (h : v.readSector sector = some buffer) :
    buffer.length = v.bytesPerSector.toUInt64.toNat :=
  (v.device.length_of_read h).trans (UInt32.toNat_toUInt64 _).symm

theorem one_shiftLeft_toNat {shift : UInt8} (h : shift < 32) :
    ((1 : UInt32) <<< shift.toUInt32).toNat = 2 ^ shift.toNat := by
  have hs : shift.toNat < 32 := UInt8.lt_iff_toNat_lt.mp h
  rw [UInt32.toNat_shiftLeft, UInt8.toNat_toUInt32, Nat.mod_eq_of_lt hs, UInt32.toNat_one, Nat.one_shiftLeft]
  exact Nat.mod_eq_of_lt (Nat.pow_lt_pow_right (by decide) hs)

theorem bytesPerSector_toNat : v.bytesPerSector.toNat = 2 ^ v.bootSector.bytesPerSectorShift.toNat :=
  one_shiftLeft_toNat v.bytesPerSectorShift_lt

theorem sectorsPerCluster_toNat : v.sectorsPerCluster.toNat = 2 ^ v.bootSector.sectorsPerClusterShift.toNat :=
  one_shiftLeft_toNat v.sectorsPerClusterShift_lt

theorem isValidCluster_iff {c : UInt32} :
    v.isValidCluster c = true ↔ 2 ≤ c ∧ c ≤ v.bootSector.clusterCount ∧ c < BAD_CLUSTER :=
  clusterInRange_iff

theorem size_ne_zero_of_deletedEntry {c : UInt32} {size : UInt64} (h : v.isValidDeletedEntry c size = true) :
    size ≠ 0 := by
  rintro rfl
  cases h

theorem isValidCluster_of_deletedEntry {c : UInt32} {size : UInt64} (h : v.isValidDeletedEntry c size = true) :
    v.isValidCluster c = true := by
  unfold isValidDeletedEntry at h
  dsimp only at h
  split at h
  · cases h
  · split at h
    · cases h
    · exact h

end Volume

end DataRecovery.ExFAT
