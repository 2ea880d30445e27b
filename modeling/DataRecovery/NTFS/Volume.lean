import DataRecovery.Device

/-! # NTFS volumes: boot sector and geometry -/

namespace DataRecovery.NTFS

structure BootSector where
  oemID : List UInt8
  bytesPerSector : UInt16
  sectorsPerCluster : UInt8
  totalSectors : UInt64
  mftCluster : UInt64
  clustersPerMftRecord : Int8

def BootSector.ofBytes (b : List UInt8) : BootSector where
  oemID := slice b 3 8
  bytesPerSector := le16 b 11
  sectorsPerCluster := b.getD 13 0
  totalSectors := le64 b 40
  mftCluster := le64 b 48
  clustersPerMftRecord := (b.getD 64 0).toInt8

structure DriveInfo where
  bootSector : BootSector
  mftRecordSize : UInt32
  bytesPerCluster : UInt32

/-- Clusters per record when positive, else the exponent of the size in bytes;
`none` where the shift is undefined. -/
def BootSector.mftRecordSize (b : BootSector) : Option UInt32 :=
  if 0 < b.clustersPerMftRecord then
    some (UInt32.ofNat b.clustersPerMftRecord.toInt.toNat *
      (b.bytesPerSector.toUInt32 * b.sectorsPerCluster.toUInt32))
  else
    let shift := (-b.clustersPerMftRecord.toInt).toNat
    if shift < 32 then some (1 <<< UInt32.ofNat shift) else none

def readBootSector (device : Device) : Except Abort DriveInfo :=
  let bytesPerSector := device.getBytesPerSector
  if bytesPerSector = 0 then .error (.exception "Invalid bytes per sector")
  else
    match device.readSector 0 bytesPerSector with
    | none => .error (.exception "Failed to read NTFS boot sector")
    | some buffer =>
      -- the packed struct is 84 bytes long
      if bytesPerSector.toNat < 84 then .error .undefined
      else
        let b := BootSector.ofBytes buffer
        if b.oemID.take 4 ≠ "NTFS".toList.map (fun c => UInt8.ofNat c.toNat) then
          .error (.exception "Not a valid NTFS volume")
        else
          match b.mftRecordSize with
          | none => .error .undefined
          | some mftRecordSize =>
            .ok
              { bootSector := b, mftRecordSize
                bytesPerCluster := b.bytesPerSector.toUInt32 * b.sectorsPerCluster.toUInt32 }

structure Volume where
  device : Device
  driveInfo : DriveInfo

namespace Volume
variable (v : Volume)

def bytesPerSector : UInt16 := v.driveInfo.bootSector.bytesPerSector

def sectorsPerCluster : UInt8 := v.driveInfo.bootSector.sectorsPerCluster

def readSector (sector : UInt64) : Option (List UInt8) := v.device.readSector sector v.bytesPerSector.toUInt32

def clusterToSector (cluster : UInt64) : UInt64 := cluster * v.sectorsPerCluster.toUInt64

def isValidSector (mftSector : UInt64) : Bool := mftSector < v.driveInfo.bootSector.totalSectors

def sectorsOf (cluster : UInt64) : List UInt64 :=
  (List.range v.sectorsPerCluster.toNat).map fun i => v.clusterToSector cluster + UInt64.ofNat i

variable {v} in
theorem length_of_readSector {sector : UInt64} {buffer : List UInt8} (h : v.readSector sector = some buffer) :
    buffer.length = v.bytesPerSector.toUInt64.toNat := by
  rw [v.device.length_of_read h, UInt16.toNat_toUInt32, UInt16.toNat_toUInt64]

end Volume

end DataRecovery.NTFS
