import DataRecovery.Bytes

/-!
# Drives and configuration

The engines see a drive only through `SectorReader`. A read either fails or
fills the whole buffer; whichever sectors fail, they fail in every run.
-/

namespace DataRecovery

structure Device where
  readSector : UInt64 → UInt32 → Option (List UInt8)
  getBytesPerSector : UInt32
  getTotalMftRecords : UInt64
  length_of_read : ∀ {sector size buffer}, readSector sector size = some buffer → buffer.length = size.toNat

/-- A drive whose sectors are all readable: `LogicalDriveReader` seeks to
`sector * size` and reads `size` bytes. -/
def Device.ofVolume (volume : Nat → UInt8) (bytesPerSector : UInt32) (totalMftRecords : UInt64) : Device where
  readSector sector size :=
    some ((List.range size.toNat).map fun i => volume ((sector * size.toUInt64).toNat + i))
  getBytesPerSector := bytesPerSector
  getTotalMftRecords := totalMftRecords
  length_of_read := by rintro _ _ _ ⟨⟩; simp

def Device.ofSectors (sectors : List (UInt64 × List UInt8)) (bytesPerSector : UInt32) : Device where
  readSector sector size :=
    some ((((sectors.lookup sector).getD []) ++ List.replicate size.toNat 0).take size.toNat)
  getBytesPerSector := bytesPerSector
  getTotalMftRecords := 0
  length_of_read := by rintro _ _ _ ⟨⟩; simp

inductive DriveType where
  | unknown
  | logical
  | physical
  deriving DecidableEq

/-- Wide strings of 16-bit units, as `wchar_t` is on the target. -/
abbrev WString := List UInt16

def wide (s : String) : WString := s.toList.map fun c => UInt16.ofNat c.toNat

structure Config where
  outputFolder : WString := wide "Recovered"
  logFolder : WString := wide "Log"
  logFile : WString := wide "FileDataLog.txt"
  targetCluster : UInt32 := 0
  targetFileSize : UInt32 := 0
  createFileDataLog : Bool := true
  recover : Bool := false
  analyze : Bool := false

/-- How a run can end other than by returning: an uncaught exception, `exit`, a
call chain deeper than the stack, a loop that never ends, or an operation the
language leaves undefined. -/
inductive Abort where
  | exception (what : String)
  | exit (code : Nat)
  | stackOverflow
  | divergence
  | undefined
  deriving DecidableEq, Repr

end DataRecovery
