import DataRecovery.Device
import Mathlib.Data.List.Infix

/-!
# Choosing the drive and the engine

The character functions of the C library are parameters. No partition table is looked at: the
call of `getPartitionType` is commented out.
-/

namespace DataRecovery

structure CharacterClasses where
  towupper : UInt16 → UInt16
  iswalpha : UInt16 → Bool
  isdigit : UInt16 → Bool
  iswalnum : UInt16 → Bool

inductive FilesystemType where
  | unknown
  | fat32
  | ntfs
  | exfat
  | ext4
  deriving DecidableEq

def filesystemMap : List (WString × FilesystemType) :=
  [(wide "exFAT", .exfat), (wide "FAT32", .fat32), (wide "NTFS", .ntfs)]

def getFilesystemType (fsType : WString) : FilesystemType := (filesystemMap.lookup fsType).getD .unknown

section
variable (classes : CharacterClasses)

def isDriveNumber : WString → Bool
  | [c] => classes.isdigit c
  | _ => false

def isPhysicalDrive (upperPath : WString) : Bool :=
  decide (wide "PHYSICALDRIVE" <:+: upperPath) && upperPath.getLast?.any classes.isdigit

def determineDriveType (drivePath : WString) : DriveType × WString :=
  let upperPath := drivePath.map classes.towupper
  if isDriveNumber classes drivePath then (.physical, drivePath)
  else if isPhysicalDrive classes upperPath then (.physical, drivePath)
  else
    match upperPath with
    | [c] => if classes.iswalpha c then (.logical, wide "\\\\.\\" ++ [c] ++ wide ":") else (.unknown, drivePath)
    | [c, colon] =>
      if classes.iswalpha c && colon == 0x3A then (.logical, wide "\\\\.\\" ++ [c, colon]) else (.unknown, drivePath)
    | _ => (.unknown, drivePath)

def drivePathOf (letter : UInt16) : WString := wide "\\\\.\\" ++ [letter] ++ wide ":"

theorem not_isPhysicalDrive_of_short {upperPath : WString} (h : upperPath.length < 13) :
    isPhysicalDrive classes upperPath = false := by
  unfold isPhysicalDrive
  rw [Bool.and_eq_false_imp]
  intro hinfix
  have hle := (of_decide_eq_true hinfix).length_le
  exact absurd h (Nat.not_lt.mpr hle)

/-- Only a letter, alone or in front of a colon, names a drive. -/
theorem determineDriveType_logical_iff {drivePath path : WString} :
    determineDriveType classes drivePath = (.logical, path) ↔ isDriveNumber classes drivePath = false ∧
      ∃ letter, classes.iswalpha letter = true ∧ path = drivePathOf letter ∧
        (drivePath.map classes.towupper = [letter] ∨ drivePath.map classes.towupper = [letter, 0x3A]) := by
  unfold determineDriveType
  constructor
  · intro h
    dsimp only at h
    split at h
    · cases h
    · rename_i hnumber
      refine ⟨Bool.eq_false_iff.mpr hnumber, ?_⟩
      split at h
      · cases h
      · split at h
        · rename_i c hupper
          split at h
          · rename_i hletter
            cases h
            exact ⟨c, hletter, rfl, .inl hupper⟩
          · cases h
        · rename_i c colon hupper
          split at h
          · rename_i hletter
            simp only [Bool.and_eq_true, beq_iff_eq] at hletter
            obtain ⟨halpha, rfl⟩ := hletter
            cases h
            exact ⟨c, halpha, rfl, .inr hupper⟩
          · cases h
        · cases h
  · rintro ⟨hnumber, letter, halpha, rfl, hupper | hupper⟩
    · simp [hnumber, hupper, halpha, not_isPhysicalDrive_of_short, drivePathOf]
    · simp [hnumber, hupper, halpha, not_isPhysicalDrive_of_short, drivePathOf]
      rfl

end

end DataRecovery
