import Mathlib.Data.List.DropRight
import DataRecovery.FAT32.Volume
import DataRecovery.Utils

/-! # FAT32 directory entries and file names -/

namespace DataRecovery.FAT32

structure DirectoryEntry where
  name : List UInt8
  attr : UInt8
  fstClusHI : UInt16
  fstClusLO : UInt16
  fileSize : UInt32

def DirectoryEntry.ofBytes (raw : List UInt8) : DirectoryEntry where
  name := slice raw 0 11
  attr := raw.getD 11 0
  fstClusHI := le16 raw 20
  fstClusLO := le16 raw 26
  fileSize := le32 raw 28

structure LFNEntry where
  name1 : List UInt16
  name2 : List UInt16
  name3 : List UInt16

def LFNEntry.ofBytes (raw : List UInt8) : LFNEntry where
  name1 := (List.range 5).map fun k => le16 raw (1 + 2 * k)
  name2 := (List.range 6).map fun k => le16 raw (14 + 2 * k)
  name3 := (List.range 2).map fun k => le16 raw (28 + 2 * k)

namespace DirectoryEntry
variable (e : DirectoryEntry)

def firstByte : UInt8 := e.name.getD 0 0

def isDeleted : Bool := e.firstByte == 0xE5

def isLongName : Bool := e.attr == 0x0F

def isDirectory : Bool := e.attr &&& 0x10 != 0 && e.firstByte != 0x2E

def startCluster : UInt32 := e.fstClusHI.toUInt32 <<< 16 ||| e.fstClusLO.toUInt32

end DirectoryEntry

/-! ## Names -/

def getLongFilename (lfn : LFNEntry) : WString :=
  (lfn.name1 ++ lfn.name2 ++ lfn.name3).filter fun c => !(c == 0 || c == 0xFFFF || c < 32)

def trimmed (field : List UInt8) : List UInt8 :=
  (field.takeWhile (· != 0)).rdropWhile (· == 0x20)

/-- `char` is signed, so the conversion to `wchar_t` sign-extends. -/
def widen (c : UInt8) : UInt16 := if c < 0x80 then c.toUInt16 else 0xFF00 + c.toUInt16

def getShortFilename (entry : DirectoryEntry) (isDeleted : Bool) : WString :=
  let name := slice entry.name 0 8
  let name := if isDeleted then name.set 0 0x5F else name
  let filename := (trimmed name).map widen
  let ext := trimmed (slice entry.name 8 3)
  if ext = [] then filename else filename ++ wide "." ++ ext.map widen

/-! ## Extensions -/

def hexDigit (n : Nat) : Char := if n < 10 then Char.ofNat (48 + n) else Char.ofNat (87 + n)

def getFileSignature (data : List UInt8) : List Char :=
  (data.take 4).flatMap fun b => [hexDigit (b.toNat / 16), hexDigit (b.toNat % 16)]

/-- The comparisons of `guessFileExtension` in order: the length compared, the
signature, the extension. -/
def signatureTable : List (Nat × String × String) :=
  [(6, "ffd8ff", "jpg"), (8, "89504e47", "png"), (8, "47494638", "gif"), (3, "383761", "gif"),
   (4, "424d", "bmp"), (8, "49492a00", "tif"), (8, "4d4d002a", "tif"), (8, "52494646", "webp"),
   (8, "25504446", "pdf"), (8, "504b0304", "zip"), (8, "d0cf11e0", "doc"), (8, "7b5c7274", "rtf"),
   (8, "52494646", "wav"), (8, "494433", "mp3"), (8, "66747970", "mp4"), (8, "52494646", "avi"),
   (4, "4f676753", "ogg"), (4, "4d5a", "exe"), (8, "7f454c46", "elf"), (8, "504b0304", "zip"),
   (6, "526172", "rar"), (8, "1f8b0808", "gz"), (6, "425a68", "bz2"), (8, "377abcaf", "7z"),
   (8, "53514c69", "sqlite"), (8, "3c3f786d", "xml"), (8, "7b0d0a20", "json"), (8, "3c21444f", "html"),
   (8, "4f54544f", "otf"), (8, "00010000", "ttf")]

def guessFileExtension (signature : List Char) : WString :=
  match signatureTable.find? fun row => signature.take row.1 == row.2.1.toList with
  | some row => wide row.2.2
  | none => wide "bin"

theorem guessFileExtension_of_rows {P : WString → Prop} (hrows : ∀ row ∈ signatureTable, P (wide row.2.2))
    (hbin : P (wide "bin")) (signature : List Char) : P (guessFileExtension signature) := by
  unfold guessFileExtension
  split
  · rename_i row h
    exact hrows row (List.mem_of_find?_eq_some h)
  · exact hbin

def Volume.predictExtension (v : Volume) (cluster : UInt32) : WString :=
  let firstSector := v.clusterToSector cluster
  -- a failed read is not noticed: the signature of a zeroed buffer is used
  let buffer := (v.readSector firstSector.toUInt64).getD (List.replicate v.bytesPerSector.toNat 0)
  guessFileExtension (getFileSignature (buffer.take 8))

/-! ## File records -/

structure FileInfo where
  fileId : UInt16
  fullName : WString
  fileName : WString
  extension : WString
  fileSize : UInt64
  cluster : UInt32
  isExtensionPredicted : Bool
  deriving DecidableEq

/-- `parseFileInfo`, without the increment of `fileId`. The classification
`iswalnum` is the C library's. -/
def Volume.parseFileInfo (v : Volume) (iswalnum : UInt16 → Bool) (fileId : UInt16) (fullName : WString)
    (startCluster expectedSize : UInt32) : FileInfo :=
  let cleanName := fullName.filter (· != 0)
  let predicted := v.predictExtension startCluster
  let info : FileInfo :=
    { fileId, fullName := cleanName, fileName := [], extension := [], fileSize := expectedSize.toUInt64,
      cluster := startCluster, isExtensionPredicted := false }
  match findLastDot fullName with
  | some (dotPos + 1) =>
    let fileName := fullName.take (dotPos + 1)
    let extension := fullName.drop (dotPos + 2)
    if extension.all iswalnum then { info with fileName, extension }
    else
      { info with
        fileName, extension := predicted, isExtensionPredicted := true,
        fullName := fileName ++ [dot] ++ predicted }
  | _ =>
    { info with
      extension := predicted, isExtensionPredicted := true, fileName := fullName,
      fullName := fullName ++ [dot] ++ predicted }

theorem findLastDot_append_dot : ∀ (s t : WString), dot ∉ t → findLastDot (s ++ dot :: t) = some s.length
  | [], t, ht => by
    have : findLastDot t = none := by
      induction t with
      | nil => rfl
      | cons c t ih =>
        simp only [List.mem_cons, not_or] at ht
        simp [findLastDot, ih ht.2, Ne.symm ht.1]
    simp [findLastDot, this]
  | c :: s, t, ht => by
    simp [findLastDot, findLastDot_append_dot s t ht]

def HasExtension (name ext : WString) : Prop := ∃ s, s ≠ [] ∧ name = s ++ dot :: ext ∧ dot ∉ ext

def ValidExtension (iswalnum : UInt16 → Bool) (name : WString) : Prop :=
  ∃ ext, HasExtension name ext ∧ ∀ c ∈ ext, iswalnum c = true

theorem findLastDot_of_hasExtension {name ext : WString} (h : HasExtension name ext) :
    ∃ n, findLastDot name = some (n + 1) ∧ ext = name.drop (n + 2) := by
  obtain ⟨s, hs, rfl, hdot⟩ := h
  obtain ⟨n, hn⟩ := Nat.exists_eq_succ_of_ne_zero (mt List.length_eq_zero_iff.mp hs)
  refine ⟨n, by rw [findLastDot_append_dot s ext hdot, hn], ?_⟩
  rw [List.append_cons]
  refine (List.drop_left' ?_).symm
  rw [List.length_append, hn, List.length_singleton]

theorem splitAt_findLastDot {name : WString} {n : Nat} (h : findLastDot name = some (n + 1)) :
    name.take (n + 1) ≠ [] ∧ name = name.take (n + 1) ++ dot :: name.drop (n + 2) ∧ dot ∉ name.drop (n + 2) :=
  ⟨front_ne_nil h, findLastDot_split h⟩

theorem HasExtension.unique {name ext ext' : WString} (h : HasExtension name ext) (h' : HasExtension name ext') :
    ext = ext' := by
  obtain ⟨n, hn, rfl⟩ := findLastDot_of_hasExtension h
  obtain ⟨m, hm, rfl⟩ := findLastDot_of_hasExtension h'
  obtain rfl := Nat.succ.inj (Option.some.inj (hn.symm.trans hm))
  rfl

section
variable (v : Volume) (iswalnum : UInt16 → Bool) (fileId : UInt16) (name : WString) (startCluster expectedSize : UInt32)

/-- The name is split at its dot and kept, or the extension is predicted. -/
theorem parseFileInfo_cases :
    (∃ fileName extension, fileName ≠ [] ∧ name = fileName ++ dot :: extension ∧ dot ∉ extension ∧
      (∀ c ∈ extension, iswalnum c = true) ∧
      v.parseFileInfo iswalnum fileId name startCluster expectedSize =
        { fileId, fullName := name.filter (· != 0), fileName, extension, fileSize := expectedSize.toUInt64
          cluster := startCluster, isExtensionPredicted := false }) ∨
    (¬ ValidExtension iswalnum name ∧ ∃ fileName, fileName <+: name ∧ (name ≠ [] → fileName ≠ []) ∧
      v.parseFileInfo iswalnum fileId name startCluster expectedSize =
        { fileId, fullName := fileName ++ [dot] ++ v.predictExtension startCluster, fileName
          extension := v.predictExtension startCluster, fileSize := expectedSize.toUInt64, cluster := startCluster
          isExtensionPredicted := true }) := by
  unfold Volume.parseFileInfo
  dsimp only
  split
  · rename_i dotPos hdot
    obtain ⟨hne, hname, hext⟩ := splitAt_findLastDot hdot
    split
    · rename_i hall
      exact .inl ⟨_, _, hne, hname, hext, List.all_eq_true.mp hall, rfl⟩
    · rename_i hinvalid
      refine .inr ⟨?_, _, List.take_prefix .., fun _ => hne, rfl⟩
      rintro ⟨ext, hext', hall⟩
      rw [hext'.unique ⟨_, hne, hname, hext⟩] at hall
      exact hinvalid (List.all_eq_true.mpr hall)
  · rename_i hmissing
    refine .inr ⟨?_, _, List.prefix_rfl, id, rfl⟩
    rintro ⟨ext, hext, -⟩
    obtain ⟨n, hn, -⟩ := findLastDot_of_hasExtension hext
    exact hmissing n hn

theorem parseFileInfo_fileId : (v.parseFileInfo iswalnum fileId name startCluster expectedSize).fileId = fileId := by
  rcases parseFileInfo_cases v iswalnum fileId name startCluster expectedSize with
    ⟨_, _, -, -, -, -, hinfo⟩ | ⟨-, _, -, -, hinfo⟩ <;> rw [hinfo]

theorem parseFileInfo_cluster :
    (v.parseFileInfo iswalnum fileId name startCluster expectedSize).cluster = startCluster := by
  rcases parseFileInfo_cases v iswalnum fileId name startCluster expectedSize with
    ⟨_, _, -, -, -, -, hinfo⟩ | ⟨-, _, -, -, hinfo⟩ <;> rw [hinfo]

theorem parseFileInfo_fileSize :
    (v.parseFileInfo iswalnum fileId name startCluster expectedSize).fileSize = expectedSize.toUInt64 := by
  rcases parseFileInfo_cases v iswalnum fileId name startCluster expectedSize with
    ⟨_, _, -, -, -, -, hinfo⟩ | ⟨-, _, -, -, hinfo⟩ <;> rw [hinfo]

end

end DataRecovery.FAT32
