import DataRecovery.ByteReader
import DataRecovery.NTFS.Volume

/-!
# Parsing MFT records

`processMftRecord` and what it calls, reading the record buffer byte by byte.
Only deleted records get past the header, so `isDeleted` holds in the attribute
functions. The attribute walk need not end; `rounds` bounds it, and `endless` is
the fault when it does not suffice.
-/

namespace DataRecovery.NTFS

structure FileInfo where
  fileName : WString := []
  fileId : UInt16 := 0
  fileSize : UInt64 := 0
  cluster : UInt64 := 0
  runLength : UInt64 := 0
  data : List UInt8 := []
  nonResident : Bool := false
  deriving DecidableEq

def FILE_SIGNATURE : UInt32 := 0x454C4946
def END_MARKER : UInt32 := 0xFFFFFFFF
def FILE_NAME : UInt32 := 0x30
def DATA : UInt32 := 0x80

def validateFileInfo (info : FileInfo) : Bool :=
  if info.fileName = [] || info.fileSize = 0 then false
  else if info.nonResident && (info.cluster = 0 || info.runLength = 0) then false
  else if !info.nonResident && info.data = [] then false
  else true

section
variable (drive : DriveInfo) (b : ByteMap)

/-! ## The run list -/

/-- `acc |= byte << (i * 8)` for the next `count` bytes. -/
def readField : Nat → Nat → Nat → UInt64 → Except Fault UInt64
  | 0, _, _, acc => .ok acc
  | count + 1, i, pos, acc => do
    let x ← readByte b pos
    if 64 ≤ i * 8 then .error .undefinedShift
    else readField count (i + 1) (pos + 1) (acc ||| x.toUInt64 <<< UInt64.ofNat (i * 8))

def readRunOffset (offsetSize pos : Nat) : Except Fault UInt64 :=
  if offsetSize = 0 then .ok 0
  else do
    let runOffset ← readField b offsetSize 0 pos 0
    if runOffset &&& (1 <<< UInt64.ofNat (offsetSize * 8 - 1)) = 0 then .ok runOffset
    else if 64 ≤ offsetSize * 8 then .error .undefinedShift
    else .ok (runOffset ||| ~~~((1 <<< UInt64.ofNat (offsetSize * 8)) - 1))

def lengthSize (header : UInt8) : Nat := (header &&& 0x0F).toNat

def offsetSize (header : UInt8) : Nat := (header >>> 4 &&& 0x0F).toNat

def DriveInfo.lastCluster : UInt64 := drive.bootSector.totalSectors / drive.bootSector.sectorsPerCluster.toUInt64

/-- The loop of `processDataAttribute` over the run list from `pos` on. -/
def processRuns : Nat → Nat → UInt64 → FileInfo → Except Fault FileInfo
  | 0, _, _, _ => .error .endless
  | rounds + 1, pos, currentLCN, info => do
    let header ← readByte b pos
    if header = 0 then .ok info
    else if lengthSize header = 0 then .ok info
    else do
      let runLength ← readField b (lengthSize header) 0 (pos + 1) 0
      let runOffset ← readRunOffset b (offsetSize header) (pos + 1 + lengthSize header)
      if drive.bootSector.sectorsPerCluster = 0 then .error .divisionByZero
      else if drive.lastCluster < currentLCN + runOffset then .ok info
      else
        processRuns rounds (pos + 1 + lengthSize header + offsetSize header) (currentLCN + runOffset)
          { info with cluster := currentLCN + runOffset, runLength, nonResident := true }

/-! ## Attributes -/

/-- Each round takes two bytes of the record or more, so this many rounds suffice. -/
def DriveInfo.runRounds : Nat := drive.mftRecordSize.toNat + 1

def readUnits : Nat → Nat → Except Fault WString
  | 0, _ => .ok []
  | n + 1, i => do
    let c ← readU16 b i
    let cs ← readUnits n (i + 2)
    return c :: cs

def processFileNameAttribute (attr : Nat) (fileId : UInt16) (info : FileInfo) : Except Fault FileInfo := do
  let nonResident ← readByte b (attr + 8)
  if nonResident = 0 then do
    let contentOffset ← readU16 b (attr + 20)
    -- the length is one byte, so the source's check against 255 never fires
    let nameLength ← readByte b (attr + contentOffset.toNat + 64)
    let wfilename ← readUnits b nameLength.toNat (attr + contentOffset.toNat + 66)
    return { info with fileName := wfilename, fileId }
  else return info

def processDataAttribute (attr : Nat) (info : FileInfo) : Except Fault FileInfo := do
  let nonResident ← readByte b (attr + 8)
  if nonResident = 0 then do
    let contentOffset ← readU16 b (attr + 20)
    let contentLength ← readU32 b (attr + 16)
    let data ← readBytes b contentLength.toNat (attr + contentOffset.toNat)
    return { info with fileSize := contentLength.toUInt64, nonResident := false, data }
  else do
    let realSize ← readU64 b (attr + 48)
    let dataRunOffset ← readU16 b (attr + 32)
    processRuns drive b drive.runRounds (attr + dataRunOffset.toNat) 0 { info with fileSize := realSize }

structure Progress where
  fileInfo : FileInfo := {}
  hasFileName : Bool := false
  hasData : Bool := false
  deriving DecidableEq

def visitAttribute (fileId : UInt16) (type : UInt32) (attr : Nat) (p : Progress) : Except Fault Progress :=
  if type = FILE_NAME then do
    let fileInfo ← processFileNameAttribute b attr fileId p.fileInfo
    return { p with fileInfo, hasFileName := true }
  else if type = DATA then do
    let fileInfo ← processDataAttribute drive b attr p.fileInfo
    return { p with fileInfo, hasData := true }
  else return p

/-- The attribute length the walk stops at; the sum is a 32-bit one. -/
def stopsAt (attributeOffset length : UInt32) : Bool :=
  length = 0 || drive.mftRecordSize < attributeOffset + length

def processAttribute (fileId : UInt16) : Nat → UInt32 → Progress → Except Fault Progress
  | 0, _, _ => .error .endless
  | rounds + 1, attributeOffset, p =>
    if attributeOffset < drive.mftRecordSize then do
      let type ← readU32 b attributeOffset.toNat
      if type = END_MARKER then .ok p
      else do
        let length ← readU32 b (attributeOffset.toNat + 4)
        if stopsAt drive attributeOffset length then .ok p
        else do
          let p ← visitAttribute drive b fileId type attributeOffset.toNat p
          processAttribute fileId rounds (attributeOffset + length) p
    else .ok p

/-! ## Records -/

structure ScanState where
  fileId : UInt16 := 1
  recoveryList : List FileInfo := []
  deriving DecidableEq

def addToRecoveryList (info : FileInfo) (st : ScanState) : ScanState :=
  { fileId := st.fileId + 1, recoveryList := st.recoveryList ++ [info] }

def finishRecord (p : Progress) (st : ScanState) : ScanState :=
  if !p.hasFileName && !p.hasData then st
  else if validateFileInfo p.fileInfo then addToRecoveryList p.fileInfo st
  else st

def processMftRecord (rounds : Nat) (st : ScanState) : Except Fault ScanState := do
  let signature ← readU32 b 0
  if signature ≠ FILE_SIGNATURE then .ok st
  else do
    let flags ← readU16 b 22
    if flags &&& 1 ≠ 0 then .ok st -- in use
    else do
      let attributeOffset ← readU16 b 20
      let p ← processAttribute drive b st.fileId rounds attributeOffset.toUInt32 {}
      return finishRecord p st

end

/-! ## The scan -/

def writeAt (buffer : List UInt8) (off : Nat) (bytes : List UInt8) : List UInt8 :=
  buffer.take off ++ bytes ++ buffer.drop (off + bytes.length)

section
variable (v : Volume)

/-- The loop of `readMftRecord` from sector `i` of the record on: whether all reads
succeeded, and the buffer. -/
def readMftSectors (currentSector : UInt64) : Nat → Nat → List UInt8 → Except Fault (Bool × List UInt8)
  | 0, _, mftBuffer => .ok (true, mftBuffer)
  | count + 1, i, mftBuffer =>
    let off := i * v.bytesPerSector.toNat
    match v.readSector (currentSector + UInt64.ofNat i) with
    | none => .ok (false, mftBuffer)
    | some bytes =>
      if mftBuffer.length < off + bytes.length then .error (.outOfBounds mftBuffer.length)
      else readMftSectors currentSector count (i + 1) (writeAt mftBuffer off bytes)

def readMftRecord (sectorsPerMftRecord : UInt32) (currentSector : UInt64) (mftBuffer : List UInt8) :
    Except Fault (Bool × List UInt8) :=
  readMftSectors v currentSector sectorsPerMftRecord.toNat 0 mftBuffer

def getSectorsPerMftRecord : Except Fault UInt32 :=
  let bytesPerSector := v.bytesPerSector.toUInt32
  if bytesPerSector = 0 then .error .divisionByZero
  else
    let sectorsPerMftRecord := v.driveInfo.mftRecordSize / bytesPerSector
    .ok (if v.driveInfo.mftRecordSize % bytesPerSector ≠ 0 then sectorsPerMftRecord + 1 else sectorsPerMftRecord)

/-- The loop of `scanMFT` over the next `count` records; the buffer is shared by all of them. -/
def scanRecords (rounds : Nat) (mftSector : UInt64) (sectorsPerMftRecord : UInt32) :
    Nat → UInt64 → List UInt8 → ScanState → Except Fault ScanState
  | 0, _, _, st => .ok st
  | count + 1, recordIndex, mftBuffer, st => do
    let currentSector := mftSector + recordIndex * sectorsPerMftRecord.toUInt64
    let (complete, mftBuffer) ← readMftRecord v sectorsPerMftRecord currentSector mftBuffer
    let st ← if complete then processMftRecord v.driveInfo (ofBuffer mftBuffer) rounds st else .ok st
    scanRecords rounds mftSector sectorsPerMftRecord count (recordIndex + 1) mftBuffer st

def scanMFT (rounds : Nat) (st : ScanState) : Except Fault ScanState :=
  let mftSector := v.clusterToSector v.driveInfo.bootSector.mftCluster
  if !v.isValidSector mftSector then .ok st
  else do
    let sectorsPerMftRecord ← getSectorsPerMftRecord v
    scanRecords v rounds mftSector sectorsPerMftRecord v.device.getTotalMftRecords.toNat 0
      (List.replicate v.driveInfo.mftRecordSize.toNat 0) st

end

/-! ## Small records -/

def rawAttribute (type : Nat) (nonResident : UInt8) (name header content : List UInt8) : List UInt8 :=
  leBytes 4 type ++ leBytes 4 (16 + header.length + 2 * name.length + content.length) ++
    [nonResident, UInt8.ofNat name.length] ++ leBytes 2 (16 + header.length) ++ leBytes 4 0 ++ header ++
    name.flatMap (fun c => [c, 0]) ++ content

def rawResident (type : Nat) (name content : List UInt8) : List UInt8 :=
  rawAttribute type 0 name (leBytes 4 content.length ++ leBytes 2 (24 + 2 * name.length) ++ [0, 0]) content

def rawFileName (c : UInt8) : List UInt8 := rawResident 0x30 [] (leBytes 64 0 ++ [1, 0, c, 0])

def rawNonResident (name : List UInt8) (realSize : Nat) (runs : List UInt8) : List UInt8 :=
  rawAttribute 0x80 1 name
    (leBytes 16 0 ++ leBytes 2 (64 + 2 * name.length) ++ leBytes 14 0 ++ leBytes 8 realSize ++ leBytes 8 0) runs

/-- A deleted record of 512 bytes; its update sequence array is the two words from byte 48 on. -/
def rawRecord (attributes : List UInt8) : List UInt8 :=
  (leBytes 4 0x454C4946 ++ [48, 0, 2, 0] ++ leBytes 12 0 ++ [56, 0, 0, 0] ++ leBytes 24 0 ++ [1, 0] ++ leBytes 6 0 ++
    attributes ++ [0xFF, 0xFF, 0xFF, 0xFF] ++ List.replicate 512 0).take 512

/-- The record of a deleted resident file `a.b`. -/
def dottedRecord (content : List UInt8) : List UInt8 :=
  rawRecord (rawResident 0x30 [] (leBytes 64 0 ++ [3, 0, 0x61, 0, 0x2E, 0, 0x62, 0]) ++ rawResident 0x80 [] content)

def smallDrive : DriveInfo where
  bootSector :=
    { oemID := "NTFS    ".toList.map fun c => UInt8.ofNat c.toNat
      bytesPerSector := 512, sectorsPerCluster := 1, totalSectors := 16, mftCluster := 4, clustersPerMftRecord := -9 }
  mftRecordSize := 512
  bytesPerCluster := 512

end DataRecovery.NTFS
