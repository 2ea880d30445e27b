import DataRecovery.CommandLine
import DataRecovery.DriveHandler
import DataRecovery.Engine
import DataRecovery.FAT32.Geometry
import DataRecovery.NTFS.MftReads

/-!
# The program

`main` reads the command line, opens the drive it names and hands it to the engine of its file
system. Whatever is on the command line and on the drive, and whatever the user types, a run
changes no file of the host but its log and, with `--recover`, the outputs of listed files.
-/

namespace DataRecovery

/-! ## Opening a volume -/

/-- The second test does not fail: `readBootSector` divides by both sizes. -/
def FAT32.openVolume (device : Device) (pastEnd : Nat → UInt8) : Except Abort Volume :=
  match readBootSector device with
  | .error abort => .error abort
  | .ok driveInfo =>
    if h : 0 < driveInfo.bootSector.bytesPerSector ∧ 0 < driveInfo.bootSector.sectorsPerCluster then
      .ok
        { device, bootSector := driveInfo.bootSector, pastEnd
          bytesPerSector_pos := h.1, sectorsPerCluster_pos := h.2 }
    else .error .undefined

/-- The second test does not fail: `readBootSector` shifts by both exponents. -/
def ExFAT.openVolume (device : Device) (pastEnd : Nat → UInt8) : Except Abort Volume :=
  match readBootSector device with
  | .error abort => .error abort
  | .ok driveInfo =>
    if h : driveInfo.bootSector.bytesPerSectorShift < 32 ∧ driveInfo.bootSector.sectorsPerClusterShift < 32 then
      .ok
        { device, bootSector := driveInfo.bootSector, pastEnd
          bytesPerSectorShift_lt := h.1, sectorsPerClusterShift_lt := h.2 }
    else .error .undefined

def NTFS.openVolume (device : Device) : Except Abort Volume := (readBootSector device).map fun driveInfo => ⟨device, driveInfo⟩

/-! ## A run -/

/-- What a run of the program depends on beside its arguments and its input. -/
structure Machine extends CharacterClasses where
  multiByteToWideChar : List UInt8 → WString
  /-- The drive at a path, and the name of its file system. -/
  openDrive : WString → Except Abort (Device × WString)
  /-- Whether the output folders are there or can be made. -/
  outputDirectory : Bool
  pastEnd : Nat → UInt8
  stack : Nat
  rounds : Nat

namespace Machine
variable (m : Machine) {host : Host}

def driveHandler (drivePath : WString) : Except Abort (Device × FilesystemType) :=
  match determineDriveType m.toCharacterClasses drivePath with
  | (.unknown, _) => .error (.exception "Unknown drive type")
  | (.physical, _) => .error (.exception "Physical drive recovery not implemented")
  | (.logical, drivePath) =>
    match m.openDrive drivePath with
    | .error abort => .error abort
    | .ok (device, fileSystemName) =>
      if device.getBytesPerSector = 0 then .error (.exception "Invalid bytes per sector")
      else .ok (device, getFilesystemType fileSystemName)

/-- An engine is constructed, which reads the boot sector, and started. -/
def withVolume {V : Type} (volume : Except Abort V) (start : V → Outcome host) (st : RunState host) : Outcome host :=
  if m.outputDirectory then
    match volume with
    | .error abort => (st, some abort)
    | .ok v => start v
  else (st, some (.exception "Failed to create output directory"))

def recoverDrive (config : Config) (device : Device) (input : List UInt8) (st : RunState host) :
    FilesystemType → Outcome host
  | .fat32 =>
    m.withVolume (FAT32.openVolume device m.pastEnd)
      (fun v => (FAT32.engine host config v m.iswalnum m.stack).startRecovery .logical input st) st
  | .exfat =>
    m.withVolume (ExFAT.openVolume device m.pastEnd) (fun v => ExFAT.startRecovery host config v m.stack .logical input st) st
  | .ntfs =>
    m.withVolume (NTFS.openVolume device) (fun v => NTFS.startRecovery host config v m.rounds .logical input st) st
  | _ => (st, some (.exception "Unsupported filesystem type"))

/-- `main`, from the arguments behind the program's name. -/
def main (args : List (List UInt8)) (input : List UInt8) (st : RunState host) : Outcome host :=
  match parseCommandLine m.multiByteToWideChar args {} with
  | .error abort => (st, some abort)
  | .ok config =>
    match m.driveHandler config.drivePath with
    | .error abort => (st, some abort)
    | .ok (device, fsType) => m.recoverDrive config.toConfig device input st fsType

/-- The names under which the scan of a drive lists deleted files. -/
inductive Lists (config : Config) (device : Device) : FilesystemType → WString → Prop
  | fat32 {v scan info} : FAT32.openVolume device m.pastEnd = .ok v →
      FAT32.scanRoot v config m.iswalnum m.stack {} = some scan → info ∈ scan.recoveryList →
      Lists config device .fat32 info.fullName
  | exfat {v scan info} : ExFAT.openVolume device m.pastEnd = .ok v → ExFAT.scanRoot v config m.stack {} = some scan →
      info ∈ scan.recoveryList → Lists config device .exfat info.fileName
  | ntfs {v scan info} : NTFS.openVolume device = .ok v → NTFS.scanMFT v m.rounds {} = .ok scan →
      info ∈ scan.recoveryList → Lists config device .ntfs info.fileName

/-- Every drive is a FAT32 volume with one deleted file of three bytes. -/
def small : Machine where
  towupper c := c
  iswalpha _ := true
  isdigit _ := false
  iswalnum _ := true
  multiByteToWideChar str := str.map UInt8.toUInt16
  openDrive _ :=
    .ok
      (.ofSectors [(0, FAT32.bootBytes 512 10), (2, FAT32.rawEntry 0xE5 0x20 4 3), (4, [7, 8, 9])] 512, wide "FAT32")
  outputDirectory := true
  pastEnd _ := 0
  stack := 2
  rounds := 0

/-! ## What a run changes -/

variable {m}

theorem driveHandler_ok {drivePath : WString} {device : Device} {fsType : FilesystemType}
    (h : m.driveHandler drivePath = .ok (device, fsType)) :
    ∃ letter fileSystemName, m.iswalpha letter = true ∧
      (drivePath.map m.towupper = [letter] ∨ drivePath.map m.towupper = [letter, 0x3A]) ∧
        m.openDrive (drivePathOf letter) = .ok (device, fileSystemName) ∧ fsType = getFilesystemType fileSystemName := by
  unfold driveHandler at h
  split at h
  · cases h
  · cases h
  · rename_i path htype
    obtain ⟨-, letter, halpha, rfl, hpath⟩ := (determineDriveType_logical_iff _).mp htype
    split at h
    · cases h
    · rename_i device' name hopen
      split at h
      · cases h
      · cases h
        exact ⟨letter, name, halpha, hpath, hopen, rfl⟩

theorem withVolume_cases {V : Type} (volume : Except Abort V) (start : V → Outcome host) (st : RunState host) :
    (∃ abort, m.withVolume volume start st = (st, some abort)) ∨
      ∃ v, volume = .ok v ∧ m.withVolume volume start st = start v := by
  unfold withVolume
  split
  · cases volume with
    | error abort => exact .inl ⟨abort, rfl⟩
    | ok v => exact .inr ⟨v, rfl, rfl⟩
  · exact .inl ⟨_, rfl⟩

/-- A run on a drive leaves the files as they are, or it is a run of one of the engines. -/
theorem recoverDrive_cases (config : Config) (device : Device) (fsType : FilesystemType) (input : List UInt8)
    (st : RunState host) :
    (m.recoverDrive config device input st fsType).1 = st ∨
      ∃ ι, ∃ engine : Engine host config ι,
        m.recoverDrive config device input st fsType = engine.startRecovery .logical input st ∧
          ∀ recoveryList, engine.scan = .ok recoveryList → ∀ file ∈ recoveryList,
            m.Lists config device fsType (engine.fullName file) := by
  cases fsType with
  | fat32 =>
    rcases withVolume_cases (m := m) (FAT32.openVolume device m.pastEnd)
      (fun v => (FAT32.engine host config v m.iswalnum m.stack).startRecovery .logical input st) st with
      ⟨abort, h⟩ | ⟨v, hv, h⟩
    · exact .inl (congrArg Prod.fst h)
    · refine .inr ⟨_, FAT32.engine host config v m.iswalnum m.stack, h, fun recoveryList hlist info hinfo => ?_⟩
      obtain ⟨scan, hscan, rfl⟩ := FAT32.engine_scan hlist
      exact .fat32 hv hscan hinfo
  | exfat =>
    rcases withVolume_cases (m := m) (ExFAT.openVolume device m.pastEnd)
      (fun v => ExFAT.startRecovery host config v m.stack .logical input st) st with ⟨abort, h⟩ | ⟨v, hv, h⟩
    · exact .inl (congrArg Prod.fst h)
    · refine .inr ⟨_, ExFAT.engine host config v m.stack, h, fun recoveryList hlist info hinfo => ?_⟩
      obtain ⟨scan, hscan, rfl⟩ := ExFAT.engine_scan hlist
      exact .exfat hv hscan hinfo
  | ntfs =>
    rcases withVolume_cases (m := m) (NTFS.openVolume device)
      (fun v => NTFS.startRecovery host config v m.rounds .logical input st) st with ⟨abort, h⟩ | ⟨v, hv, h⟩
    · exact .inl (congrArg Prod.fst h)
    · refine .inr ⟨_, NTFS.engine host config v m.rounds, h, fun recoveryList hlist info hinfo => ?_⟩
      obtain ⟨scan, hscan, rfl⟩ := NTFS.engine_scan hlist
      exact .ntfs hv hscan hinfo
  | unknown => exact .inl rfl
  | ext4 => exact .inl rfl

theorem changed_by_recoverDrive {config : Config} {device : Device} {fsType : FilesystemType} {input : List UInt8}
    {st : RunState host} {f : host.File}
    (hf : (m.recoverDrive config device input st fsType).1.files.lookup f ≠ st.files.lookup f) :
    (config.createFileDataLog = true ∧ ∃ n, OutputName config.logFile n ∧ f = host.locate ⟨logFolderOf config, n⟩) ∨
      config.recover = true ∧ ∃ fullName, m.Lists config device fsType fullName ∧
        ∃ n, OutputName fullName n ∧ f = host.locate ⟨config.outputFolder, n⟩ := by
  rcases recoverDrive_cases config device fsType input st with hsame | ⟨ι, engine, hrun, hlists⟩
  · rw [hsame] at hf
    exact absurd rfl hf
  · rw [hrun] at hf
    refine (engine.changed_by_startRecovery hf).imp_right ?_
    rintro ⟨hrec, recoveryList, hscan, file, hfile, hout⟩
    exact ⟨hrec, engine.fullName file, hlists recoveryList hscan file hfile, hout⟩

/-- The command line was accepted and a drive opened, or nothing has been done. -/
theorem main_cases (args : List (List UInt8)) (input : List UInt8) (st : RunState host) :
    (m.main args input st).1 = st ∨
      ∃ options letter device fileSystemName, args = render options ∧ m.iswalpha letter = true ∧
        ((driveNamed m.multiByteToWideChar (options.map Prod.snd)).map m.towupper = [letter] ∨
          (driveNamed m.multiByteToWideChar (options.map Prod.snd)).map m.towupper = [letter, 0x3A]) ∧
        m.openDrive (drivePathOf letter) = .ok (device, fileSystemName) ∧
        m.main args input st =
          m.recoverDrive (settings m.multiByteToWideChar (options.map Prod.snd)).toConfig device input st
            (getFilesystemType fileSystemName) := by
  unfold main
  split
  · exact .inl rfl
  · rename_i config hparse
    obtain ⟨options, hargs, hdrive, rfl⟩ := exists_options_of_ok m.multiByteToWideChar hparse
    split
    · exact .inl rfl
    · rename_i device fsType hhandler
      obtain ⟨letter, name, halpha, hpath, hopen, rfl⟩ := driveHandler_ok hhandler
      exact .inr ⟨options, letter, device, name, hargs, halpha, hpath, hopen, rfl⟩

/-- A file that a command line lets the program create or change: the command line names a drive by its letter, and
the file is the log, unless that is switched off, or with `--recover` an output of a file listed on that drive. -/
def MayChange (m : Machine) (args : List (List UInt8)) (f : host.File) : Prop :=
  ∃ options letter device fileSystemName, args = render options ∧ m.iswalpha letter = true ∧
    ((driveNamed m.multiByteToWideChar (options.map Prod.snd)).map m.towupper = [letter] ∨
      (driveNamed m.multiByteToWideChar (options.map Prod.snd)).map m.towupper = [letter, 0x3A]) ∧
    m.openDrive (drivePathOf letter) = .ok (device, fileSystemName) ∧
    ((.noLog ∉ options.map Prod.snd ∧ ∃ n, OutputName (wide "FileDataLog.txt") n ∧
        f = host.locate ⟨wide "Recovered\\Log", n⟩) ∨
      .recover ∈ options.map Prod.snd ∧ ∃ fullName,
        m.Lists (settings m.multiByteToWideChar (options.map Prod.snd)).toConfig device
          (getFilesystemType fileSystemName) fullName ∧
        ∃ n, OutputName fullName n ∧ f = host.locate ⟨wide "Recovered", n⟩)

theorem changed_by_main {args : List (List UInt8)} {input : List UInt8} {st : RunState host} {f : host.File}
    (hf : (m.main args input st).1.files.lookup f ≠ st.files.lookup f) : MayChange m args f := by
  rcases main_cases (m := m) args input st with hsame | ⟨options, letter, device, name, hargs, halpha, hpath, hopen, hrun⟩
  · rw [hsame] at hf
    exact absurd rfl hf
  · rw [hrun] at hf
    refine ⟨options, letter, device, name, hargs, halpha, hpath, hopen, (changed_by_recoverDrive hf).imp ?_ ?_⟩
    · rintro ⟨hlog, hout⟩
      exact ⟨by simpa [settings] using hlog, hout⟩
    · rintro ⟨hrec, hout⟩
      exact ⟨by simpa [settings] using hrec, hout⟩

def smallArgs : List (List UInt8) := [narrow "-d", narrow "F", narrow "-r"]

def smallOutput : Path := ⟨wide "Recovered", wide "_.bin"⟩

theorem changed_by_main_small : @MayChange plainHost small smallArgs smallOutput := by
  have hchanged : (small.main smallArgs [byte '1'] { files := (∅ : Files plainHost) }).1.files.lookup smallOutput ≠
      (∅ : Files plainHost).lookup smallOutput := fun h =>
    absurd (congrArg Option.isSome h) (by decide +kernel)
  exact changed_by_main hchanged

theorem dotted_of_lists_fat32 {config : Config} {device : Device} {fullName : WString}
    (h : m.Lists config device .fat32 fullName) : Dotted fullName := by
  cases h with
  | fat32 _ hscan hinfo => exact FAT32.dotted_of_scan hscan hinfo

/-- A run keeps every file of the host, where the names listed on drives that are not FAT32 ones are dotted. -/
theorem main_keeps_files
    (hdotted : ∀ path device fileSystemName, m.openDrive path = .ok (device, fileSystemName) →
      fileSystemName ≠ wide "FAT32" → ∀ config fullName,
        m.Lists config device (getFilesystemType fileSystemName) fullName → Dotted fullName)
    (args : List (List UInt8)) (input : List UInt8) (st : RunState host) :
    Keeps st.files (m.main args input st).1.files := by
  rcases main_cases (m := m) args input st with hsame | ⟨options, letter, device, name, -, -, -, hopen, hrun⟩
  · rw [hsame]
    exact Keeps.refl _
  · rw [hrun]
    rcases recoverDrive_cases (m := m) (settings m.multiByteToWideChar (options.map Prod.snd)).toConfig device
      (getFilesystemType name) input st with hsame | ⟨ι, engine, hengine, hlists⟩
    · rw [hsame]
      exact Keeps.refl _
    · rw [hengine]
      refine engine.keeps_startRecovery (fun recoveryList hscan file hfile => ?_) input st
      have hlisted := hlists recoveryList hscan file hfile
      by_cases hname : name = wide "FAT32"
      · rw [hname] at hlisted
        exact dotted_of_lists_fat32 hlisted
      · exact hdotted _ device name hopen hname _ _ hlisted

/-- An NTFS drive with two deleted files `a.b`. -/
def dottedDrive : Device where
  readSector :=
    (Device.ofSectors [(0, NTFS.bootContent 0xF6), (32, NTFS.dottedRecord [1, 2, 3, 4, 5]),
      (34, NTFS.dottedRecord [6, 7, 8])] 512).readSector
  getBytesPerSector := 512
  getTotalMftRecords := 2
  length_of_read := Device.length_of_read _

def dotted : Machine := { small with openDrive := fun _ => .ok (dottedDrive, wide "NTFS"), rounds := 3 }

def dottedOutput : Path := ⟨wide "Recovered", wide "a.b"⟩

theorem dottedDrive_lists {config : Config} {fullName : WString}
    (h : dotted.Lists config dottedDrive .ntfs fullName) : Dotted fullName := by
  have hboot : NTFS.readBootSector dottedDrive = .ok (NTFS.driveOf (.ofBytes (NTFS.bootContent 0xF6)) 1024) :=
    NTFS.readBootSector_bootContent rfl (by decide +kernel)
  have hnames : (NTFS.scanMFT ⟨dottedDrive, NTFS.driveOf (.ofBytes (NTFS.bootContent 0xF6)) 1024⟩ 3 {}).map
      (fun st => st.recoveryList.map NTFS.FileInfo.fileName) = .ok [wide "a.b", wide "a.b"] := by decide +kernel
  cases h with
  | @ntfs _ scan info hvolume hscan hinfo =>
    rw [NTFS.openVolume, hboot] at hvolume
    cases hvolume
    rw [show NTFS.scanMFT _ 3 {} = .ok scan from hscan] at hnames
    have hlist : scan.recoveryList.map NTFS.FileInfo.fileName = List.replicate 2 (wide "a.b") := Except.ok.inj hnames
    exact dotted_of_names ⟨0, by decide⟩ hlist hinfo

/-- The name of one output is taken: the outputs of the two files are put beside it. -/
theorem main_keeps_files_small :
    let files := (∅ : Files plainHost).write dottedOutput (.data [1])
    Keeps files (dotted.main smallArgs [byte '1'] { files }).1.files ∧
      (dotted.main smallArgs [byte '1'] { files }).1.files.exists ⟨wide "Recovered", wide "a_2.b"⟩ = true := by
  have hdotted : ∀ path device fileSystemName, dotted.openDrive path = .ok (device, fileSystemName) →
      fileSystemName ≠ wide "FAT32" → ∀ config fullName,
        dotted.Lists config device (getFilesystemType fileSystemName) fullName → Dotted fullName := by
    intro path device fileSystemName hopen _ config fullName hlists
    cases hopen
    exact dottedDrive_lists hlists
  refine ⟨?_, ?_⟩
  · exact main_keeps_files hdotted smallArgs [byte '1'] { files := (∅ : Files plainHost).write dottedOutput (.data [1]) }
  · decide +kernel

end Machine

end DataRecovery
