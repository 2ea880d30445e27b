import DataRecovery.Folds
import DataRecovery.NTFS.Attributes

/-!
# Which stream is listed

The engine does not tell the unnamed stream of a file from named ones: all `$DATA`
attributes store into one file info. The listed content is that of the unnamed
stream when the last values written are its values.
-/

namespace DataRecovery.NTFS

/-! ## The fields of the file info -/

namespace Content

def size : Content → UInt64
  | .resident contentLength _ => contentLength
  | .nonResident realSize _ => realSize

/-- A non-resident attribute without a run leaves the flag as it is. -/
def residency : Content → Option Bool
  | .resident _ _ => some false
  | .nonResident _ runs => if runs = [] then none else some true

def lastRun : Content → Option (UInt64 × UInt64)
  | .resident _ _ => none
  | .nonResident _ runs => runs.getLast?

def bytes : Content → Option (List UInt8)
  | .resident _ data => some data
  | .nonResident _ _ => none

end Content

def Attribute.content : Attribute → Option Content
  | .data _ content => some content
  | _ => none

def Attribute.name : Attribute → Option WString
  | .fileName name => name
  | _ => none

def contents (attributes : List Attribute) : List Content := attributes.filterMap Attribute.content

def mainStreams (attributes : List Attribute) : List Content :=
  attributes.filterMap fun
    | .data false content => some content
    | _ => none

/-- The value the last of the contents that has one leaves. -/
def lastOf {β : Type} (field : Content → Option β) (initial : β) (cs : List Content) : β :=
  (cs.filterMap field).getLast?.getD initial

def FileInfo.content (info : FileInfo) : UInt64 × Bool × (UInt64 × UInt64) × List UInt8 :=
  (info.fileSize, info.nonResident, (info.cluster, info.runLength), info.data)

theorem foldl_setRun (runs : List (UInt64 × UInt64)) (info : FileInfo) :
    runs.foldl FileInfo.setRun info =
      match runs.getLast? with
      | some run => { info with cluster := run.1, runLength := run.2, nonResident := true }
      | none => info := by
  induction runs generalizing info with
  | nil => rfl
  | cons run runs ih =>
    rw [List.foldl_cons, ih, List.getLast?_cons]
    cases runs.getLast? with
    | none => rfl
    | some last => rfl

theorem store_fileSize (c : Content) (info : FileInfo) : (c.store info).fileSize = c.size := by
  cases c with
  | resident contentLength data => rfl
  | nonResident realSize runs =>
    simp only [Content.store, foldl_setRun, Content.size]
    cases runs.getLast? <;> rfl

theorem store_nonResident (c : Content) (info : FileInfo) :
    (c.store info).nonResident = c.residency.getD info.nonResident := by
  cases c with
  | resident contentLength data => rfl
  | nonResident realSize runs =>
    simp only [Content.store, foldl_setRun, Content.residency]
    by_cases h : runs = []
    · simp [h]
    · simp [List.getLast?_eq_getLast_of_ne_nil h, h]

theorem store_run (c : Content) (info : FileInfo) :
    ((c.store info).cluster, (c.store info).runLength) = c.lastRun.getD (info.cluster, info.runLength) := by
  cases c with
  | resident contentLength data => rfl
  | nonResident realSize runs =>
    simp only [Content.store, foldl_setRun, Content.lastRun]
    cases runs.getLast? <;> rfl

theorem store_data (c : Content) (info : FileInfo) : (c.store info).data = c.bytes.getD info.data := by
  cases c with
  | resident contentLength data => rfl
  | nonResident realSize runs =>
    simp only [Content.store, foldl_setRun, Content.bytes]
    cases runs.getLast? <;> rfl

theorem store_fileName (c : Content) (info : FileInfo) : (c.store info).fileName = info.fileName := by
  cases c with
  | resident contentLength data => rfl
  | nonResident realSize runs =>
    simp only [Content.store, foldl_setRun]
    cases runs.getLast? <;> rfl

/-! ## The item of a record -/

def lastName (attributes : List Attribute) : WString := (attributes.filterMap Attribute.name).getLast?.getD []

structure Listable (attributes : List Attribute) : Prop where
  named : lastName attributes ≠ []
  sized : lastOf (fun c => some c.size) 0 (contents attributes) ≠ 0
  stored :
    if lastOf Content.residency false (contents attributes) then
      (lastOf Content.lastRun (0, 0) (contents attributes)).1 ≠ 0 ∧
        (lastOf Content.lastRun (0, 0) (contents attributes)).2 ≠ 0
    else lastOf Content.bytes [] (contents attributes) ≠ []

section
variable (fileId : UInt16) (attributes : List Attribute)

theorem storeAll_field {β : Type} (get : FileInfo → β) (field : Content → Option β)
    (hname : ∀ info name fileId, get { info with fileName := name, fileId } = get info)
    (hstore : ∀ (c : Content) info, get (c.store info) = (field c).getD (get info)) :
    get (storeAll fileId attributes).fileInfo = lastOf field (get {}) (contents attributes) := by
  have h := foldl_get (Attribute.store fileId) (fun p => get p.fileInfo) (fun a => a.content.bind field)
    (fun a p => by
      cases a with
      | fileName name =>
        cases name with
        | none => rfl
        | some name => exact hname p.fileInfo name fileId
      | data named c => exact hstore c p.fileInfo
      | other => rfl)
    attributes {}
  rw [← List.filterMap_filterMap] at h
  exact h

theorem storeAll_content : (storeAll fileId attributes).fileInfo.content =
    (lastOf (fun c => some c.size) 0 (contents attributes), lastOf Content.residency false (contents attributes),
      lastOf Content.lastRun (0, 0) (contents attributes), lastOf Content.bytes [] (contents attributes)) := by
  have hsize := storeAll_field fileId attributes FileInfo.fileSize (fun c => some c.size) (fun _ _ _ => rfl)
    store_fileSize
  have hflag := storeAll_field fileId attributes FileInfo.nonResident _ (fun _ _ _ => rfl) store_nonResident
  have hrun := storeAll_field fileId attributes (fun info => (info.cluster, info.runLength)) _ (fun _ _ _ => rfl)
    store_run
  have hdata := storeAll_field fileId attributes FileInfo.data _ (fun _ _ _ => rfl) store_data
  simp only at hrun
  simp only [FileInfo.content, hsize, hflag, hrun, hdata]

theorem storeAll_fileName : (storeAll fileId attributes).fileInfo.fileName = lastName attributes := by
  refine foldl_get (Attribute.store fileId) (fun p => p.fileInfo.fileName) Attribute.name (fun a p => ?_) attributes {}
  cases a with
  | fileName name => cases name <;> rfl
  | data named c => exact store_fileName c p.fileInfo
  | other => rfl

theorem hasFileName_of_named : (storeAll fileId attributes).fileInfo.fileName ≠ [] →
    (storeAll fileId attributes).hasFileName = true := by
  refine List.foldlRecOn (motive := fun p : Progress => p.fileInfo.fileName ≠ [] → p.hasFileName = true)
    attributes _ (fun h => absurd rfl h) fun p hp a _ => ?_
  cases a with
  | fileName name => cases name <;> exact fun _ => rfl
  | data named c =>
    show (c.store p.fileInfo).fileName ≠ [] → p.hasFileName = true
    rw [store_fileName]
    exact hp
  | other => exact hp

theorem validateFileInfo_iff (info : FileInfo) : validateFileInfo info = true ↔
    info.fileName ≠ [] ∧ info.fileSize ≠ 0 ∧
      if info.nonResident then info.cluster ≠ 0 ∧ info.runLength ≠ 0 else info.data ≠ [] := by
  unfold validateFileInfo
  by_cases hname : info.fileName = []
  · simp [hname]
  · by_cases hsize : info.fileSize = 0
    · simp [hname, hsize]
    · cases hflag : info.nonResident <;> simp [hname, hsize]

theorem validate_storeAll : validateFileInfo (storeAll fileId attributes).fileInfo = true ↔ Listable attributes := by
  have h := storeAll_content fileId attributes
  simp only [FileInfo.content, Prod.mk.injEq] at h
  obtain ⟨hsize, hflag, hrun, hdata⟩ := h
  rw [validateFileInfo_iff, storeAll_fileName, hsize, hflag, hdata]
  constructor
  · rintro ⟨h1, h2, h3⟩
    exact ⟨h1, h2, by rw [← hrun]; exact h3⟩
  · rintro ⟨h1, h2, h3⟩
    exact ⟨h1, h2, by rw [← hrun] at h3; exact h3⟩

theorem finishRecord_storeAll (st : ScanState) :
    finishRecord (storeAll fileId attributes) st =
      if validateFileInfo (storeAll fileId attributes).fileInfo then
        addToRecoveryList (storeAll fileId attributes).fileInfo st
      else st := by
  unfold finishRecord
  by_cases hvalid : validateFileInfo (storeAll fileId attributes).fileInfo = true
  · have hname := hasFileName_of_named fileId attributes ((validateFileInfo_iff _).mp hvalid).1
    simp [hname, hvalid]
  · simp [hvalid]

end

/-! ## The main stream -/

/-- For each field the value written last is the one `main` leaves alone. -/
structure MainWins (cs : List Content) (main : Content) : Prop where
  size : lastOf (fun c => some c.size) 0 cs = main.size
  residency : lastOf Content.residency false cs = main.residency.getD false
  run : lastOf Content.lastRun (0, 0) cs = main.lastRun.getD (0, 0)
  data : lastOf Content.bytes [] cs = main.bytes.getD []

theorem content_eq_iff (fileId : UInt16) (attributes : List Attribute) (main : Content) :
    (storeAll fileId attributes).fileInfo.content = (main.store {}).content ↔
      MainWins (contents attributes) main := by
  have hrun := store_run main {}
  simp only at hrun
  rw [storeAll_content]
  simp only [FileInfo.content, store_fileSize, store_nonResident, hrun, store_data, Prod.mk.injEq]
  exact ⟨fun ⟨h1, h2, h3, h4⟩ => ⟨h1, h2, h3, h4⟩, fun ⟨h1, h2, h3, h4⟩ => ⟨h1, h2, h3, h4⟩⟩

section
variable {drive : DriveInfo} {b : ByteMap} {attrs : List (UInt32 × Nat)} (h : DeletedRecord drive b attrs)
  {attributes : List Attribute} (hd : readAttributes drive b attrs = .ok attributes)
  {rounds : Nat} (hr : attrs.length < rounds) (st : ScanState)
include h hd hr

/-- The item is the unnamed stream's, or there is none without an unnamed stream, when the
values written last are the unnamed stream's, or make no file. -/
theorem main_stream_listed_iff :
    ∃ st', processMftRecord drive b rounds st = .ok st' ∧
      (∀ main, mainStreams attributes = [main] →
        ((∀ item, st'.recoveryList = st.recoveryList ++ [item] → item.content = (main.store {}).content) ↔
          (Listable attributes → MainWins (contents attributes) main))) ∧
      (mainStreams attributes = [] → (st'.recoveryList = st.recoveryList ↔ ¬ Listable attributes)) := by
  refine ⟨finishRecord (storeAll st.fileId attributes) st, ?_, ?_, ?_⟩
  · rw [processMftRecord_eq h hr, hd]
    rfl
  · intro main _
    rw [finishRecord_storeAll, ← validate_storeAll st.fileId, ← content_eq_iff st.fileId]
    by_cases hvalid : validateFileInfo (storeAll st.fileId attributes).fileInfo = true
    · simp [hvalid, addToRecoveryList]
    · simp [hvalid]
  · intro _
    rw [finishRecord_storeAll, ← validate_storeAll st.fileId]
    by_cases hvalid : validateFileInfo (storeAll st.fileId attributes).fileInfo = true
    · simp [hvalid, addToRecoveryList]
    · simp [hvalid]

end

def mainStream : List UInt8 := rawResident 0x80 [] [1, 2, 3]

def namedStream : List UInt8 := rawResident 0x80 [0x53] [9]

def twoStreams (first second : List UInt8) : ByteMap := ofBuffer (rawRecord (rawFileName 0x41 ++ first ++ second))

theorem twoStreams_deleted {first second : List UInt8}
    (h : visited smallDrive (twoStreams first second) 4 56 = .ok [(0x30, 56), (0x80, 148), (0x80, 175)]) :
    DeletedRecord smallDrive (twoStreams first second) [(0x30, 56), (0x80, 148), (0x80, 175)] where
  signature := rfl
  deleted := ⟨0, rfl, rfl⟩
  walk := ⟨56, rfl, visits_of_visited 4 56 _ h⟩

theorem mainStream_listed :
    ∃ st', processMftRecord smallDrive (twoStreams namedStream mainStream) 4 {} = .ok st' ∧
      ∀ item, st'.recoveryList = [] ++ [item] → item.content = (3, false, (0, 0), [1, 2, 3]) := by
  have hrecord : DeletedRecord smallDrive (twoStreams namedStream mainStream) _ :=
    twoStreams_deleted (by decide +kernel)
  have hattributes : readAttributes smallDrive (twoStreams namedStream mainStream)
      [(0x30, 56), (0x80, 148), (0x80, 175)] = .ok
        [.fileName (some [0x41]), .data true (.resident 1 [9]), .data false (.resident 3 [1, 2, 3])] := by
    decide +kernel
  obtain ⟨st', hst', hmain, -⟩ := main_stream_listed_iff hrecord hattributes (show 3 < 4 by decide) {}
  exact ⟨st', hst', (hmain (.resident 3 [1, 2, 3]) rfl).mpr fun _ => ⟨rfl, rfl, rfl, rfl⟩⟩

theorem main_stream_replaced :
    ¬ ∀ (drive : DriveInfo) (b : ByteMap) (attrs : List (UInt32 × Nat)) (attributes : List Attribute)
        (rounds : Nat) (st st' : ScanState), DeletedRecord drive b attrs →
      readAttributes drive b attrs = .ok attributes → processMftRecord drive b rounds st = .ok st' →
      (∀ main, mainStreams attributes = [main] → ∀ item, st'.recoveryList = st.recoveryList ++ [item] →
        item.content = (main.store {}).content) ∧
      (mainStreams attributes = [] → st'.recoveryList = st.recoveryList) := by
  intro h
  have hitem := (h smallDrive (twoStreams mainStream namedStream) [(0x30, 56), (0x80, 148), (0x80, 175)]
    [.fileName (some [0x41]), .data false (.resident 3 [1, 2, 3]), .data true (.resident 1 [9])] 4 {}
    ⟨2, [{ fileName := [0x41], fileId := 1, fileSize := 1, data := [9] }]⟩ (twoStreams_deleted (by decide +kernel))
    (by decide +kernel) (by decide +kernel)).1 (.resident 3 [1, 2, 3]) rfl _ rfl
  exact absurd hitem (by decide)

end DataRecovery.NTFS
