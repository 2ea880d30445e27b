import DataRecovery.NTFS.Streams

/-!
# Which name is listed

A record can hold several `$FILE_NAME` attributes, one of them for DOS alone. The engine
does not read their types: the last name of the record is listed, whatever its type.
-/

namespace DataRecovery.NTFS

structure StoredName where
  dosOnly : Bool
  text : WString
  deriving DecidableEq

/-- Whether the `nameType` of a resident `$FILE_NAME` is 2. The engine never reads it. -/
def isDosOnly (b : ByteMap) (attr : Nat) : Bool :=
  match readU16 b (attr + 20) with
  | .ok contentOffset => b (attr + contentOffset.toNat + 65) == some 2
  | .error _ => false

def storedNames (b : ByteMap) (attrs : List (UInt32 × Nat)) (attributes : List Attribute) : List StoredName :=
  (attrs.zip attributes).filterMap fun a => a.2.name.map fun text => { dosOnly := isDosOnly b a.1.2, text }

def HasWin32Name (names : List StoredName) : Prop := ∃ n ∈ names, n.dosOnly = false

def LastNameWin32 (names : List StoredName) : Prop :=
  ∀ last, names.getLast? = some last → last.dosOnly = false ∨ ∃ n ∈ names, n.dosOnly = false ∧ n.text = last.text

section
variable {drive : DriveInfo} {b : ByteMap}

theorem length_readAttributes : ∀ {attrs : List (UInt32 × Nat)} {attributes : List Attribute},
    readAttributes drive b attrs = .ok attributes → attributes.length = attrs.length
  | [], attributes, h => by
    cases h
    rfl
  | a :: attrs, attributes, h => by
    unfold readAttributes at h
    rw [List.mapM_cons] at h
    obtain ⟨x, -, h⟩ := Except.bind_ok h
    obtain ⟨xs, hxs, h⟩ := Except.bind_ok h
    cases h
    rw [List.length_cons, List.length_cons, length_readAttributes hxs]

theorem map_text_storedNames : ∀ {attrs : List (UInt32 × Nat)} {attributes : List Attribute},
    attributes.length = attrs.length →
      (storedNames b attrs attributes).map StoredName.text = attributes.filterMap Attribute.name
  | [], [], _ => rfl
  | a :: attrs, x :: attributes, h => by
    have ih := @map_text_storedNames attrs attributes (Nat.succ.inj h)
    unfold storedNames at ih ⊢
    rw [List.zip_cons_cons, List.filterMap_cons, List.filterMap_cons]
    cases x.name with
    | none => exact ih
    | some text => exact congrArg (text :: ·) ih

theorem lastName_eq {attrs : List (UInt32 × Nat)} {attributes : List Attribute}
    (h : attributes.length = attrs.length) :
    lastName attributes = ((storedNames b attrs attributes).getLast?.map StoredName.text).getD [] := by
  rw [lastName, ← map_text_storedNames h, List.getLast?_map]

end

theorem lastNameWin32_iff {names : List StoredName} (h : HasWin32Name names) :
    LastNameWin32 names ↔ ∃ n ∈ names, n.dosOnly = false ∧ n.text = (names.getLast?.map StoredName.text).getD [] := by
  obtain ⟨name, hwin32, -⟩ := h
  cases hlast : names.getLast? with
  | none => rw [List.getLast?_eq_none_iff.mp hlast] at hwin32; cases hwin32
  | some last =>
    have hmem := List.mem_of_getLast? hlast
    constructor
    · intro h
      rcases h last hlast with hdos | hsame
      · exact ⟨last, hmem, hdos, rfl⟩
      · exact hsame
    · intro h last' hlast'
      cases hlast.symm.trans hlast'
      exact .inr h

section
variable {drive : DriveInfo} {b : ByteMap} {attrs : List (UInt32 × Nat)} (h : DeletedRecord drive b attrs)
  {attributes : List Attribute} (hd : readAttributes drive b attrs = .ok attributes)
  {rounds : Nat} (hr : attrs.length < rounds) (st : ScanState)
include h hd hr

/-- The listed item has a name of a Win32 or POSIX type, if the record has one, exactly
when the last name is one or has the text of one. -/
theorem win32_name_listed_iff :
    ∃ st', processMftRecord drive b rounds st = .ok st' ∧
      ((∀ item, st'.recoveryList = st.recoveryList ++ [item] → HasWin32Name (storedNames b attrs attributes) →
          ∃ n ∈ storedNames b attrs attributes, n.dosOnly = false ∧ n.text = item.fileName) ↔
        (Listable attributes → HasWin32Name (storedNames b attrs attributes) →
          LastNameWin32 (storedNames b attrs attributes))) := by
  refine ⟨finishRecord (storeAll st.fileId attributes) st, ?_, ?_⟩
  · rw [processMftRecord_eq h hr, hd]
    rfl
  · have hname : (storeAll st.fileId attributes).fileInfo.fileName =
        ((storedNames b attrs attributes).getLast?.map StoredName.text).getD [] := by
      rw [storeAll_fileName, lastName_eq (b := b) (length_readAttributes hd)]
    rw [finishRecord_storeAll, ← validate_storeAll st.fileId]
    by_cases hvalid : validateFileInfo (storeAll st.fileId attributes).fileInfo = true
    · simp only [hvalid, if_true, addToRecoveryList, List.append_cancel_left_eq, List.cons.injEq, and_true,
        forall_eq', true_imp_iff, hname]
      exact imp_congr_right fun hwin32 => (lastNameWin32_iff hwin32).symm
    · simp [hvalid]

end

/-! ## Two names -/

def rawDosName (c : UInt8) : List UInt8 := rawResident 0x30 [] (leBytes 64 0 ++ [1, 2, c, 0])

def twoNames (first second : List UInt8) : ByteMap := ofBuffer (rawRecord (first ++ second ++ mainStream))

theorem dosName_first_listed :
    ∃ st', processMftRecord smallDrive (twoNames (rawDosName 0x42) (rawFileName 0x41)) 4 {} = .ok st' ∧
      ∀ item, st'.recoveryList = [] ++ [item] → item.fileName = [0x41] := by
  have hrecord : DeletedRecord smallDrive (twoNames (rawDosName 0x42) (rawFileName 0x41))
      [(0x30, 56), (0x30, 148), (0x80, 240)] :=
    ⟨rfl, ⟨0, rfl, rfl⟩, ⟨56, rfl, visits_of_visited 4 56 _ (by decide +kernel)⟩⟩
  have hattributes : readAttributes smallDrive (twoNames (rawDosName 0x42) (rawFileName 0x41))
      [(0x30, 56), (0x30, 148), (0x80, 240)] = .ok
        [.fileName (some [0x42]), .fileName (some [0x41]), .data false (.resident 3 [1, 2, 3])] := by
    decide +kernel
  have hnames : storedNames (twoNames (rawDosName 0x42) (rawFileName 0x41)) [(0x30, 56), (0x30, 148), (0x80, 240)]
      [.fileName (some [0x42]), .fileName (some [0x41]), .data false (.resident 3 [1, 2, 3])] =
        [⟨true, [0x42]⟩, ⟨false, [0x41]⟩] := by
    decide +kernel
  obtain ⟨st', hst', hiff⟩ := win32_name_listed_iff hrecord hattributes (show 3 < 4 by decide) {}
  rw [hnames] at hiff
  refine ⟨st', hst', fun item hitem => ?_⟩
  obtain ⟨n, hn, hdos, htext⟩ := hiff.mpr (fun _ _ last hlast => .inl (by cases hlast; rfl)) item hitem
    ⟨_, List.mem_cons_of_mem _ (List.mem_singleton_self _), rfl⟩
  rcases List.mem_cons.mp hn with rfl | hn
  · cases hdos
  · rw [List.mem_singleton.mp hn] at htext
    exact htext.symm

/-- The name "A" of any type, then the name "B" for DOS. -/
theorem dosName_last_listed :
    ¬ ∀ (drive : DriveInfo) (b : ByteMap) (attrs : List (UInt32 × Nat)) (attributes : List Attribute)
        (rounds : Nat) (st st' : ScanState) (item : FileInfo), DeletedRecord drive b attrs →
      readAttributes drive b attrs = .ok attributes → processMftRecord drive b rounds st = .ok st' →
      st'.recoveryList = st.recoveryList ++ [item] → HasWin32Name (storedNames b attrs attributes) →
      ∃ n ∈ storedNames b attrs attributes, n.dosOnly = false ∧ n.text = item.fileName := by
  intro h
  have hrecord : DeletedRecord smallDrive (twoNames (rawFileName 0x41) (rawDosName 0x42))
      [(0x30, 56), (0x30, 148), (0x80, 240)] :=
    ⟨rfl, ⟨0, rfl, rfl⟩, ⟨56, rfl, visits_of_visited 4 56 _ (by decide +kernel)⟩⟩
  have hnames : storedNames (twoNames (rawFileName 0x41) (rawDosName 0x42)) [(0x30, 56), (0x30, 148), (0x80, 240)]
      [.fileName (some [0x41]), .fileName (some [0x42]), .data false (.resident 3 [1, 2, 3])] =
        [⟨false, [0x41]⟩, ⟨true, [0x42]⟩] := by
    decide +kernel
  have hlisted := h smallDrive _ _
    [.fileName (some [0x41]), .fileName (some [0x42]), .data false (.resident 3 [1, 2, 3])] 4 {}
    ⟨2, [{ fileName := [0x42], fileId := 1, fileSize := 3, data := [1, 2, 3] }]⟩ _ hrecord (by decide +kernel)
    (by decide +kernel) rfl
  rw [hnames] at hlisted
  obtain ⟨n, hn, hdos, htext⟩ := hlisted ⟨_, List.mem_cons_self .., rfl⟩
  rcases List.mem_cons.mp hn with rfl | hn
  · cases htext
  · rw [List.mem_singleton.mp hn] at hdos
    cases hdos

end DataRecovery.NTFS
