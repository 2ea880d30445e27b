import DataRecovery.FileIds
import DataRecovery.Journal
import DataRecovery.NTFS.ScanEnds

/-!
# What the MFT scan lists

A scan that ends lists one file for each deleted record that can be read and makes a file, in
the order of the MFT. The buffer that the records share leaves no trace in the list: of each
file, every field is what the attributes of its own record say last.
-/

namespace DataRecovery.NTFS

section
variable (drive : DriveInfo) (record : List UInt8)

def HasAttributes (attributes : List Attribute) : Prop :=
  ∃ attrs, DeletedRecord drive (ofBuffer record) attrs ∧ readAttributes drive (ofBuffer record) attrs = .ok attributes

def HoldsFile : Prop := ∃ attributes, HasAttributes drive record attributes ∧ Listable attributes

/-- The file has its name, and the value of each other field, from the last attribute of the record that has one. -/
def Describes (info : FileInfo) : Prop :=
  ∃ attributes, HasAttributes drive record attributes ∧ info.fileName = lastName attributes ∧
    info.content = (lastOf (fun c => some c.size) 0 (contents attributes),
      lastOf Content.residency false (contents attributes), lastOf Content.lastRun (0, 0) (contents attributes),
      lastOf Content.bytes [] (contents attributes))

end

/-! ## One record -/

section
variable {drive : DriveInfo} {b : ByteMap}

theorem visits_unique {off : UInt32} {attrs attrs' : List (UInt32 × Nat)} (h : Visits drive b off attrs)
    (h' : Visits drive b off attrs') : attrs = attrs' := by
  induction h generalizing attrs' with
  | past hoff =>
    cases h' with
    | past => rfl
    | marker hin | stop hin | next hin => exact absurd hin hoff
  | marker hoff htype =>
    cases h' with
    | past hout => exact absurd hoff hout
    | marker => rfl
    | stop _ htype' hne | next _ htype' hne => exact absurd (Except.ok.inj (htype'.symm.trans htype)) hne
  | stop hoff htype hne hlength hstop =>
    cases h' with
    | past hout => exact absurd hoff hout
    | marker => rfl
    | stop => rfl
    | next _ _ _ hlength' hstop' =>
      obtain rfl := Except.ok.inj (hlength'.symm.trans hlength)
      rw [hstop] at hstop'
      cases hstop'
  | next hoff htype hne hlength hstop hrest ih =>
    cases h' with
    | past hout => exact absurd hoff hout
    | marker _ htype' => exact absurd (Except.ok.inj (htype.symm.trans htype')) hne
    | stop _ _ _ hlength' hstop' =>
      obtain rfl := Except.ok.inj (hlength'.symm.trans hlength)
      rw [hstop] at hstop'
      cases hstop'
    | next _ htype' _ hlength' _ hrest' =>
      obtain rfl := Except.ok.inj (htype'.symm.trans htype)
      obtain rfl := Except.ok.inj (hlength'.symm.trans hlength)
      rw [ih hrest']

theorem visits_of_processAttribute {fileId : UInt16} : ∀ {rounds : Nat} {off : UInt32} {p p' : Progress},
    processAttribute drive b fileId rounds off p = .ok p' →
      ∃ attrs attributes, Visits drive b off attrs ∧ attrs.length < rounds ∧ readAttributes drive b attrs = .ok attributes
  | rounds + 1, off, p, p', h => by
    unfold processAttribute at h
    by_cases hoff : off < drive.mftRecordSize
    · rw [if_pos hoff] at h
      obtain ⟨type, htype, h⟩ := Except.bind_ok h
      by_cases hmarker : type = END_MARKER
      · exact ⟨[], [], .marker hoff (hmarker ▸ htype), Nat.succ_pos _, rfl⟩
      · rw [if_neg hmarker] at h
        obtain ⟨length, hlength, h⟩ := Except.bind_ok h
        by_cases hstop : stopsAt drive off length = true
        · exact ⟨[], [], .stop hoff htype hmarker hlength hstop, Nat.succ_pos _, rfl⟩
        · rw [if_neg hstop, visitAttribute_eq] at h
          obtain ⟨p'', hvisit, h⟩ := Except.bind_ok h
          obtain ⟨a, ha, -⟩ := Except.bind_ok hvisit
          obtain ⟨attrs, attributes, hvisits, hlt, hread⟩ := visits_of_processAttribute h
          refine ⟨(type, off.toNat) :: attrs, a :: attributes,
            .next hoff htype hmarker hlength (Bool.eq_false_iff.mpr hstop) hvisits, Nat.succ_lt_succ hlt, ?_⟩
          unfold readAttributes at hread ⊢
          rw [List.mapM_cons, ha, ok_bind, hread, ok_bind]
          rfl
    · exact ⟨[], [], .past hoff, Nat.succ_pos _, rfl⟩

/-- A record that the scan gets through either is no deleted one, or its attributes can be read, in few enough rounds. -/
theorem attributes_of_processMftRecord {rounds : Nat} {st st' : ScanState}
    (h : processMftRecord drive b rounds st = .ok st') :
    (∀ attrs, ¬ DeletedRecord drive b attrs) ∧ st' = st ∨
      ∃ attrs attributes, DeletedRecord drive b attrs ∧ attrs.length < rounds ∧
        readAttributes drive b attrs = .ok attributes := by
  unfold processMftRecord at h
  obtain ⟨signature, hsignature, h⟩ := Except.bind_ok h
  by_cases hfile : signature ≠ FILE_SIGNATURE
  · rw [if_pos hfile] at h
    refine .inl ⟨fun attrs hrecord => ?_, (Except.ok.inj h).symm⟩
    exact hfile (Except.ok.inj (hsignature.symm.trans hrecord.signature))
  · rw [if_neg hfile] at h
    obtain ⟨flags, hflags, h⟩ := Except.bind_ok h
    by_cases hused : flags &&& 1 ≠ 0
    · rw [if_pos hused] at h
      refine .inl ⟨fun attrs hrecord => ?_, (Except.ok.inj h).symm⟩
      obtain ⟨flags', hflags', hdel⟩ := hrecord.deleted
      obtain rfl := Except.ok.inj (hflags'.symm.trans hflags)
      exact hused hdel
    · rw [if_neg hused] at h
      obtain ⟨first, hfirst, h⟩ := Except.bind_ok h
      obtain ⟨p, hp, -⟩ := Except.bind_ok h
      obtain ⟨attrs, attributes, hvisits, hlt, hread⟩ := visits_of_processAttribute hp
      refine .inr ⟨attrs, attributes, ⟨?_, ⟨flags, hflags, not_not.mp hused⟩, first, hfirst, hvisits⟩, hlt, hread⟩
      rw [hsignature, not_not.mp hfile]

theorem deletedRecord_unique {attrs attrs' : List (UInt32 × Nat)} (h : DeletedRecord drive b attrs)
    (h' : DeletedRecord drive b attrs') : attrs = attrs' := by
  obtain ⟨first, hfirst, hvisits⟩ := h.walk
  obtain ⟨first', hfirst', hvisits'⟩ := h'.walk
  obtain rfl := Except.ok.inj (hfirst'.symm.trans hfirst)
  exact visits_unique hvisits hvisits'

theorem hasAttributes_unique {record : List UInt8} {attributes attributes' : List Attribute}
    (h : HasAttributes drive record attributes) (h' : HasAttributes drive record attributes') :
    attributes = attributes' := by
  obtain ⟨attrs, hrecord, hread⟩ := h
  obtain ⟨attrs', hrecord', hread'⟩ := h'
  obtain rfl := deletedRecord_unique hrecord hrecord'
  exact Except.ok.inj (hread.symm.trans hread')

/-- What the scan makes of a record that it gets through. -/
theorem recordFile_cases {record : List UInt8} (hlen : record.length = drive.mftRecordSize.toNat) {rounds : Nat}
    (hends : RecordEnds drive record rounds) :
    ¬ HoldsFile drive record ∧ recordFile drive (ofBuffer record) rounds = none ∨
      ∃ info, HoldsFile drive record ∧ recordFile drive (ofBuffer record) rounds = some info ∧ Describes drive record info := by
  have hparse := (@succeeds_processMftRecord drive record hlen rounds { fileId := 0 }).mpr hends
  obtain ⟨st, hst⟩ := succeeds_true_iff.mp hparse
  unfold recordFile
  rcases attributes_of_processMftRecord hst with ⟨hnone, rfl⟩ | ⟨attrs, attributes, hrecord, hlt, hread⟩
  · rw [hst]
    refine .inl ⟨?_, rfl⟩
    rintro ⟨_, ⟨attrs, hrecord, -⟩, -⟩
    exact hnone attrs hrecord
  · have hhas : HasAttributes drive record attributes := ⟨attrs, hrecord, hread⟩
    rw [processMftRecord_eq hrecord hlt, hread, ok_bind]
    dsimp only [pure, Except.pure]
    rw [finishRecord_storeAll]
    by_cases hlistable : Listable attributes
    · rw [if_pos ((validate_storeAll 0 attributes).mpr hlistable)]
      exact .inr ⟨_, ⟨attributes, hhas, hlistable⟩, rfl, attributes, hhas, storeAll_fileName 0 attributes,
        storeAll_content 0 attributes⟩
    · rw [if_neg (mt (validate_storeAll 0 attributes).mp hlistable)]
      refine .inl ⟨?_, rfl⟩
      rintro ⟨attributes', hhas', hlistable'⟩
      obtain rfl := hasAttributes_unique hhas hhas'
      exact hlistable hlistable'

end

/-! ## The list -/

section
variable (v : Volume)

def Volume.records : List (List UInt8) :=
  if v.isValidSector v.mftSector then
    match getSectorsPerMftRecord v with
    | .ok sectorsPerMftRecord =>
      (List.range v.device.getTotalMftRecords.toNat).filterMap (v.recordAt sectorsPerMftRecord)
    | .error _ => []
  else []

variable {v} {sectors : UInt32} {rounds : Nat}

theorem fileAt_eq (hsectors : getSectorsPerMftRecord v = .ok sectors) {index : Nat} (hends : EndsAt v sectors rounds index) :
    fileAt v rounds sectors index =
      (v.recordAt sectors index).bind fun record => recordFile v.driveInfo (ofBuffer record) rounds := by
  have hread := readMftRecord_cases hsectors index (@List.length_replicate _ v.driveInfo.mftRecordSize.toNat 0)
  unfold fileAt
  cases hrecord : v.recordAt sectors index with
  | none =>
    rw [hrecord] at hread
    obtain ⟨left, hleft⟩ := hread
    rw [hleft]
    rfl
  | some record =>
    rw [hrecord] at hread
    dsimp only at hread
    rw [if_pos (hends record hrecord).1] at hread
    rw [hread]
    rfl

theorem filesOnMft_eq {st st' : ScanState} (h : scanMFT v rounds st = .ok st') :
    filesOnMft v rounds = v.records.filterMap fun record => recordFile v.driveInfo (ofBuffer record) rounds := by
  unfold filesOnMft Volume.records
  by_cases hvalid : v.isValidSector v.mftSector = true
  · obtain ⟨sectors, hsectors, hends⟩ := scanMFT_ok_iff.mp ⟨st', h⟩ hvalid
    rw [if_pos hvalid, if_pos hvalid, hsectors]
    dsimp only
    rw [List.filterMap_filterMap]
    exact List.filterMap_congr fun index hindex => fileAt_eq hsectors (hends index (List.mem_range.mp hindex))
  · rw [if_neg hvalid, if_neg hvalid]
    rfl

theorem recoveryList_eq {st : ScanState} (h : scanMFT v rounds {} = .ok st) : st.recoveryList =
    numberedItems (· + 1) (fun fileId info => FileInfo.numbered info fileId) 1 (filesOnMft v rounds) := by
  rw [scanMFT_ok h]
  exact @foldl_numberedItems _ _ _ _ _ _ ScanState.fileId ScanState.recoveryList record (fun _ _ => rfl) (fun _ _ => rfl) _ {}

end

open Classical in
/-- The list of items that some elements give, if an element gives one just when it has the property. -/
theorem forall₂_filterMap {α β : Type} {P : α → Prop} {R : α → β → Prop} {f : α → Option β} : ∀ {as : List α},
    (∀ a ∈ as, ¬ P a ∧ f a = none ∨ ∃ b, P a ∧ f a = some b ∧ R a b) →
      List.Forall₂ R (as.filter fun a => P a) (as.filterMap f)
  | [], _ => .nil
  | a :: as, h => by
    have hrest := forall₂_filterMap fun a ha => h a (List.mem_cons_of_mem _ ha)
    rcases h a (List.mem_cons_self ..) with ⟨hnot, hnone⟩ | ⟨b, ha, hsome, hb⟩
    · rw [List.filter_cons_of_neg (by simpa using hnot), List.filterMap_cons_none hnone]
      exact hrest
    · rw [List.filter_cons_of_pos (by simpa using ha), List.filterMap_cons_some hsome]
      exact .cons hb hrest

section
variable {v : Volume} {rounds : Nat}

theorem ends_of_mem_records {st st' : ScanState} (h : scanMFT v rounds st = .ok st') {record : List UInt8}
    (hrecord : record ∈ v.records) :
    record.length = v.driveInfo.mftRecordSize.toNat ∧ RecordEnds v.driveInfo record rounds := by
  unfold Volume.records at hrecord
  split at hrecord
  · rename_i hvalid
    obtain ⟨sectors, hsectors, hends⟩ := scanMFT_ok_iff.mp ⟨st', h⟩ hvalid
    rw [hsectors] at hrecord
    obtain ⟨index, hindex, hat⟩ := List.mem_filterMap.mp hrecord
    exact hends index (List.mem_range.mp hindex) record hat
  · cases hrecord

end

open Classical in
/-- A scan that ends lists, in order, one file for each readable deleted record that makes one, and nothing else.
The files are numbered from 1 on. -/
theorem mft_scan_lists (v : Volume) {rounds : Nat} {st : ScanState} (h : scanMFT v rounds {} = .ok st) :
    List.Forall₂ (Describes v.driveInfo) (v.records.filter fun record => HoldsFile v.driveInfo record) st.recoveryList ∧
      st.recoveryList.map FileInfo.fileId = numbered 1 st.recoveryList.length := by
  have hids := ids_scanMFT h
  have hlength : st.recoveryList.length = (filesOnMft v rounds).length := by
    have hcount := congrArg List.length hids
    unfold numbered at hcount
    rwa [List.length_map, List.length_map, List.length_range] at hcount
  refine ⟨?_, by rw [hlength]; exact hids⟩
  rw [recoveryList_eq h, filesOnMft_eq h]
  apply forall₂_numberedItems (R := Describes v.driveInfo)
  · exact fun record info fileId hdescribes => hdescribes
  · refine forall₂_filterMap fun record hrecord => ?_
    obtain ⟨hfits, hends⟩ := ends_of_mem_records h hrecord
    exact recordFile_cases hfits hends

def twoRecords : Device :=
  .ofSectors [(5, rawRecord (rawFileName 0x41 ++ mainStream)), (6, rawRecord (rawFileName 0x42))] 512

/-- An MFT of three records: the first cannot be read, the second is of a file, and the third of one without data. -/
def threeRecords : Volume where
  device :=
    { readSector := fun sector size => if sector = 4 then none else twoRecords.readSector sector size
      getBytesPerSector := 512
      getTotalMftRecords := 3
      length_of_read := fun hread => twoRecords.length_of_read (Option.ite_none_left_eq_some.mp hread).2 }
  driveInfo := smallDrive

open Classical in
theorem mft_scan_lists_small :
    ∃ st, scanMFT threeRecords 4 {} = .ok st ∧
      st.recoveryList = [{ fileName := wide "A", fileId := 1, fileSize := 3, data := [1, 2, 3] }] ∧
      (threeRecords.records.filter fun record => HoldsFile smallDrive record).length = 1 := by
  have hscan : scanMFT threeRecords 4 {} =
      .ok ⟨2, [{ fileName := wide "A", fileId := 1, fileSize := 3, data := [1, 2, 3] }]⟩ := by decide +kernel
  exact ⟨_, hscan, rfl, (mft_scan_lists threeRecords hscan).1.length_eq⟩

end DataRecovery.NTFS
