import DataRecovery.StoredFiles

/-!
# The numbers in the names of the outputs

Files of one name are told apart by a number, the first that is free. So the numbers of the
outputs of a name go up in the order of the files, and none is left out.
-/

namespace DataRecovery

section
variable {host : Host}

/-! ## Storing files one after the other -/

theorem Keeps.exists {before after : Files host} (h : Keeps before after) {path : Path}
    (hpath : before.exists path = true) : after.exists path = true := by
  obtain ⟨node, hnode⟩ := Option.isSome_iff_exists.mp hpath
  exact Option.isSome_iff_exists.mpr ⟨node, h path node hnode⟩

theorem keeps_storeAll (folder : WString) : ∀ {items : List (WString × List UInt8)} {files : Files host},
    (∀ item ∈ items, Dotted item.1) → Creatable folder items files → Keeps files (storeAll folder items files)
  | [], files, _, _ => .refl files
  | (_, data) :: _, _, hdotted, ⟨⟨hends, _⟩, hcreatable⟩ =>
    (keeps_write (getOutputPath_fresh (hdotted _ (List.mem_cons_self ..)) hends) (.data data)).trans
      (keeps_storeAll folder (fun item hitem => hdotted item (List.mem_cons_of_mem _ hitem)) hcreatable)

/-- The items are stored with these numbers of an `int`: under variants of their names that were free before, every
lower number being taken, and of one name in increasing order. -/
structure NumberedIn (before after : Files host) (folder : WString) (numbered : List ((WString × List UInt8) × Nat)) :
    Prop where
  bounded : ∀ e ∈ numbered, e.2 < INT_MAX
  free : ∀ e ∈ numbered, before.exists ⟨folder, variant e.1.1 e.2⟩ = false
  stored : ∀ e ∈ numbered, after.read ⟨folder, variant e.1.1 e.2⟩ = some (.data e.1.2)
  lower : ∀ e ∈ numbered, ∀ k < e.2, after.exists ⟨folder, variant e.1.1 k⟩ = true
  increasing : numbered.Pairwise fun e e' => e.1.1 = e'.1.1 → e.2 < e'.2

/-- An item that is stored before the others, under the first variant of its name that is free. -/
theorem NumberedIn.cons {files after : Files host} {folder name : WString} {data : List UInt8} {counter : Nat}
    {numbered : List ((WString × List UInt8) × Nat)} (hbounded : counter < INT_MAX)
    (hfree : files.exists ⟨folder, variant name counter⟩ = false)
    (hlower : ∀ k < counter, files.exists ⟨folder, variant name k⟩ = true)
    (hkeeps : Keeps (files.write ⟨folder, variant name counter⟩ (.data data)) after)
    (h : NumberedIn (files.write ⟨folder, variant name counter⟩ (.data data)) after folder numbered) :
    NumberedIn files after folder (((name, data), counter) :: numbered) := by
  have hwrite := keeps_write hfree (.data data)
  have hstored : (files.write ⟨folder, variant name counter⟩ (.data data)).read ⟨folder, variant name counter⟩ =
      some (.data data) := lookup_write files _ _
  refine ⟨List.forall_mem_cons.mpr ⟨hbounded, h.bounded⟩, fun e he => ?_, fun e he => ?_, fun e he => ?_,
    List.pairwise_cons.mpr ⟨fun e he hname => ?_, h.increasing⟩⟩
  · rcases List.mem_cons.mp he with rfl | he
    · exact hfree
    · exact Bool.eq_false_iff.mpr fun htaken => Bool.eq_false_iff.mp (h.free e he) (hwrite.exists htaken)
  · rcases List.mem_cons.mp he with rfl | he
    · exact hkeeps _ _ hstored
    · exact h.stored e he
  · rcases List.mem_cons.mp he with rfl | he
    · exact fun k hk => hkeeps.exists (hwrite.exists (hlower k hk))
    · exact h.lower e he
  · -- a number up to this one is taken by now
    refine Nat.lt_of_not_le fun hle => Bool.eq_false_iff.mp (h.free e he) ?_
    rw [← show name = e.1.1 from hname]
    rcases Nat.lt_or_eq_of_le hle with hlt | heq
    · exact hwrite.exists (hlower _ hlt)
    · rw [show e.2 = counter from heq]
      exact Option.isSome_iff_exists.mpr ⟨_, hstored⟩

theorem numbered_storeAll (folder : WString) : ∀ {items : List (WString × List UInt8)} {files : Files host},
    (∀ item ∈ items, Dotted item.1) → Creatable folder items files →
      ∃ numbered, numbered.map Prod.fst = items ∧ NumberedIn files (storeAll folder items files) folder numbered
  | [], files, _, _ => by
    refine ⟨[], rfl, ?_, ?_, ?_, ?_, .nil⟩
    · exact fun e he => by cases he
    · exact fun e he => by cases he
    · exact fun e he => by cases he
    · exact fun e he => by cases he
  | (name, data) :: items, files, hdotted, ⟨⟨hends, _⟩, hcreatable⟩ => by
    obtain ⟨counter, hpath, hlower, hlast⟩ := getOutputPath_variant files name folder
    obtain ⟨hbounded, hfree⟩ := hlast hends
    have hfresh := hfree (hdotted _ (List.mem_cons_self ..))
    have hrest : ∀ item ∈ items, Dotted item.1 := fun item hitem => hdotted item (List.mem_cons_of_mem _ hitem)
    have hstart : storeAll folder ((name, data) :: items) files =
        storeAll folder items (files.write ⟨folder, variant name counter⟩ (.data data)) := by
      rw [← hpath]
      rfl
    dsimp only at hcreatable
    rw [hpath] at hcreatable
    obtain ⟨numbered, hnumbered, h⟩ := numbered_storeAll folder hrest hcreatable
    rw [hstart]
    refine ⟨((name, data), counter) :: numbered, ?_, h.cons hbounded hfresh hlower (keeps_storeAll folder hrest hcreatable)⟩
    rw [List.map_cons, hnumbered]

end

/-! ## Runs -/

namespace Engine
variable {host : Host} {config : Config} {ι : Type} (engine : Engine host config ι)

/-- The run has worked on the chosen files, and has numbered their outputs. -/
def NumbersChosen (data : ι → List UInt8) (input : List UInt8) (st : RunState host) (after : Files host) : Prop :=
  ∃ rest recoveryList selected numbered, proceedToScan (openLogFile config st.files).1 input = .ok rest ∧
    engine.scan = .ok recoveryList ∧ engine.chosen rest recoveryList = some selected ∧
    numbered.map Prod.fst = storedItems engine.isSkipped engine.fullName data selected ∧
    NumberedIn (openLogFile config st.files).2 after config.outputFolder numbered

theorem numbersChosen_of_returns {data : ι → List UInt8}
    (hstores : StoresFile engine.processFileForRecovery engine.isSkipped engine.fullName data config.outputFolder)
    (hdotted : ∀ recoveryList, engine.scan = .ok recoveryList → ∀ file ∈ recoveryList, Dotted (engine.fullName file))
    {input : List UInt8} {st st' : RunState host} (h : engine.startRecovery .logical input st = (st', none)) :
    engine.NumbersChosen data input st st'.files := by
  obtain ⟨rest, recoveryList, selected, hproceed, hscan, hchosen, hitems, hcreatable, hfiles⟩ :=
    engine.files_of_returns hstores hdotted h
  obtain ⟨numbered, hnumbered, hin⟩ := numbered_storeAll config.outputFolder hitems hcreatable
  rw [hfiles]
  exact ⟨rest, recoveryList, selected, numbered, hproceed, hscan, hchosen, hnumbered, hin⟩

end Engine

/-- A run that returns, with files to be recovered, has told the outputs of one name apart by numbers that go up in
the order of the files and leave none out. -/
theorem runs_number_files (host : Host) {config : Config} (hrec : config.recover = true) (input : List UInt8)
    (st st' : RunState host) :
    (∀ (v : FAT32.Volume) (iswalnum : UInt16 → Bool) (stack : Nat),
      (FAT32.engine host config v iswalnum stack).startRecovery .logical input st = (st', none) →
        (FAT32.engine host config v iswalnum stack).NumbersChosen (FAT32.recoveredData v) input st st'.files) ∧
    (∀ (v : ExFAT.Volume) (stack : Nat),
      (∀ scan, ExFAT.scanRoot v config stack {} = some scan → ∀ info ∈ scan.recoveryList, Dotted info.fileName) →
      ExFAT.startRecovery host config v stack .logical input st = (st', none) →
        (ExFAT.engine host config v stack).NumbersChosen (ExFAT.recoveredData v) input st st'.files) ∧
    (∀ (v : NTFS.Volume) (rounds : Nat),
      (∀ scan, NTFS.scanMFT v rounds {} = .ok scan → ∀ info ∈ scan.recoveryList, Dotted info.fileName) →
      NTFS.startRecovery host config v rounds .logical input st = (st', none) →
        (NTFS.engine host config v rounds).NumbersChosen (NTFS.recoveredData v) input st st'.files) := by
  refine ⟨fun v iswalnum stack => ?_, fun v stack hdotted => ?_, fun v rounds hdotted => ?_⟩
  · exact Engine.numbersChosen_of_returns _ (FAT32.storesFile config host hrec v) FAT32.engine_dotted
  · exact Engine.numbersChosen_of_returns _ (ExFAT.storesFile config host hrec v) (ExFAT.engine_dotted hdotted)
  · exact Engine.numbersChosen_of_returns _ (NTFS.storesFile config host hrec v) (NTFS.engine_dotted hdotted)

theorem runs_number_files_small :
    (FAT32.engine plainHost { recover := true } FAT32.nestedTwo (fun _ => true) 3).NumbersChosen
      (FAT32.recoveredData FAT32.nestedTwo) [byte '1'] { files := ∅ }
      ((FAT32.engine plainHost { recover := true } FAT32.nestedTwo (fun _ => true) 3).startRecovery .logical [byte '1']
        { files := ∅ }).1.files ∧
    (ExFAT.engine plainHost { recover := true } ExFAT.dottedVolume 1).NumbersChosen
      (ExFAT.recoveredData ExFAT.dottedVolume) [byte '1'] { files := ∅ }
      (ExFAT.startRecovery plainHost { recover := true } ExFAT.dottedVolume 1 .logical [byte '1'] { files := ∅ }).1.files ∧
    (NTFS.engine plainHost { recover := true } NTFS.dottedVolume 3).NumbersChosen
      (NTFS.recoveredData NTFS.dottedVolume) [byte '1'] { files := ∅ }
      (NTFS.startRecovery plainHost { recover := true } NTFS.dottedVolume 3 .logical [byte '1'] { files := ∅ }).1.files ∧
    (NTFS.startRecovery plainHost { recover := true } NTFS.dottedVolume 3 .logical [byte '1'] { files := ∅ }).1.files.exists
      ⟨wide "Recovered", wide "a_1.b"⟩ = true := by
  obtain ⟨hfat, hexfat, hntfs⟩ := dotted_volumes_return
  have hruns := @runs_number_files plainHost { recover := true } rfl [byte '1'] { files := ∅ }
  exact ⟨(hruns _).1 FAT32.nestedTwo _ 3 (eq_of_returns hfat),
    (hruns _).2.1 ExFAT.dottedVolume 1 ExFAT.dotted_of_dottedVolume (eq_of_returns hexfat),
    (hruns _).2.2 NTFS.dottedVolume 3 NTFS.dotted_of_dottedVolume (eq_of_returns hntfs), by decide +kernel⟩

end DataRecovery
