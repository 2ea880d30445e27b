import DataRecovery.FAT32.LongNames

/-!
# Long-name entries of several files

Each long-name entry stores a checksum of the short name it belongs to, which the engine
does not read. It joins whatever long-name entries stand before a short entry, so a name
is made of the entries of one file exactly when they have one checksum throughout.
-/

namespace DataRecovery.FAT32

/-- The `Chksum` of a long-name entry. The engine never reads it. -/
def chksum (raw : List UInt8) : UInt8 := raw.getD 13 0

def SameChksum (raws : List (List UInt8)) : Prop := ∀ x ∈ raws, ∀ y ∈ raws, chksum x = chksum y

def NamesApart (raws : List (List UInt8)) : Prop := ∀ c ∈ calls raws [], c.name ≠ [] → SameChksum c.joined

structure Joins (run : List (List UInt8)) (short : List UInt8) : Prop where
  used : ∀ raw ∈ run ++ [short], (DirectoryEntry.ofBytes raw).firstByte ≠ 0
  isLongName_run : ∀ raw ∈ run, (DirectoryEntry.ofBytes raw).isLongName = true
  isLongName_short : (DirectoryEntry.ofBytes short).isLongName = false

def EndsShort (pre : List (List UInt8)) : Prop :=
  (∀ raw ∈ pre, (DirectoryEntry.ofBytes raw).firstByte ≠ 0) ∧
    ∀ last, pre.getLast? = some last → (DirectoryEntry.ofBytes last).isLongName = false

section
variable {run pre : List (List UInt8)} {raw short : List UInt8}

theorem joins_cons (hfirst : (DirectoryEntry.ofBytes raw).firstByte ≠ 0)
    (hlong : (DirectoryEntry.ofBytes raw).isLongName = true) : Joins (raw :: run) short ↔ Joins run short := by
  constructor
  · rintro ⟨h1, h2, h3⟩
    exact ⟨fun x hx => h1 x (List.mem_cons_of_mem _ hx), fun x hx => h2 x (List.mem_cons_of_mem _ hx), h3⟩
  · rintro ⟨h1, h2, h3⟩
    exact ⟨List.forall_mem_cons.mpr ⟨hfirst, h1⟩, List.forall_mem_cons.mpr ⟨hlong, h2⟩, h3⟩

theorem endsShort_cons (hfirst : (DirectoryEntry.ofBytes raw).firstByte ≠ 0) (hne : pre ≠ []) :
    EndsShort (raw :: pre) ↔ EndsShort pre := by
  obtain ⟨last, hlast⟩ := Option.isSome_iff_exists.mp (List.getLast?_isSome.mpr hne)
  have hsame : (raw :: pre).getLast? = pre.getLast? := by
    rw [List.getLast?_cons, hlast]
    rfl
  unfold EndsShort
  rw [hsame, List.forall_mem_cons]
  exact ⟨fun h => ⟨h.1.2, h.2⟩, fun h => ⟨⟨hfirst, h.1⟩, h.2⟩⟩

end

/-- A call joins what has been collected and the long-name entries before its short entry, or
those that follow another short entry. -/
def CallAt (c : Call) (raws joined : List (List UInt8)) : Prop :=
  (∃ run post, raws = run ++ c.short :: post ∧ c.joined = joined ++ run ∧ Joins run c.short) ∨
    ∃ pre post, pre ≠ [] ∧ raws = pre ++ c.joined ++ c.short :: post ∧ EndsShort pre ∧ Joins c.joined c.short

section
variable {c : Call} {raw : List UInt8} {raws joined : List (List UInt8)}

theorem not_callAt_nil : ¬ CallAt c [] joined := by
  rintro (⟨run, post, h, -⟩ | ⟨pre, post, -, h, -⟩)
  · exact absurd h.symm (List.append_ne_nil_of_right_ne_nil _ (List.cons_ne_nil _ _))
  · exact absurd h.symm (List.append_ne_nil_of_right_ne_nil _ (List.cons_ne_nil _ _))

theorem not_callAt_unused (hfirst : (DirectoryEntry.ofBytes raw).firstByte = 0) : ¬ CallAt c (raw :: raws) joined := by
  have hused : ∀ xs ys : List (List UInt8), raw :: raws = xs ++ ys → xs ≠ [] →
      ¬ ∀ x ∈ xs, (DirectoryEntry.ofBytes x).firstByte ≠ 0 := by
    intro xs ys h hne hall
    cases xs with
    | nil => exact hne rfl
    | cons x xs => exact hall x (List.mem_cons_self ..) ((List.cons.inj h).1 ▸ hfirst)
  rintro (⟨run, post, h, -, hjoin⟩ | ⟨pre, post, hne, h, hpre, -⟩)
  · refine absurd hjoin.used (hused (run ++ [c.short]) post (by rw [h, List.append_assoc]; rfl) ?_)
    exact List.append_ne_nil_of_right_ne_nil _ (List.cons_ne_nil _ _)
  · exact absurd hpre.1 (hused pre _ (by rw [h, List.append_assoc]) hne)

theorem callAt_long (hfirst : (DirectoryEntry.ofBytes raw).firstByte ≠ 0)
    (hlong : (DirectoryEntry.ofBytes raw).isLongName = true) :
    CallAt c (raw :: raws) joined ↔ CallAt c raws (joined ++ [raw]) := by
  have hnot : (DirectoryEntry.ofBytes raw).isLongName ≠ false := by
    rw [hlong]
    exact Bool.noConfusion
  constructor
  · rintro (⟨run, post, h, hc, hjoin⟩ | ⟨pre, post, hne, h, hpre, hjoin⟩)
    · cases run with
      | nil => exact absurd ((List.cons.inj h).1 ▸ hjoin.isLongName_short) hnot
      | cons x run =>
        obtain ⟨rfl, hrest⟩ := List.cons.inj h
        exact .inl ⟨run, post, hrest, by rw [hc, List.append_assoc]; rfl, (joins_cons hfirst hlong).mp hjoin⟩
    · cases pre with
      | nil => exact absurd rfl hne
      | cons x pre =>
        obtain ⟨rfl, hrest⟩ := List.cons.inj h
        have hne' : pre ≠ [] := by
          rintro rfl
          exact hnot (hpre.2 raw rfl)
        exact .inr ⟨pre, post, hne', hrest, (endsShort_cons hfirst hne').mp hpre, hjoin⟩
  · rintro (⟨run, post, rfl, hc, hjoin⟩ | ⟨pre, post, hne, rfl, hpre, hjoin⟩)
    · exact .inl ⟨raw :: run, post, rfl, by rw [hc, List.append_assoc]; rfl, (joins_cons hfirst hlong).mpr hjoin⟩
    · exact .inr ⟨raw :: pre, post, List.cons_ne_nil _ _, rfl, (endsShort_cons hfirst hne).mpr hpre, hjoin⟩

theorem callAt_short (hfirst : (DirectoryEntry.ofBytes raw).firstByte ≠ 0)
    (hshort : (DirectoryEntry.ofBytes raw).isLongName = false) :
    CallAt c (raw :: raws) joined ↔ c = ⟨raw, joined⟩ ∨ CallAt c raws [] := by
  have hraw : EndsShort [raw] := by
    refine ⟨List.forall_mem_singleton.mpr hfirst, fun last hlast => ?_⟩
    cases hlast
    exact hshort
  constructor
  · rintro (⟨run, post, h, hc, hjoin⟩ | ⟨pre, post, hne, h, hpre, hjoin⟩)
    · cases run with
      | nil =>
        obtain ⟨heq, -⟩ := List.cons.inj h
        obtain ⟨short, cjoined⟩ := c
        rw [List.append_nil] at hc
        exact .inl (by rw [show raw = short from heq, show cjoined = joined from hc])
      | cons x run =>
        have hx := hjoin.isLongName_run x (List.mem_cons_self ..)
        rw [← (List.cons.inj h).1, hshort] at hx
        cases hx
    · cases pre with
      | nil => exact absurd rfl hne
      | cons x pre =>
        obtain ⟨rfl, hrest⟩ := List.cons.inj h
        cases pre with
        | nil => exact .inr (.inl ⟨c.joined, post, hrest, rfl, hjoin⟩)
        | cons y pre =>
          have hpre' := (endsShort_cons hfirst (List.cons_ne_nil y pre)).mp hpre
          exact .inr (.inr ⟨y :: pre, post, List.cons_ne_nil _ _, hrest, hpre', hjoin⟩)
  · rintro (rfl | ⟨run, post, rfl, hc, hjoin⟩ | ⟨pre, post, hne, rfl, hpre, hjoin⟩)
    · refine .inl ⟨[], raws, rfl, (List.append_nil _).symm, ?_, List.forall_mem_nil _, hshort⟩
      exact List.forall_mem_singleton.mpr hfirst
    · rw [List.nil_append] at hc
      exact .inr ⟨[raw], post, List.cons_ne_nil _ _, by rw [hc]; rfl, hraw, hc ▸ hjoin⟩
    · exact .inr ⟨raw :: pre, post, List.cons_ne_nil _ _, rfl, (endsShort_cons hfirst hne).mpr hpre, hjoin⟩

end

theorem mem_calls {c : Call} : ∀ {raws joined : List (List UInt8)}, c ∈ calls raws joined ↔ CallAt c raws joined
  | [], joined => iff_of_false List.not_mem_nil not_callAt_nil
  | raw :: raws, joined => by
    unfold calls
    dsimp only
    by_cases hfirst : (DirectoryEntry.ofBytes raw).firstByte = 0
    · rw [if_pos hfirst]
      exact iff_of_false List.not_mem_nil (not_callAt_unused hfirst)
    · rw [if_neg hfirst]
      cases hlong : (DirectoryEntry.ofBytes raw).isLongName with
      | true =>
        rw [if_pos rfl, mem_calls]
        exact (callAt_long hfirst hlong).symm
      | false =>
        rw [if_neg Bool.false_ne_true, List.mem_cons, mem_calls]
        exact (callAt_short hfirst hlong).symm

theorem mem_calls_nil {c : Call} {raws : List (List UInt8)} :
    c ∈ calls raws [] ↔
      ∃ pre post, raws = pre ++ c.joined ++ c.short :: post ∧ EndsShort pre ∧ Joins c.joined c.short := by
  rw [mem_calls]
  constructor
  · rintro (⟨run, post, h, hc, hjoin⟩ | ⟨pre, post, -, h⟩)
    · rw [List.nil_append] at hc
      refine ⟨[], post, by rw [h, hc]; rfl, ⟨List.forall_mem_nil _, fun last hlast => ?_⟩, hc ▸ hjoin⟩
      cases hlast
    · exact ⟨pre, post, h⟩
  · rintro ⟨pre, post, h, hpre, hjoin⟩
    cases pre with
    | nil => exact .inl ⟨c.joined, post, h, rfl, hjoin⟩
    | cons x pre => exact .inr ⟨x :: pre, post, List.cons_ne_nil _ _, h, hpre, hjoin⟩

/-- Long-name entries that stand together before a short entry and spell something have the
same checksum. -/
def RunsAgree (raws : List (List UInt8)) : Prop :=
  ∀ pre run short post, raws = pre ++ run ++ short :: post → EndsShort pre → Joins run short →
    longText run ≠ [] → SameChksum run

theorem namesApart_iff_runsAgree (raws : List (List UInt8)) : NamesApart raws ↔ RunsAgree raws := by
  constructor
  · intro h pre run short post hraws hpre hjoin
    exact h ⟨short, run⟩ (mem_calls_nil.mpr ⟨pre, post, hraws, hpre, hjoin⟩)
  · intro h c hc
    obtain ⟨pre, post, hraws, hpre, hjoin⟩ := mem_calls_nil.mp hc
    exact h pre c.joined c.short post hraws hpre hjoin

/-- The sector is processed by its calls, and each of them joins the entries of one file
exactly when the runs of long-name entries agree. -/
theorem namesApart_iff (v : Volume) (config : Config) (iswalnum : UInt16 → Bool)
    (scan : UInt32 → ScanState → Option ScanState) (entriesPerSector : Nat) (sectorBuffer : List UInt8) :
    let raws := (List.range entriesPerSector).map (entryAt sectorBuffer)
    (∀ st, processEntriesInSector v config iswalnum scan entriesPerSector sectorBuffer st =
        (calls raws []).foldlM
          (fun st c => processDirectoryEntry v config iswalnum scan c.entry (nameOf c.entry c.name) st) st) ∧
      (NamesApart raws ↔ RunsAgree raws) :=
  ⟨processEntriesInSector_eq_calls v config iswalnum scan entriesPerSector sectorBuffer, namesApart_iff_runsAgree _⟩

/-- A long-name entry whose short entry is overwritten by the one of another file. -/
def gluedSector : List UInt8 :=
  let part (chksum : UInt8) (unit : UInt16) := rawUnits 0xE5 chksum (unit :: 0 :: List.replicate 11 0xFFFF)
  part 7 0x61 ++ part 9 0x62 ++ rawEntry 0xE5 0x20 5 9 ++ List.replicate 416 0

theorem orphan_glued :
    ¬ ∀ (entriesPerSector : Nat) (sectorBuffer : List UInt8),
      NamesApart ((List.range entriesPerSector).map (entryAt sectorBuffer)) := by
  intro h
  let part (chksum : UInt8) (unit : UInt16) := rawUnits 0xE5 chksum (unit :: 0 :: List.replicate 11 0xFFFF)
  let call : Call := ⟨rawEntry 0xE5 0x20 5 9, [part 7 0x61, part 9 0x62]⟩
  have hcall : call ∈ calls ((List.range 16).map (entryAt gluedSector)) [] := by
    have heq : calls ((List.range 16).map (entryAt gluedSector)) [] = [call] := by decide +kernel
    rw [heq]
    exact List.mem_singleton_self _
  have hsame := h 16 gluedSector call hcall (by decide) (part 7 0x61) (List.mem_cons_self ..) (part 9 0x62)
    (List.mem_cons_of_mem _ (List.mem_cons_self ..))
  exact absurd hsame (by decide)

end DataRecovery.FAT32
