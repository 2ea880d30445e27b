import DataRecovery.FAT32.Names

/-!
# Short names

The base and the extension of a short name are stored filled up with spaces, and trimming
gives them back. Each byte is then widened as a signed character, which keeps the value of
the bytes below 0x80 only.
-/

namespace DataRecovery.FAT32

/-- A base or an extension: no terminators or control bytes, no space at the end. -/
structure NamePart (bytes : List UInt8) : Prop where
  printable : ∀ b ∈ bytes, 0x20 ≤ b
  last : bytes.getLast? ≠ some 0x20

structure ShortName where
  base : List UInt8
  ext : List UInt8
  base_ne : base ≠ []
  base_length : base.length ≤ 8
  ext_length : ext.length ≤ 3
  base_part : NamePart base
  ext_part : NamePart ext

namespace ShortName
variable (N : ShortName)

def stored : List UInt8 :=
  N.base ++ List.replicate (8 - N.base.length) 0x20 ++ (N.ext ++ List.replicate (3 - N.ext.length) 0x20)

/-- The base, with its first character replaced when the file is deleted. -/
def shownBase (isDeleted : Bool) : List UInt8 := if isDeleted then N.base.set 0 0x5F else N.base

def text (isDeleted : Bool) : WString :=
  (N.shownBase isDeleted).map UInt8.toUInt16 ++ if N.ext = [] then [] else dot :: N.ext.map UInt8.toUInt16

end ShortName

/-! ## Trimming -/

section
variable {bytes : List UInt8}

theorem rdropWhile_padded {α : Type} (p : α → Bool) {x : α} (hx : p x = true) (l : List α) :
    ∀ k : Nat, (l ++ List.replicate k x).rdropWhile p = l.rdropWhile p
  | 0 => by rw [List.replicate_zero, List.append_nil]
  | k + 1 => by
    rw [List.replicate_succ', ← List.append_assoc, List.rdropWhile_concat_pos _ _ _ hx]
    exact rdropWhile_padded p hx l k

theorem NamePart.trimmed_padded (h : NamePart bytes) (k : Nat) : trimmed (bytes ++ List.replicate k 0x20) = bytes := by
  have hterm : (bytes ++ List.replicate k 0x20).takeWhile (· != 0) = bytes ++ List.replicate k 0x20 := by
    refine List.takeWhile_eq_self_iff.mpr fun b hb => ?_
    rw [bne_iff_ne]
    rintro rfl
    rcases List.mem_append.mp hb with hb | hb
    · exact absurd (h.printable 0 hb) (by decide)
    · exact absurd (List.eq_of_mem_replicate hb) (by decide)
  unfold trimmed
  rw [hterm, rdropWhile_padded _ rfl, List.rdropWhile_eq_self_iff]
  intro hne hspace
  refine h.last ?_
  rw [List.getLast?_eq_some_getLast hne, eq_of_beq hspace]

theorem namePart_of_all (hall : bytes.all (fun b => decide (0x20 ≤ b)) = true) (hlast : bytes.getLast? ≠ some 0x20) :
    NamePart bytes :=
  ⟨fun b hb => of_decide_eq_true (List.all_eq_true.mp hall b hb), hlast⟩

theorem NamePart.set_first (h : NamePart bytes) : NamePart (bytes.set 0 0x5F) := by
  cases bytes with
  | nil => exact h
  | cons b rest =>
    constructor
    · intro c hc
      rcases List.mem_cons.mp hc with rfl | hc
      · decide
      · exact h.printable c (List.mem_cons_of_mem _ hc)
    · cases rest with
      | nil => exact fun hspace => absurd (Option.some.inj hspace) (by decide)
      | cons c rest => exact h.last

end

/-! ## Widening -/

theorem widen_eq_iff {b : UInt8} : widen b = b.toUInt16 ↔ b < 0x80 := by
  have hlt := b.toNat_lt
  unfold widen
  constructor
  · intro h
    by_contra hhigh
    rw [if_neg hhigh] at h
    have h := congrArg UInt16.toNat h
    rw [UInt16.toNat_add, UInt8.toNat_toUInt16, show (0xFF00 : UInt16).toNat = 0xFF00 from rfl,
      Nat.mod_eq_of_lt (by omega)] at h
    omega
  · exact fun hlow => if_pos hlow

theorem map_widen_iff {bytes : List UInt8} : bytes.map widen = bytes.map UInt8.toUInt16 ↔ ∀ b ∈ bytes, b < 0x80 :=
  List.map_inj_left.trans (forall₂_congr fun _ _ => widen_eq_iff)

/-! ## The whole name -/

section
variable {N : ShortName} {e : DirectoryEntry} (hname : e.name = N.stored)
include hname

theorem getShortFilename_stored (isDeleted : Bool) :
    getShortFilename e isDeleted = (N.shownBase isDeleted).map widen ++
      if N.ext = [] then [] else dot :: N.ext.map widen := by
  have hbase : (N.base ++ List.replicate (8 - N.base.length) 0x20).length = 8 := by
    rw [List.length_append, List.length_replicate]
    exact Nat.add_sub_cancel' N.base_length
  have hext : (N.ext ++ List.replicate (3 - N.ext.length) 0x20).length = 3 := by
    rw [List.length_append, List.length_replicate]
    exact Nat.add_sub_cancel' N.ext_length
  have hfirst : slice e.name 0 8 = N.base ++ List.replicate (8 - N.base.length) 0x20 := by
    rw [hname]
    exact List.take_left' hbase
  have hlast : slice e.name 8 3 = N.ext ++ List.replicate (3 - N.ext.length) 0x20 := by
    rw [hname, slice, ShortName.stored, List.drop_left' hbase, List.take_of_length_le (Nat.le_of_eq hext)]
  have hshown : trimmed (if isDeleted then (slice e.name 0 8).set 0 0x5F else slice e.name 0 8) =
      N.shownBase isDeleted := by
    rw [hfirst]
    cases isDeleted with
    | true =>
      have hset : (N.base ++ List.replicate (8 - N.base.length) 0x20).set 0 0x5F =
          N.base.set 0 0x5F ++ List.replicate (8 - N.base.length) 0x20 :=
        List.set_append_left _ _ (List.length_pos_iff.mpr N.base_ne)
      rw [if_pos rfl, hset]
      exact N.base_part.set_first.trimmed_padded _
    | false =>
      rw [if_neg Bool.false_ne_true]
      exact N.base_part.trimmed_padded _
  have hdot : wide "." = [dot] := by decide
  unfold getShortFilename
  dsimp only
  rw [hshown, hlast, N.ext_part.trimmed_padded, hdot]
  split
  · exact (List.append_nil _).symm
  · exact List.append_assoc ..

/-- A short name is decoded to its text exactly when the bytes that are shown are below 0x80. -/
theorem short_name_exact_iff (isDeleted : Bool) :
    getShortFilename e isDeleted = N.text isDeleted ↔ ∀ b ∈ N.shownBase isDeleted ++ N.ext, b < 0x80 := by
  have hext : (if N.ext = [] then [] else dot :: N.ext.map widen) =
      (if N.ext = [] then [] else dot :: N.ext.map UInt8.toUInt16) ↔ ∀ b ∈ N.ext, b < 0x80 := by
    split
    · rename_i hnil
      rw [hnil]
      exact iff_of_true rfl (List.forall_mem_nil _)
    · rw [List.cons_inj_right, map_widen_iff]
  rw [getShortFilename_stored hname, ShortName.text, List.forall_mem_append, ← hext, ← map_widen_iff]
  constructor
  · exact fun h => List.append_inj h (by rw [List.length_map, List.length_map])
  · rintro ⟨h1, h2⟩
    rw [h1, h2]

end

def spacedName : ShortName where
  base := [0x41, 0x20, 0x42]
  ext := [0x43]
  base_ne := List.cons_ne_nil _ _
  base_length := by decide
  ext_length := by decide
  base_part := namePart_of_all rfl (by decide)
  ext_part := namePart_of_all rfl (by decide)

theorem spacedName_decoded :
    getShortFilename { name := spacedName.stored, attr := 0, fstClusHI := 0, fstClusLO := 0, fileSize := 0 } true =
        spacedName.text true ↔ ∀ b ∈ spacedName.shownBase true ++ spacedName.ext, b < 0x80 :=
  @short_name_exact_iff spacedName ⟨spacedName.stored, 0, 0, 0, 0⟩ rfl true

/-- A byte of the upper half is widened to a code unit from 0xFF80 on. -/
theorem upper_byte_widened :
    ¬ ∀ (N : ShortName) (e : DirectoryEntry) (isDeleted : Bool), e.name = N.stored →
      getShortFilename e isDeleted = N.text isDeleted := by
  intro h
  let upper : ShortName :=
    { base := [0x90], ext := [], base_ne := List.cons_ne_nil _ _, base_length := by decide, ext_length := by decide
      base_part := namePart_of_all rfl (by decide), ext_part := namePart_of_all rfl (by decide) }
  exact absurd (h upper ⟨upper.stored, 0, 0, 0, 0⟩ false rfl) (by decide)

end DataRecovery.FAT32
