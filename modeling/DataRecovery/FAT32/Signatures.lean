import Mathlib.Data.List.Find
import DataRecovery.FAT32.Names

/-!
# File signatures

A row of `signatureTable` is met when its signature leads the sector, provided that it
compares as many digits as its signature has. Where it compares more or fewer it is met by
no sector, and where a signature stands in several rows the first of them answers.
-/

namespace DataRecovery.FAT32

/-! ## Bytes as hexadecimal digits -/

def hexText (bytes : List UInt8) : List Char :=
  bytes.flatMap fun b => [hexDigit (b.toNat / 16), hexDigit (b.toNat % 16)]

def hexValue (c : Char) : Nat := if c.toNat < 58 then c.toNat - 48 else c.toNat - 87

def readHex : List Char → List UInt8
  | hi :: lo :: rest => UInt8.ofNat (16 * hexValue hi + hexValue lo) :: readHex rest
  | _ => []

theorem hexValue_hexDigit {n : Nat} (h : n < 16) : hexValue (hexDigit n) = n := by
  have hall : ∀ k : Fin 16, hexValue (hexDigit k) = k := by decide
  exact hall ⟨n, h⟩

theorem readHex_hexText : ∀ bytes : List UInt8, readHex (hexText bytes) = bytes
  | [] => rfl
  | b :: rest => by
    have hlt := b.toNat_lt
    have hb : 16 * hexValue (hexDigit (b.toNat / 16)) + hexValue (hexDigit (b.toNat % 16)) = b.toNat := by
      rw [hexValue_hexDigit (by omega), hexValue_hexDigit (by omega)]
      exact Nat.div_add_mod ..
    change UInt8.ofNat _ :: readHex (hexText rest) = b :: rest
    rw [hb, UInt8.ofNat_toNat, readHex_hexText rest]

theorem hexText_take : ∀ (bytes : List UInt8) (k : Nat), (hexText bytes).take (2 * k) = hexText (bytes.take k)
  | [], k => by rw [List.take_nil]; exact List.take_nil
  | _ :: _, 0 => rfl
  | b :: rest, k + 1 => congrArg (fun text => _ :: _ :: text) (hexText_take rest k)

theorem length_hexText : ∀ bytes : List UInt8, (hexText bytes).length = 2 * bytes.length
  | [] => rfl
  | _ :: rest => by
    have ih := length_hexText rest
    change (hexText rest).length + 1 + 1 = 2 * (rest.length + 1)
    omega

theorem hexText_prefix_iff {bytes content : List UInt8} : hexText bytes <+: hexText content ↔ bytes <+: content := by
  constructor
  · intro h
    have htake := List.prefix_iff_eq_take.mp h
    rw [length_hexText, hexText_take] at htake
    have hbytes := congrArg readHex htake
    rw [readHex_hexText, readHex_hexText] at hbytes
    exact List.prefix_iff_eq_take.mpr hbytes
  · rintro ⟨rest, rfl⟩
    rw [hexText, hexText, List.flatMap_append]
    exact List.prefix_append ..

/-! ## The table -/

def signatureBytes (signature : String) : List UInt8 := readHex signature.toList

def tableExtension (signature : String) : Option WString :=
  (signatureTable.find? fun row => row.2.1 == signature).map fun row => wide row.2.2

def rowMatches (signature : List Char) (row : Nat × String × String) : Bool :=
  signature.take row.1 == row.2.1.toList

theorem guessFileExtension_eq (signature : List Char) :
    guessFileExtension signature =
      ((signatureTable.find? (rowMatches signature)).map fun row => wide row.2.2).getD (wide "bin") := by
  have hrows : (fun row : Nat × String × String => signature.take row.1 == row.2.1.toList) = rowMatches signature := rfl
  unfold guessFileExtension
  rw [hrows]
  cases signatureTable.find? (rowMatches signature) with
  | none => rfl
  | some row => rfl

structure RowOk (row : Nat × String × String) : Prop where
  compared : row.1 ≤ 8
  written : hexText (signatureBytes row.2.1) = row.2.1.toList
  two_bytes : 4 ≤ row.2.1.toList.length
  named : wide "bin" ≠ wide row.2.2

/-- The rows are all well written, and already the first two bytes tell their signatures apart. -/
theorem table_checked :
    (signatureTable.all fun row => decide (row.1 ≤ 8) && hexText (signatureBytes row.2.1) == row.2.1.toList &&
      decide (4 ≤ row.2.1.toList.length) && wide "bin" != wide row.2.2 &&
      signatureTable.all fun other => row.2.1.toList.take 4 != other.2.1.toList.take 4 ||
        row.2.1 == other.2.1 && row.1 == other.1) = true := by
  decide +kernel

variable {row other : Nat × String × String} {content : List UInt8}

theorem rowOk_of_mem (hrow : row ∈ signatureTable) : RowOk row := by
  have h := List.all_eq_true.mp table_checked row hrow
  simp only [Bool.and_eq_true, decide_eq_true_eq, beq_iff_eq, bne_iff_ne] at h
  obtain ⟨⟨⟨⟨h1, h2⟩, h3⟩, h4⟩, -⟩ := h
  exact ⟨h1, h2, h3, h4⟩

theorem row_of_two_bytes (hrow : row ∈ signatureTable) (hother : other ∈ signatureTable)
    (htake : row.2.1.toList.take 4 = other.2.1.toList.take 4) : row.2.1 = other.2.1 ∧ row.1 = other.1 := by
  have h := List.all_eq_true.mp table_checked row hrow
  rw [Bool.and_eq_true] at h
  have h := List.all_eq_true.mp h.2 other hother
  rw [htake, bne_self_eq_false, Bool.false_or, Bool.and_eq_true] at h
  exact ⟨eq_of_beq h.1, eq_of_beq h.2⟩

/-! ## Leading signatures -/

theorem getFileSignature_eq (content : List UInt8) :
    getFileSignature (content.take 8) = (hexText content).take 8 := by
  rw [show 8 = 2 * 4 from rfl, hexText_take]
  exact congrArg hexText (List.take_take ..)

theorem digits_prefix_iff (hok : RowOk row) :
    signatureBytes row.2.1 <+: content ↔ row.2.1.toList <+: hexText content := by
  rw [← hok.written]
  exact hexText_prefix_iff.symm

/-- A row is met when it compares as many digits as its signature has and these lead the content. -/
theorem rowMatches_iff (hok : RowOk row) (hlen : 8 ≤ content.length) :
    rowMatches (getFileSignature (content.take 8)) row = true ↔
      row.1 = row.2.1.length ∧ signatureBytes row.2.1 <+: content := by
  have hdigits := length_hexText content
  have htake : (getFileSignature (content.take 8)).take row.1 = (hexText content).take row.1 := by
    rw [getFileSignature_eq, List.take_take, Nat.min_eq_left hok.compared]
  rw [rowMatches, htake, beq_iff_eq, digits_prefix_iff hok, ← String.length_toList]
  constructor
  · intro h
    have hrow : row.1 = row.2.1.toList.length := by
      have hcompared := hok.compared
      rw [← h, List.length_take]
      omega
    exact ⟨hrow, h ▸ List.take_prefix ..⟩
  · rintro ⟨h, hprefix⟩
    rw [h]
    exact (List.prefix_iff_eq_take.mp hprefix).symm

theorem signature_unique (hrow : row ∈ signatureTable) (hother : other ∈ signatureTable)
    (hleads : signatureBytes row.2.1 <+: content) (hleads' : signatureBytes other.2.1 <+: content) :
    row.2.1 = other.2.1 ∧ row.1 = other.1 := by
  have hfirst : ∀ r ∈ signatureTable, signatureBytes r.2.1 <+: content →
      r.2.1.toList.take 4 = (hexText content).take 4 := by
    intro r hr h
    have hok := rowOk_of_mem hr
    have htake := List.prefix_iff_eq_take.mp ((digits_prefix_iff hok).mp h)
    rw [htake, List.take_take, Nat.min_eq_left hok.two_bytes]
  exact row_of_two_bytes hrow hother ((hfirst row hrow hleads).trans (hfirst other hother hleads').symm)

section
variable (hrow : row ∈ signatureTable) (hlen : 8 ≤ content.length) (hleads : signatureBytes row.2.1 <+: content)
include hrow hlen hleads

theorem guessed_of_length (hcompared : row.1 = row.2.1.length) :
    guessFileExtension (getFileSignature (content.take 8)) = (tableExtension row.2.1).getD (wide "bin") := by
  have hagree : ∀ r ∈ signatureTable,
      rowMatches (getFileSignature (content.take 8)) r = (r.2.1 == row.2.1) := by
    intro r hr
    rw [Bool.eq_iff_iff, rowMatches_iff (rowOk_of_mem hr) hlen, beq_iff_eq]
    constructor
    · exact fun h => (signature_unique hr hrow h.2 hleads).1
    · intro h
      rw [h]
      exact ⟨(row_of_two_bytes hr hrow (by rw [h])).2.trans hcompared, hleads⟩
  rw [guessFileExtension_eq, tableExtension]
  rw [List.find?_congr hagree]

theorem guessed_of_length_ne (hcompared : row.1 ≠ row.2.1.length) :
    guessFileExtension (getFileSignature (content.take 8)) = wide "bin" := by
  have hnone : signatureTable.find? (rowMatches (getFileSignature (content.take 8))) = none := by
    refine List.find?_eq_none.mpr fun r hr hmatches => hcompared ?_
    obtain ⟨hr1, hr2⟩ := (rowMatches_iff (rowOk_of_mem hr) hlen).mp hmatches
    obtain ⟨hsig, hrow1⟩ := signature_unique hr hrow hr2 hleads
    rw [← hrow1, hr1, hsig]
  rw [guessFileExtension_eq, hnone]
  rfl

/-- A sector led by the signature of a row gets the row's extension exactly when the row compares as
many digits as the signature has and no earlier row gives the signature another extension. -/
theorem signature_recognised_iff :
    guessFileExtension (getFileSignature (content.take 8)) = wide row.2.2 ↔
      row.1 = row.2.1.length ∧ tableExtension row.2.1 = some (wide row.2.2) := by
  by_cases hcompared : row.1 = row.2.1.length
  · have hsome : (tableExtension row.2.1).isSome := by
      rw [tableExtension, Option.isSome_map, List.find?_isSome]
      exact ⟨row, hrow, beq_self_eq_true _⟩
    obtain ⟨ext, hext⟩ := Option.isSome_iff_exists.mp hsome
    rw [guessed_of_length hrow hlen hleads hcompared, hext, Option.getD_some, Option.some_inj]
    exact (and_iff_right hcompared).symm
  · rw [guessed_of_length_ne hrow hlen hleads hcompared]
    exact iff_of_false (rowOk_of_mem hrow).named fun h => hcompared h.1

end

theorem zip_recognised :
    guessFileExtension (getFileSignature (List.take 8 [0x50, 0x4B, 3, 4, 20, 0, 6, 0])) = wide "zip" ↔
      8 = "504b0304".length ∧ tableExtension "504b0304" = some (wide "zip") :=
  @signature_recognised_iff (8, "504b0304", "zip") [0x50, 0x4B, 3, 4, 20, 0, 6, 0] (by decide) (by decide)
    (by decide)

/-- Eight digits are compared with the six of the signature `494433`. -/
theorem mp3_unreachable :
    ¬ ∀ row ∈ signatureTable, ∀ content : List UInt8, 8 ≤ content.length → signatureBytes row.2.1 <+: content →
      guessFileExtension (getFileSignature (content.take 8)) = wide row.2.2 := by
  intro h
  have hmp3 := h (8, "494433", "mp3") (by decide) [0x49, 0x44, 0x33, 3, 0, 0, 0, 0] (by decide) (by decide)
  exact absurd hmp3 (by decide)

end DataRecovery.FAT32
