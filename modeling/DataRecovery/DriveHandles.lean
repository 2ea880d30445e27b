import DataRecovery.Device
import DataRecovery.HandleLog
import Mathlib.Data.List.Induction

/-!
# The handles of the drive readers

A program creates, moves, uses and destroys any number of `LogicalDriveReader`s. What
`CreateFileW` and the device calls return is part of each operation. The handles are
numbered, so that one returned by `CreateFileW` is fresh.
-/

namespace DataRecovery

open HandleLog

/-! ## Operations of a reader -/

structure Os where
  issued : Nat := 0
  log : List (HandleEvent Nat) := []

namespace Os

def use (h : Nat) (os : Os) : Os := { os with log := os.log ++ [.used h] }

def closeHandle (h : Nat) (os : Os) : Os := { os with log := os.log ++ [.closed h] }

end Os

inductive Opening where
  | succeeds
  | accessDenied
  | fails
  deriving DecidableEq

def createFileW (opening : Opening) (os : Os) : Option Nat × Os :=
  if opening = .succeeds then (some os.issued, { issued := os.issued + 1, log := os.log ++ [.issued os.issued] })
  else (none, os)

/-- `hDrive` is `none` for `INVALID_HANDLE_VALUE`. -/
structure LogicalDriveReader where
  hDrive : Option Nat
  drivePath : WString

namespace LogicalDriveReader

def isOpen (this : LogicalDriveReader) : Bool := this.hDrive.isSome

def close (this : LogicalDriveReader) (os : Os) : LogicalDriveReader × Os :=
  match this.hDrive with
  | some h => ({ this with hDrive := none }, os.closeHandle h)
  | none => (this, os)

abbrev Result (α : Type) : Type := Except Abort α × LogicalDriveReader × Os

section
variable (opening : Opening) (this : LogicalDriveReader) (os : Os)

def openDrive : Result Bool :=
  let (this, os) := this.close os
  let (hDrive, os) := createFileW opening os
  let this := { this with hDrive }
  match opening with
  | .succeeds => (.ok true, this, os)
  | .accessDenied => (.error (.exception "Administrator privileges required"), this, os)
  | .fails => (.ok false, this, os)

def reopen : Result Bool := openDrive opening this os

/-- The way the device methods begin: without a handle the reader is opened again, and when
that fails `failed` is returned. -/
def whenOpen {α : Type} (failed : α) (body : Nat → LogicalDriveReader → Os → Result α) : Result α :=
  match this.hDrive with
  | some h => body h this os
  | none =>
    match reopen opening this os with
    | (.error abort, this, os) => (.error abort, this, os)
    | (.ok false, this, os) => (.ok failed, this, os)
    | (.ok true, this, os) =>
      match this.hDrive with
      | some h => body h this os
      | none => (.ok failed, this, os)

/-- `positioned` is the result of `SetFilePointerEx`, `bytesRead` that of `ReadFile`. -/
def readSector (size : UInt32) (positioned : Bool) (bytesRead : Option UInt32) : Result Bool :=
  whenOpen opening this os false fun h this os =>
    let os := os.use h
    if !positioned then (.ok false, this, os)
    else (.ok (bytesRead == some size), this, os.use h)

/-- The device calls' results are `none` when they fail. -/
def getBytesPerSector (geometry : Option UInt32) : Result UInt32 :=
  whenOpen opening this os 0 fun h this os => (.ok (geometry.getD 0), this, os.use h)

def getFilesystemType (fileSystemName : Option WString) : Result WString :=
  whenOpen opening this os (wide "UNKNOWN_TYPE") fun h this os =>
    (.ok (fileSystemName.getD (wide "UNKNOWN_TYPE")), this, os.use h)

/-- `volumeData` is the valid data length of the MFT and the bytes of a record. -/
def getTotalMftRecords (volumeData : Option (Int64 × UInt32)) : Result UInt64 :=
  whenOpen opening this os 0 fun h this os =>
    let os := os.use h
    match volumeData with
    | none => (.ok 0, this, os.closeHandle h) -- `hDrive` is left as it is
    | some (_, 0) => (.error .undefined, this, os)
    | some (mftValidDataLength, bytesPerFileRecordSegment) =>
      (.ok (mftValidDataLength / bytesPerFileRecordSegment.toUInt64.toInt64).toUInt64, this, os)

end

end LogicalDriveReader

/-! ## Runs -/

structure Drives where
  readers : Nat → Option LogicalDriveReader := fun _ => none
  os : Os := {}

def Drives.set (s : Drives) (reader : Nat) (this : Option LogicalDriveReader) (os : Os) : Drives :=
  { readers := Function.update s.readers reader this, os }

inductive Operation where
  | construct (reader : Nat) (drivePath : WString) (opening : Opening)
  | moveConstruct (reader other : Nat)
  | moveAssign (reader other : Nat)
  | reopen (reader : Nat) (opening : Opening)
  | close (reader : Nat)
  | readSector (reader : Nat) (opening : Opening) (size : UInt32) (positioned : Bool) (bytesRead : Option UInt32)
  | getBytesPerSector (reader : Nat) (opening : Opening) (geometry : Option UInt32)
  | getFilesystemType (reader : Nat) (opening : Opening) (fileSystemName : Option WString)
  | getTotalMftRecords (reader : Nat) (opening : Opening) (volumeData : Option (Int64 × UInt32))
  | destroy (reader : Nat)

section
open LogicalDriveReader

def onReader {α : Type} (s : Drives) (reader : Nat) (method : LogicalDriveReader → Os → Result α) : Option Drives :=
  (s.readers reader).map fun this =>
    let (_, this, os) := method this s.os
    s.set reader (some this) os

/-- One operation; `none` when it is on a reader that does not exist, or constructs one that does. -/
def Drives.step (s : Drives) : Operation → Option Drives
  | .construct reader drivePath opening =>
    match s.readers reader, openDrive opening ⟨none, drivePath⟩ s.os with
    | some _, _ => none
    | none, (.ok true, this, os) => some (s.set reader (some this) os)
    | none, (_, _, os) => some { s with os } -- the constructor throws
  | .moveConstruct reader other =>
    match s.readers reader, s.readers other with
    | none, some source =>
      some ((s.set reader (some source) s.os).set other (some { hDrive := none, drivePath := [] }) s.os)
    | _, _ => none
  | .moveAssign reader other =>
    match s.readers reader, s.readers other with
    | some this, some source =>
      if reader = other then some s
      else
        let (this, os) := this.close s.os
        some ((s.set reader (some { this with hDrive := source.hDrive, drivePath := source.drivePath }) os).set other
          (some { hDrive := none, drivePath := [] }) os)
    | _, _ => none
  | .reopen reader opening => onReader s reader (LogicalDriveReader.reopen opening)
  | .close reader => onReader s reader fun this os => (.ok (), this.close os)
  | .readSector reader opening size positioned bytesRead =>
    onReader s reader fun this os => this.readSector opening os size positioned bytesRead
  | .getBytesPerSector reader opening geometry =>
    onReader s reader fun this os => this.getBytesPerSector opening os geometry
  | .getFilesystemType reader opening fileSystemName =>
    onReader s reader fun this os => this.getFilesystemType opening os fileSystemName
  | .getTotalMftRecords reader opening volumeData =>
    onReader s reader fun this os => this.getTotalMftRecords opening os volumeData
  | .destroy reader => (s.readers reader).map fun this => s.set reader none (this.close s.os).2

end

/-! ## What one call does to the handles -/

/-- Nothing improper has happened, and the numbers of the handles are below the next one. -/
structure Os.Sound (os : Os) : Prop where
  proper : Proper os.log
  bounded : ∀ e ∈ os.log, e.handle < os.issued

def Os.Holds (os : Os) (hDrive : Option Nat) : Prop := ∀ h, hDrive = some h → IsOpen os.log h

/-- From `os` to `os'` a reader's handle becomes `new`: the old one is kept or closed, and a new one is
fresh. The other handles are as before. -/
structure Exchanges (old : Option Nat) (os : Os) (new : Option Nat) (os' : Os) : Prop where
  sound : os'.Sound
  issued_le : os.issued ≤ os'.issued
  isOpen_iff : ∀ h, IsOpen os'.log h ↔ new = some h ∨ IsOpen os.log h ∧ old ≠ some h
  new_cases : ∀ h, new = some h → old = some h ∨ os.issued ≤ h

theorem Exchanges.holds {old new : Option Nat} {os os' : Os} (h : Exchanges old os new os') : os'.Holds new :=
  fun k hk => (h.isOpen_iff k).mpr (.inl hk)

section
variable {os : Os} (hos : os.Sound)
include hos

theorem Os.Sound.lt {h : Nat} (hopen : IsOpen os.log h) : h < os.issued := hos.bounded _ hopen.1

theorem Exchanges.trans {a b c : Option Nat} {os' os'' : Os} (h : Exchanges a os b os')
    (h' : Exchanges b os' c os'') : Exchanges a os c os'' where
  sound := h'.sound
  issued_le := Nat.le_trans h.issued_le h'.issued_le
  isOpen_iff := by
    intro k
    rw [h'.isOpen_iff, h.isOpen_iff]
    refine or_congr Iff.rfl ⟨fun hk => hk.1.resolve_left hk.2, fun hk => ⟨.inr hk, fun hb => ?_⟩⟩
    rcases h.new_cases k hb with ha | hfresh
    · exact hk.2 ha
    · exact absurd (hos.lt hk.1) (Nat.not_lt.mpr hfresh)
  new_cases := by
    intro k hk
    rcases h'.new_cases k hk with hb | hfresh
    · exact h.new_cases k hb
    · exact .inr (Nat.le_trans h.issued_le hfresh)

theorem exchanges_refl {hDrive : Option Nat} (hheld : os.Holds hDrive) : Exchanges hDrive os hDrive os where
  sound := hos
  issued_le := Nat.le_refl _
  isOpen_iff := by
    intro k
    by_cases hk : hDrive = some k
    · exact iff_of_true (hheld k hk) (.inl hk)
    · rw [or_iff_right hk]
      exact (and_iff_left hk).symm
  new_cases := fun _ => .inl

theorem exchanges_use {h : Nat} (hopen : IsOpen os.log h) : Exchanges (some h) os (some h) (os.use h) where
  sound := ⟨.use hos.proper hopen, fun e he => (List.mem_append.mp he).elim (hos.bounded e) fun he => by
    rw [List.mem_singleton.mp he]
    exact hos.lt hopen⟩
  issued_le := Nat.le_refl _
  isOpen_iff := by
    intro k
    show IsOpen (os.log ++ [.used h]) k ↔ _
    rw [isOpen_use]
    exact (exchanges_refl hos fun j (hj : some h = some j) => Option.some.inj hj ▸ hopen).isOpen_iff k
  new_cases := fun _ => .inl

theorem exchanges_closeHandle {h : Nat} (hopen : IsOpen os.log h) : Exchanges (some h) os none (os.closeHandle h) where
  sound := ⟨.close hos.proper hopen, fun e he => (List.mem_append.mp he).elim (hos.bounded e) fun he => by
    rw [List.mem_singleton.mp he]
    exact hos.lt hopen⟩
  issued_le := Nat.le_refl _
  isOpen_iff := by
    intro k
    show IsOpen (os.log ++ [.closed h]) k ↔ _
    rw [isOpen_close, or_iff_right (by simp), ne_eq, ne_eq, Option.some.injEq, eq_comm]
  new_cases := fun _ hk => by cases hk

theorem exchanges_createFileW (opening : Opening) :
    Exchanges none os (createFileW opening os).1 (createFileW opening os).2 := by
  unfold createFileW
  by_cases hopening : opening = .succeeds
  · rw [if_pos hopening]
    have hnew : ∀ e ∈ os.log, e.handle ≠ os.issued := fun e he => Nat.ne_of_lt (hos.bounded e he)
    refine ⟨⟨.issue hos.proper hnew, fun e he => ?_⟩, Nat.le_succ _, fun k => ?_, fun k hk => ?_⟩
    · rcases List.mem_append.mp he with he | he
      · exact Nat.lt_succ_of_lt (hos.bounded e he)
      · rw [List.mem_singleton.mp he]
        exact Nat.lt_succ_self _
    · show IsOpen (os.log ++ [.issued os.issued]) k ↔ _
      rw [isOpen_issue hnew, Option.some.injEq, eq_comm]
      simp
    · exact .inr (Nat.le_of_eq (Option.some.inj hk))
  · rw [if_neg hopening]
    exact exchanges_refl hos fun k hk => by cases hk

end

namespace LogicalDriveReader

/-- The method leaves the reader with its own handle, a fresh one or none. -/
def Keeps {α : Type} (method : LogicalDriveReader → Os → Result α) : Prop :=
  ∀ this os, os.Sound → os.Holds this.hDrive →
    Exchanges this.hDrive os (method this os).2.1.hDrive (method this os).2.2

theorem close_hDrive (this : LogicalDriveReader) (os : Os) : (this.close os).1.hDrive = none := by
  unfold close
  split
  · rfl
  · assumption

theorem exchanges_close {this : LogicalDriveReader} {os : Os} (hos : os.Sound) (hheld : os.Holds this.hDrive) :
    Exchanges this.hDrive os none (this.close os).2 := by
  unfold close
  split
  · rename_i h hh
    rw [hh]
    exact exchanges_closeHandle hos (hheld h hh)
  · rename_i hh
    rw [hh]
    exact exchanges_refl hos fun k hk => by cases hk

theorem openDrive_eq (opening : Opening) (this : LogicalDriveReader) (os : Os) :
    (openDrive opening this os).2 =
      ({ this with hDrive := (createFileW opening (this.close os).2).1 }, (createFileW opening (this.close os).2).2) := by
  unfold openDrive
  have hpath : (this.close os).1.drivePath = this.drivePath := by
    unfold close
    split <;> rfl
  cases opening <;> simp only [hpath]

theorem keeps_openDrive (opening : Opening) : Keeps (openDrive opening) := by
  intro this os hos hheld
  rw [openDrive_eq]
  have hclose := exchanges_close hos hheld
  exact hclose.trans hos (exchanges_createFileW hclose.sound opening)

/-- It is enough to look at the body, run with an open handle. -/
theorem keeps_whenOpen {α : Type} (opening : Opening) (failed : α)
    {body : Nat → LogicalDriveReader → Os → Result α}
    (hbody : ∀ h this os, os.Sound → this.hDrive = some h → IsOpen os.log h →
      Exchanges (some h) os (body h this os).2.1.hDrive (body h this os).2.2) :
    Keeps fun this os => whenOpen opening this os failed body := by
  intro this os hos hheld
  have hopened := keeps_openDrive opening this os hos hheld
  unfold whenOpen
  dsimp only
  split
  · rename_i h hh
    rw [hh]
    exact hbody h this os hos hh (hheld h hh)
  · unfold reopen
    generalize openDrive opening this os = opened at hopened
    obtain ⟨reply, this', os'⟩ := opened
    rcases reply with abort | _ | _
    · exact hopened
    · exact hopened
    · dsimp only at hopened ⊢
      split
      · rename_i h hh
        rw [hh] at hopened
        exact hopened.trans hos (hbody h this' os' hopened.sound hh (hopened.holds h rfl))
      · exact hopened

theorem keeps_close : Keeps fun this os => ((.ok (), this.close os) : Result Unit) := by
  intro this os hos hheld
  rw [close_hDrive]
  exact exchanges_close hos hheld

section
variable (opening : Opening)

theorem keeps_readSector (size : UInt32) (positioned : Bool) (bytesRead : Option UInt32) :
    Keeps fun this os => readSector opening this os size positioned bytesRead := by
  refine keeps_whenOpen opening false fun h this os hos hh hopen => ?_
  have hused := exchanges_use hos hopen
  cases positioned
  · simpa [hh] using hused
  · simpa [hh] using hused.trans hos (exchanges_use hused.sound (hused.holds h rfl))

theorem keeps_getBytesPerSector (geometry : Option UInt32) :
    Keeps fun this os => getBytesPerSector opening this os geometry := by
  refine keeps_whenOpen opening 0 fun h this os hos hh hopen => ?_
  simpa [hh] using exchanges_use hos hopen

theorem keeps_getFilesystemType (fileSystemName : Option WString) :
    Keeps fun this os => getFilesystemType opening this os fileSystemName := by
  refine keeps_whenOpen opening _ fun h this os hos hh hopen => ?_
  simpa [hh] using exchanges_use hos hopen

theorem keeps_getTotalMftRecords (volumeData : Int64 × UInt32) :
    Keeps fun this os => getTotalMftRecords opening this os (some volumeData) := by
  refine keeps_whenOpen opening 0 fun h this os hos hh hopen => ?_
  obtain ⟨mftValidDataLength, bytesPerFileRecordSegment⟩ := volumeData
  dsimp only
  split
  · contradiction
  · simpa [hh] using exchanges_use hos hopen
  · simpa [hh] using exchanges_use hos hopen

end

theorem whenOpen_of_open {α : Type} {opening : Opening} {this : LogicalDriveReader} {h : Nat}
    (hthis : this.hDrive = some h) (os : Os) (failed : α) (body : Nat → LogicalDriveReader → Os → Result α) :
    whenOpen opening this os failed body = body h this os := by
  rw [whenOpen, hthis]

theorem whenOpen_of_succeeds {α : Type} {this : LogicalDriveReader} (hthis : this.hDrive = none) (os : Os) (failed : α)
    (body : Nat → LogicalDriveReader → Os → Result α) :
    whenOpen .succeeds this os failed body =
      body os.issued { this with hDrive := some os.issued } (createFileW .succeeds os).2 := by
  have hclose : this.close os = (this, os) := by rw [close, hthis]
  have hopened : reopen .succeeds this os =
      (.ok true, { this with hDrive := some os.issued }, (createFileW .succeeds os).2) := by
    rw [reopen, openDrive, hclose]
    rfl
  simp only [whenOpen, hthis, hopened]

theorem whenOpen_of_ne {α : Type} {opening : Opening} (hopening : opening ≠ .succeeds) {this : LogicalDriveReader}
    (hthis : this.hDrive = none) (os : Os) (failed : α) (body : Nat → LogicalDriveReader → Os → Result α) :
    (whenOpen opening this os failed body).2 = (openDrive opening this os).2 := by
  unfold whenOpen reopen
  rw [hthis]
  cases opening with
  | succeeds => exact absurd rfl hopening
  | accessDenied => rfl
  | fails => rfl

end LogicalDriveReader

/-! ## What holds in every run -/

/-- The MFT query of an open reader fails: `getTotalMftRecords` closes the handle and keeps it. -/
def LosesHandle (op : Operation) (s : Drives) : Prop :=
  ∃ reader opening this, op = .getTotalMftRecords reader opening none ∧ s.readers reader = some this ∧
    (this.isOpen ∨ opening = .succeeds)

/-- No handle is used or closed after its close, an open reader's handle is open, and without
readers no handle is. -/
structure Drives.Safe (s : Drives) : Prop where
  closed_once : ∀ h pre post, s.os.log = pre ++ .closed h :: post → .closed h ∉ post
  unused_after_close : ∀ h pre post, s.os.log = pre ++ .closed h :: post → .used h ∉ post
  isOpen_reader : ∀ reader this, s.readers reader = some this → this.isOpen →
    ∃ h, this.hDrive = some h ∧ IsOpen s.os.log h
  closed_of_destroyed : (∀ reader, s.readers reader = none) → ∀ h, .issued h ∈ s.os.log → .closed h ∈ s.os.log

theorem set_set (s : Drives) (reader : Nat) (this this' : Option LogicalDriveReader) (os os' : Os) :
    (s.set reader this os).set reader this' os' = s.set reader this' os' := by
  unfold Drives.set
  rw [Function.update_idem]

def Drives.held (s : Drives) (reader : Nat) : Option Nat := (s.readers reader).bind (·.hDrive)

structure Drives.Inv (s : Drives) : Prop where
  sound : s.os.Sound
  shared : Shared s.os.log s.held

theorem Drives.Inv.safe {s : Drives} (hs : s.Inv) : s.Safe where
  closed_once := fun _ _ _ hlog hmem => hs.sound.proper.ne_of_closed hlog _ hmem rfl
  unused_after_close := fun _ _ _ hlog hmem => hs.sound.proper.ne_of_closed hlog _ hmem rfl
  isOpen_reader := by
    intro reader this hreader hopen
    obtain ⟨h, hh⟩ := Option.isSome_iff_exists.mp hopen
    refine ⟨h, hh, (hs.shared.isOpen_iff h).mpr ⟨reader, ?_⟩⟩
    rw [Drives.held, hreader]
    exact hh
  closed_of_destroyed := by
    intro hnone h hissued
    by_contra hclosed
    obtain ⟨reader, hheld⟩ := (hs.shared.isOpen_iff h).mp ⟨hissued, hclosed⟩
    rw [Drives.held, hnone] at hheld
    cases hheld

theorem inv_nil : ({} : Drives).Inv where
  sound := ⟨.nil, fun _ he => by cases he⟩
  shared := ⟨fun _ => ⟨fun ho => (by cases ho.1), fun ⟨_, hh⟩ => by cases hh⟩, fun hh => by cases hh⟩

theorem held_set (s : Drives) (reader : Nat) (this : Option LogicalDriveReader) (os : Os) :
    (s.set reader this os).held = Function.update s.held reader (this.bind (·.hDrive)) := by
  funext r
  unfold Drives.held Drives.set
  by_cases hr : r = reader
  · subst hr
    simp
  · simp [Function.update_of_ne hr]

theorem held_of_reader {s : Drives} {reader : Nat} {this : Option LogicalDriveReader} (h : s.readers reader = this) :
    s.held reader = this.bind (·.hDrive) := by
  rw [Drives.held, h]

section
variable {s : Drives} (hs : s.Inv)
include hs

theorem Drives.Inv.holds (reader : Nat) : s.os.Holds (s.held reader) :=
  fun h hh => (hs.shared.isOpen_iff h).mpr ⟨reader, hh⟩

theorem inv_set {reader : Nat} {this : Option LogicalDriveReader} {os : Os}
    (h : Exchanges (s.held reader) s.os (this.bind (·.hDrive)) os) : (s.set reader this os).Inv where
  sound := h.sound
  shared := by
    rw [held_set]
    refine hs.shared.exchange h.isOpen_iff fun k hk => ?_
    exact (h.new_cases k hk).imp_right fun hle hopen => absurd (hs.sound.lt hopen) (Nat.not_lt.mpr hle)

theorem inv_onReader {α : Type} {reader : Nat} {method : LogicalDriveReader → Os → LogicalDriveReader.Result α}
    {s' : Drives} (hmethod : ∀ this, s.readers reader = some this →
      Exchanges this.hDrive s.os (method this s.os).2.1.hDrive (method this s.os).2.2)
    (hstep : onReader s reader method = some s') : s'.Inv := by
  obtain ⟨this, hthis, rfl⟩ := Option.map_eq_some_iff.mp hstep
  apply inv_set hs
  rw [held_of_reader hthis]
  exact hmethod this hthis

theorem inv_of_keeps {α : Type} {reader : Nat} {method : LogicalDriveReader → Os → LogicalDriveReader.Result α}
    {s' : Drives} (hmethod : LogicalDriveReader.Keeps method) (hstep : onReader s reader method = some s') : s'.Inv := by
  refine inv_onReader hs (fun this hthis => hmethod this s.os hs.sound ?_) hstep
  have hheld := hs.holds reader
  rwa [held_of_reader hthis] at hheld

/-- A reader that holds nothing takes over the handle of another. -/
theorem inv_move {reader other : Nat} {this source rest : LogicalDriveReader} (hne : reader ≠ other)
    (hreader : s.held reader = none) (hother : s.readers other = some source)
    (hthis : this.hDrive = source.hDrive) (hrest : rest.hDrive = none) :
    ((s.set reader (some this) s.os).set other (some rest) s.os).Inv where
  sound := hs.sound
  shared := by
    rw [held_set, held_set]
    have hmoved := hs.shared.transfer hne hreader
    rw [held_of_reader hother] at hmoved
    show Shared s.os.log _
    simpa [hthis, hrest] using hmoved

theorem inv_construct {reader : Nat} {drivePath : WString} {opening : Opening} {s' : Drives}
    (hstep : s.step (.construct reader drivePath opening) = some s') : s'.Inv := by
  have hopened := LogicalDriveReader.keeps_openDrive opening ⟨none, drivePath⟩ s.os hs.sound fun k hk => by cases hk
  unfold Drives.step at hstep
  dsimp only at hstep
  cases hreader : s.readers reader with
  | some _ =>
    rw [hreader] at hstep
    cases hstep
  | none =>
    rw [hreader] at hstep
    have hheld : s.held reader = none := by rw [held_of_reader hreader, Option.bind_none]
    cases opening with
    | succeeds =>
      obtain rfl : s.set reader _ _ = s' := Option.some.inj hstep
      apply inv_set hs
      rw [hheld]
      exact hopened
    | accessDenied =>
      obtain rfl : { s with os := _ } = s' := Option.some.inj hstep
      exact hs
    | fails =>
      obtain rfl : { s with os := _ } = s' := Option.some.inj hstep
      exact hs

theorem inv_moveConstruct {reader other : Nat} {s' : Drives}
    (hstep : s.step (.moveConstruct reader other) = some s') : s'.Inv := by
  unfold Drives.step at hstep
  dsimp only at hstep
  split at hstep
  · rename_i source hreader hother
    obtain rfl := Option.some.inj hstep
    have hne : reader ≠ other := by
      rintro rfl
      rw [hreader] at hother
      cases hother
    refine inv_move hs hne ?_ hother rfl rfl
    rw [held_of_reader hreader, Option.bind_none]
  · cases hstep

theorem inv_moveAssign {reader other : Nat} {s' : Drives}
    (hstep : s.step (.moveAssign reader other) = some s') : s'.Inv := by
  unfold Drives.step at hstep
  dsimp only at hstep
  split at hstep
  · rename_i this source hreader hother
    by_cases hsame : reader = other
    · rw [if_pos hsame] at hstep
      exact Option.some.inj hstep ▸ hs
    · rw [if_neg hsame] at hstep
      obtain rfl := Option.some.inj hstep
      -- first `this` is closed, then the handle of `other` moves
      have hclosed : (s.set reader (some (this.close s.os).1) (this.close s.os).2).Inv := by
        apply inv_set hs
        have hheld := hs.holds reader
        rw [held_of_reader hreader] at hheld ⊢
        rw [Option.bind_some, Option.bind_some, LogicalDriveReader.close_hDrive]
        exact LogicalDriveReader.exchanges_close hs.sound hheld
      have hnone : (s.set reader (some (this.close s.os).1) (this.close s.os).2).held reader = none := by
        rw [held_set, Function.update_self, Option.bind_some, LogicalDriveReader.close_hDrive]
      rw [← set_set s reader (some (this.close s.os).1) _ (this.close s.os).2]
      exact inv_move hclosed hsame hnone ((Function.update_of_ne (Ne.symm hsame) _ _).trans hother) rfl rfl
  · cases hstep

theorem inv_destroy {reader : Nat} {s' : Drives} (hstep : s.step (.destroy reader) = some s') : s'.Inv := by
  obtain ⟨this, hthis, rfl⟩ := Option.map_eq_some_iff.mp hstep
  apply inv_set hs
  have hheld := hs.holds reader
  rw [held_of_reader hthis] at hheld ⊢
  exact LogicalDriveReader.exchanges_close hs.sound hheld

theorem inv_getTotalMftRecords {reader : Nat} {opening : Opening} {s' : Drives}
    (hloses : ¬ LosesHandle (.getTotalMftRecords reader opening none) s)
    (hstep : s.step (.getTotalMftRecords reader opening none) = some s') : s'.Inv := by
  have hcall : onReader s reader (fun this os => this.getTotalMftRecords opening os none) = some s' := hstep
  refine inv_onReader hs (fun this hthis => ?_) hcall
  have hnot : ¬ (this.isOpen ∨ opening = .succeeds) := fun h => hloses ⟨reader, opening, this, rfl, hthis, h⟩
  have hnone : this.hDrive = none := by simpa [LogicalDriveReader.isOpen] using fun h => hnot (.inl h)
  have hheld := hs.holds reader
  rw [held_of_reader hthis] at hheld
  unfold LogicalDriveReader.getTotalMftRecords
  rw [LogicalDriveReader.whenOpen_of_ne (fun h => hnot (.inr h)) hnone]
  exact LogicalDriveReader.keeps_openDrive opening this s.os hs.sound hheld

theorem inv_step {op : Operation} {s' : Drives} (hloses : ¬ LosesHandle op s) (hstep : s.step op = some s') :
    s'.Inv := by
  cases op with
  | construct reader drivePath opening => exact inv_construct hs hstep
  | moveConstruct reader other => exact inv_moveConstruct hs hstep
  | moveAssign reader other => exact inv_moveAssign hs hstep
  | reopen reader opening => exact inv_of_keeps hs (LogicalDriveReader.keeps_openDrive opening) hstep
  | close reader => exact inv_of_keeps hs LogicalDriveReader.keeps_close hstep
  | readSector reader opening size positioned bytesRead =>
    exact inv_of_keeps hs (LogicalDriveReader.keeps_readSector opening size positioned bytesRead) hstep
  | getBytesPerSector reader opening geometry =>
    exact inv_of_keeps hs (LogicalDriveReader.keeps_getBytesPerSector opening geometry) hstep
  | getFilesystemType reader opening fileSystemName =>
    exact inv_of_keeps hs (LogicalDriveReader.keeps_getFilesystemType opening fileSystemName) hstep
  | getTotalMftRecords reader opening volumeData =>
    cases volumeData with
    | none => exact inv_getTotalMftRecords hs hloses hstep
    | some volumeData => exact inv_of_keeps hs (LogicalDriveReader.keeps_getTotalMftRecords opening volumeData) hstep
  | destroy reader => exact inv_destroy hs hstep

end

/-- The reader still has the handle that was closed. -/
theorem not_safe_of_losesHandle {op : Operation} {s : Drives} (hloses : LosesHandle op s) :
    ∃ s', s.step op = some s' ∧ ¬ s'.Safe := by
  obtain ⟨reader, opening, this, rfl, hreader, hopen⟩ := hloses
  refine ⟨_, Option.map_eq_some_iff.mpr ⟨this, hreader, rfl⟩, fun hsafe => ?_⟩
  have hkeeps : ∃ h, (this.getTotalMftRecords opening s.os none).2.1.hDrive = some h ∧
      .closed h ∈ (this.getTotalMftRecords opening s.os none).2.2.log := by
    cases hthis : this.hDrive with
    | some h =>
      refine ⟨h, ?_⟩
      rw [LogicalDriveReader.getTotalMftRecords, LogicalDriveReader.whenOpen_of_open hthis]
      exact ⟨hthis, by simp [Os.closeHandle]⟩
    | none =>
      obtain rfl := hopen.resolve_left (by simp [LogicalDriveReader.isOpen, hthis])
      refine ⟨s.os.issued, ?_⟩
      rw [LogicalDriveReader.getTotalMftRecords, LogicalDriveReader.whenOpen_of_succeeds hthis]
      exact ⟨rfl, by simp [Os.closeHandle]⟩
  obtain ⟨h, hh, hclosed⟩ := hkeeps
  obtain ⟨k, hk, hopen⟩ := hsafe.isOpen_reader reader _ (Function.update_self ..) (Option.isSome_of_eq_some hh)
  obtain rfl : h = k := Option.some.inj (hh.symm.trans hk)
  exact hopen.2 hclosed

def drivesAfter (ops : List Operation) : Option Drives := ops.foldlM Drives.step {}

theorem drivesAfter_concat (ops : List Operation) (op : Operation) :
    drivesAfter (ops ++ [op]) = (drivesAfter ops).bind (·.step op) := by
  unfold drivesAfter
  rw [List.foldlM_append]
  cases ops.foldlM Drives.step {} with
  | none => rfl
  | some s => simp

theorem inv_drivesAfter {ops : List Operation}
    (hops : ∀ pre op, pre ++ [op] <+: ops → ∀ s, drivesAfter pre = some s → ¬ LosesHandle op s) {s : Drives}
    (hs : drivesAfter ops = some s) : s.Inv := by
  induction ops using List.reverseRecOn generalizing s with
  | nil => exact Option.some.inj hs ▸ inv_nil
  | append_singleton ops op ih =>
    rw [drivesAfter_concat] at hs
    obtain ⟨before, hbefore, hstep⟩ := Option.bind_eq_some_iff.mp hs
    have hinv := ih (fun pre op' hpre => hops pre op' (hpre.trans (List.prefix_append ..))) hbefore
    exact inv_step hinv (hops ops op (List.prefix_refl _) before hbefore) hstep

/-- Handles are closed once and not used afterwards, in every run without a failed MFT query and in no other. -/
theorem handles_safe_iff (ops : List Operation) :
    (∀ pre, pre <+: ops → ∀ s, drivesAfter pre = some s → s.Safe) ↔
      ∀ pre op, pre ++ [op] <+: ops → ∀ s, drivesAfter pre = some s → ¬ LosesHandle op s := by
  constructor
  · intro hsafe pre op hpre s hs hloses
    obtain ⟨s', hstep, hunsafe⟩ := not_safe_of_losesHandle hloses
    refine hunsafe (hsafe _ hpre s' ?_)
    rw [drivesAfter_concat, hs]
    exact hstep
  · intro hops pre hpre s hs
    exact (inv_drivesAfter (fun pre' op hpre' => hops pre' op (hpre'.trans hpre)) hs).safe

/-- A query fails on an open reader, and destroying the reader closes the handle again. -/
theorem handle_closed_twice :
    ∃ s, drivesAfter [.construct 0 (wide "D:") .succeeds, .getTotalMftRecords 0 .succeeds none, .destroy 0] = some s ∧
      s.os.log = [.issued 0, .used 0, .closed 0, .closed 0] ∧ ¬ s.Safe := by
  refine ⟨_, rfl, rfl, fun hsafe => ?_⟩
  exact hsafe.closed_once 0 [.issued 0, .used 0] [.closed 0] rfl (List.mem_singleton.mpr rfl)

end DataRecovery
