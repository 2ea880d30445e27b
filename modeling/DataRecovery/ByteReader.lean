import DataRecovery.Bytes

/-!
# Reading from a partly known byte array

Parsers that follow untrusted offsets read through `readByte`, which faults where
there is no byte. Three facts about such a parser are wanted: which inputs keep it
inside the array (`InBounds`, with one rule for each construct), which keep it from
another fault (`Without`), and that bytes it does not read do not matter (`Extends`:
a parser that succeeds on part of the bytes gives the same result on all of them).
-/

namespace DataRecovery

inductive Fault where
  | outOfBounds (index : Nat)
  | undefinedShift
  | divisionByZero
  | endless
  deriving DecidableEq

abbrev ByteMap : Type := Nat → Option UInt8

def ofBuffer (buffer : List UInt8) : ByteMap := fun i => buffer[i]?

section
variable (b : ByteMap)

def readByte (i : Nat) : Except Fault UInt8 :=
  match b i with
  | some x => .ok x
  | none => .error (.outOfBounds i)

def readBytes : Nat → Nat → Except Fault (List UInt8)
  | 0, _ => .ok []
  | n + 1, i => do
    let x ← readByte b i
    let xs ← readBytes n (i + 1)
    return x :: xs

def readLE (n i : Nat) : Except Fault Nat := do
  let xs ← readBytes b n i
  return leNat xs

def readU16 (i : Nat) : Except Fault UInt16 := do return UInt16.ofNat (← readLE b 2 i)

def readU32 (i : Nat) : Except Fault UInt32 := do return UInt32.ofNat (← readLE b 4 i)

def readU64 (i : Nat) : Except Fault UInt64 := do return UInt64.ofNat (← readLE b 8 i)

end

/-! ## Binds -/

theorem Except.bind_ok {α β ε : Type} {x : Except ε α} {f : α → Except ε β} {r : β} (h : x >>= f = .ok r) :
    ∃ a, x = .ok a ∧ f a = .ok r := by
  cases x with
  | error e => cases h
  | ok a => exact ⟨a, rfl, h⟩

theorem ok_bind {α β ε : Type} (a : α) (f : α → Except ε β) : (Except.ok a >>= f) = f a := rfl

/-! ## Known bytes -/

def Holds (b : ByteMap) : Nat → List UInt8 → Prop
  | _, [] => True
  | pos, x :: xs => b pos = some x ∧ Holds b (pos + 1) xs

instance decidableHolds (b : ByteMap) : ∀ (pos : Nat) (bytes : List UInt8), Decidable (Holds b pos bytes)
  | _, [] => isTrue trivial
  | pos, x :: xs =>
    have := decidableHolds b (pos + 1) xs
    inferInstanceAs (Decidable (b pos = some x ∧ Holds b (pos + 1) xs))

theorem holds_append {b : ByteMap} : ∀ {xs ys : List UInt8} {pos : Nat},
    Holds b pos (xs ++ ys) ↔ Holds b pos xs ∧ Holds b (pos + xs.length) ys
  | [], ys, pos => by simp [Holds]
  | x :: xs, ys, pos => by
    rw [List.cons_append, Holds, Holds, holds_append, List.length_cons, Nat.add_right_comm pos 1, and_assoc,
      Nat.add_assoc]

theorem readByte_of_holds {b : ByteMap} {pos : Nat} {x : UInt8} {xs : List UInt8} (h : Holds b pos (x :: xs)) :
    readByte b pos = .ok x := by
  unfold readByte
  rw [h.1]

theorem Holds.le_length {buffer : List UInt8} : ∀ {bytes : List UInt8} {pos : Nat},
    Holds (ofBuffer buffer) pos bytes → bytes ≠ [] → pos + bytes.length ≤ buffer.length
  | [x], pos, h, _ => (List.getElem?_eq_some_iff.mp h.1).1
  | x :: y :: bytes, pos, h, _ => by
    have ih := le_length h.2 (by simp)
    simp only [List.length_cons] at ih ⊢
    omega

/-! ## More bytes -/

def Extends (b b' : ByteMap) : Prop := ∀ i x, b i = some x → b' i = some x

/-- `f` gives on an extension what it gives on the bytes themselves. -/
def Stable {α : Type} (f : ByteMap → Except Fault α) : Prop :=
  ∀ b b' r, Extends b b' → f b = .ok r → f b' = .ok r

theorem Stable.pure {α : Type} (x : Except Fault α) : Stable fun _ => x := fun _ _ _ _ h => h

theorem Stable.bind {α β : Type} {f : ByteMap → Except Fault α} {g : α → ByteMap → Except Fault β} (hf : Stable f)
    (hg : ∀ a, Stable (g a)) : Stable fun b => f b >>= fun a => g a b := by
  intro b b' r hb h
  obtain ⟨a, ha, hga⟩ := Except.bind_ok h
  have h1 := hf b b' a hb ha
  have h2 := hg a b b' r hb hga
  show f b' >>= _ = _
  rw [h1]
  exact h2

theorem Stable.ite {α : Type} {c : Prop} [Decidable c] {f g : ByteMap → Except Fault α} (hf : Stable f)
    (hg : Stable g) : Stable fun b => if c then f b else g b := by
  by_cases h : c
  · simpa only [if_pos h] using hf
  · simpa only [if_neg h] using hg

theorem stable_readByte (i : Nat) : Stable fun b => readByte b i := by
  intro b b' r hb h
  simp only [readByte] at h ⊢
  cases hi : b i with
  | none => rw [hi] at h; cases h
  | some x => rw [hi] at h; rw [hb i x hi]; exact h

theorem stable_readBytes : ∀ n i : Nat, Stable fun b => readBytes b n i
  | 0, _ => Stable.pure _
  | n + 1, i => by
    unfold readBytes
    exact (stable_readByte i).bind fun x => (stable_readBytes n (i + 1)).bind fun xs => Stable.pure _

theorem stable_readLE (n i : Nat) : Stable fun b => readLE b n i :=
  (stable_readBytes n i).bind fun _ => Stable.pure _

theorem stable_readU16 (i : Nat) : Stable fun b => readU16 b i := (stable_readLE 2 i).bind fun _ => Stable.pure _

theorem stable_readU32 (i : Nat) : Stable fun b => readU32 b i := (stable_readLE 4 i).bind fun _ => Stable.pure _

theorem stable_readU64 (i : Nat) : Stable fun b => readU64 b i := (stable_readLE 8 i).bind fun _ => Stable.pure _

/-! ## Staying inside -/

/-- `x` does not read outside, and its result, if there is one, satisfies `Q`. -/
def InBounds {α : Type} (x : Except Fault α) (Q : α → Prop) : Prop :=
  match x with
  | .ok a => Q a
  | .error (.outOfBounds _) => False
  | .error _ => True

section
variable {α β : Type}

theorem inBounds_bind {x : Except Fault α} {f : α → Except Fault β} {Q : β → Prop} :
    InBounds (x >>= f) Q ↔ InBounds x fun a => InBounds (f a) Q := by
  cases x with
  | ok a => exact Iff.rfl
  | error e => cases e <;> exact Iff.rfl

theorem inBounds_ok {a : α} {Q : α → Prop} : InBounds (.ok a) Q ↔ Q a := Iff.rfl

theorem inBounds_pure {a : α} {Q : α → Prop} : InBounds (pure a) Q ↔ Q a := Iff.rfl

theorem inBounds_ite {c : Prop} [Decidable c] {x y : Except Fault α} {Q : α → Prop} :
    InBounds (if c then x else y) Q ↔ (c → InBounds x Q) ∧ (¬ c → InBounds y Q) := by
  by_cases h : c
  · rw [if_pos h]; simp [h]
  · rw [if_neg h]; simp [h]

theorem InBounds.mono {x : Except Fault α} {Q Q' : α → Prop} (h : InBounds x Q) (hQ : ∀ a, Q a → Q' a) :
    InBounds x Q' := by
  cases x with
  | ok a => exact hQ a h
  | error e => cases e <;> exact h

theorem inBounds_true_iff {x : Except Fault α} : InBounds x (fun _ => True) ↔ ∀ i, x ≠ .error (.outOfBounds i) := by
  cases x with
  | ok a => simp [InBounds]
  | error e => cases e <;> simp [InBounds]

variable {buffer : List UInt8}

theorem readByte_ofBuffer {i : Nat} (h : i < buffer.length) : readByte (ofBuffer buffer) i = .ok (buffer.getD i 0) := by
  unfold readByte ofBuffer
  rw [List.getElem?_eq_getElem h]
  simp [List.getD_eq_getElem?_getD, h]

theorem inBounds_readByte {i : Nat} {Q : UInt8 → Prop} :
    InBounds (readByte (ofBuffer buffer) i) Q ↔ i < buffer.length ∧ Q (buffer.getD i 0) := by
  by_cases h : i < buffer.length
  · rw [readByte_ofBuffer h, inBounds_ok]
    simp only [h, true_and]
  · unfold readByte ofBuffer
    rw [List.getElem?_eq_none (by omega)]
    simp only [InBounds, h, false_and]

theorem inBounds_readBytes : ∀ {n i : Nat} {Q : List UInt8 → Prop},
    InBounds (readBytes (ofBuffer buffer) n i) Q ↔ (n = 0 ∨ i + n ≤ buffer.length) ∧ Q (slice buffer i n)
  | 0, i, Q => by
    unfold readBytes
    rw [inBounds_ok]
    simp [slice]
  | n + 1, i, Q => by
    unfold readBytes
    rw [inBounds_bind, inBounds_readByte, inBounds_bind, inBounds_readBytes, inBounds_pure]
    constructor
    · rintro ⟨h1, h2, h3⟩
      exact ⟨by omega, by rw [slice_succ h1]; exact h3⟩
    · rintro ⟨h1, h2⟩
      have hi : i < buffer.length := by omega
      exact ⟨hi, by omega, by rw [slice_succ hi] at h2; exact h2⟩

theorem inBounds_readU16 {i : Nat} {Q : UInt16 → Prop} :
    InBounds (readU16 (ofBuffer buffer) i) Q ↔ i + 2 ≤ buffer.length ∧ Q (le16 buffer i) := by
  unfold readU16 readLE
  rw [inBounds_bind, inBounds_bind, inBounds_readBytes]
  simp [inBounds_pure, le16]

theorem inBounds_readU32 {i : Nat} {Q : UInt32 → Prop} :
    InBounds (readU32 (ofBuffer buffer) i) Q ↔ i + 4 ≤ buffer.length ∧ Q (le32 buffer i) := by
  unfold readU32 readLE
  rw [inBounds_bind, inBounds_bind, inBounds_readBytes]
  simp [inBounds_pure, le32]

theorem inBounds_readU64 {i : Nat} {Q : UInt64 → Prop} :
    InBounds (readU64 (ofBuffer buffer) i) Q ↔ i + 8 ≤ buffer.length ∧ Q (le64 buffer i) := by
  unfold readU64 readLE
  rw [inBounds_bind, inBounds_bind, inBounds_readBytes]
  simp [inBounds_pure, le64]

end

/-! ## Other faults -/

theorem bind_ne_error_of_ok {α β : Type} {x : Except Fault α} {f : α → Except Fault β} {fault : Fault}
    (hx : x ≠ .error fault) (hf : ∀ a, x = .ok a → f a ≠ .error fault) : (x >>= f) ≠ .error fault := by
  cases x with
  | error e =>
    intro h
    cases h
    exact hx rfl
  | ok a => exact hf a rfl

theorem bind_ne_error {α β : Type} {x : Except Fault α} {f : α → Except Fault β} {fault : Fault}
    (hx : x ≠ .error fault) (hf : ∀ a, f a ≠ .error fault) : (x >>= f) ≠ .error fault :=
  bind_ne_error_of_ok hx fun a _ => hf a

theorem pure_ne_error {α : Type} {a : α} {fault : Fault} : (pure a : Except Fault α) ≠ .error fault :=
  fun h => by cases h

section
variable {fault : Fault} (hfault : ∀ i, fault ≠ .outOfBounds i) (b : ByteMap)
include hfault

theorem readByte_ne_error (i : Nat) : readByte b i ≠ .error fault := by
  unfold readByte
  split
  · simp
  · intro h
    cases h
    exact hfault i rfl

theorem readBytes_ne_error : ∀ n i : Nat, readBytes b n i ≠ .error fault
  | 0, _ => pure_ne_error
  | n + 1, i => bind_ne_error (readByte_ne_error hfault b i) fun _ =>
      bind_ne_error (readBytes_ne_error n (i + 1)) fun _ => pure_ne_error

theorem readLE_ne_error (n i : Nat) : readLE b n i ≠ .error fault :=
  bind_ne_error (readBytes_ne_error hfault b n i) fun _ => pure_ne_error

end

def Without {α : Type} (bad : Fault) (x : Except Fault α) (Q : α → Prop) : Prop :=
  match x with
  | .ok a => Q a
  | .error e => e ≠ bad

section
variable {α β : Type} {bad : Fault}

theorem without_bind {x : Except Fault α} {f : α → Except Fault β} {Q : β → Prop} :
    Without bad (x >>= f) Q ↔ Without bad x fun a => Without bad (f a) Q := by
  cases x with
  | ok a => exact Iff.rfl
  | error e => exact Iff.rfl

theorem without_ok {a : α} {Q : α → Prop} : Without bad (.ok a) Q ↔ Q a := Iff.rfl

theorem without_error {Q : α → Prop} : Without bad (.error bad : Except Fault α) Q ↔ False := by
  simp [Without]

theorem without_ite {c : Prop} [Decidable c] {x y : Except Fault α} {Q : α → Prop} :
    Without bad (if c then x else y) Q ↔ (c → Without bad x Q) ∧ (¬ c → Without bad y Q) := by
  by_cases h : c
  · rw [if_pos h]; simp [h]
  · rw [if_neg h]; simp [h]

theorem without_true_iff {x : Except Fault α} : Without bad x (fun _ => True) ↔ x ≠ .error bad := by
  cases x with
  | ok a => simp [Without]
  | error e => simp [Without]

theorem without_readByte (hbad : ∀ i, bad ≠ .outOfBounds i) {buffer : List UInt8} {i : Nat} {Q : UInt8 → Prop} :
    Without bad (readByte (ofBuffer buffer) i) Q ↔ (i < buffer.length → Q (buffer.getD i 0)) := by
  by_cases h : i < buffer.length
  · rw [readByte_ofBuffer h, without_ok]
    simp only [h, true_imp_iff]
  · unfold readByte ofBuffer
    rw [List.getElem?_eq_none (by omega)]
    simp only [h, false_imp_iff, iff_true]
    exact fun h => hbad i h.symm

end

/-! ## Success -/

def Succeeds {α : Type} (x : Except Fault α) (Q : α → Prop) : Prop :=
  match x with
  | .ok a => Q a
  | .error _ => False

section
variable {α β : Type}

theorem succeeds_bind {x : Except Fault α} {f : α → Except Fault β} {Q : β → Prop} :
    Succeeds (x >>= f) Q ↔ Succeeds x fun a => Succeeds (f a) Q := by
  cases x with
  | ok a => exact Iff.rfl
  | error e => exact Iff.rfl

theorem succeeds_ok {a : α} {Q : α → Prop} : Succeeds (.ok a) Q ↔ Q a := Iff.rfl

theorem succeeds_pure {a : α} {Q : α → Prop} : Succeeds (pure a) Q ↔ Q a := Iff.rfl

theorem succeeds_ite {c : Prop} [Decidable c] {x y : Except Fault α} {Q : α → Prop} :
    Succeeds (if c then x else y) Q ↔ (c → Succeeds x Q) ∧ (¬ c → Succeeds y Q) := by
  by_cases h : c
  · rw [if_pos h]; simp [h]
  · rw [if_neg h]; simp [h]

theorem succeeds_true_iff {x : Except Fault α} : Succeeds x (fun _ => True) ↔ ∃ a, x = .ok a := by
  cases x with
  | ok a => simp [Succeeds]
  | error e => simp [Succeeds]

/-- What stays inside whatever comes of it, and does not if nothing may, has a result. -/
theorem succeeds_iff_inBounds {x : Except Fault α} {Q : α → Prop} :
    Succeeds x Q ↔ InBounds x Q ∧ ¬ InBounds x fun _ => False := by
  cases x with
  | ok a => simp [Succeeds, InBounds]
  | error e => cases e <;> simp [Succeeds, InBounds]

variable {buffer : List UInt8}

theorem succeeds_readU16 {i : Nat} {Q : UInt16 → Prop} :
    Succeeds (readU16 (ofBuffer buffer) i) Q ↔ i + 2 ≤ buffer.length ∧ Q (le16 buffer i) := by
  rw [succeeds_iff_inBounds, inBounds_readU16, inBounds_readU16]
  simp

theorem succeeds_readU32 {i : Nat} {Q : UInt32 → Prop} :
    Succeeds (readU32 (ofBuffer buffer) i) Q ↔ i + 4 ≤ buffer.length ∧ Q (le32 buffer i) := by
  rw [succeeds_iff_inBounds, inBounds_readU32, inBounds_readU32]
  simp

end

end DataRecovery
