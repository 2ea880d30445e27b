import Mathlib.Data.List.Basic
import Mathlib.Data.Nat.ModEq

/-!
# Scanning a list in blocks

A scanner reads a list from left to right, with a state, and closes at its end. Read in
blocks of `m` elements it closes at the end of each block and starts afresh. What it
keeps from one block is nothing, so the elements of one record are scanned as in one
piece exactly as far as they lie in one block. Records one after another are each
scanned at their own position.
-/

namespace DataRecovery

structure Scanner (ι σ ω : Type) where
  start : σ
  step : σ → ι → List ω × σ
  close : σ → List ω
  close_start : close start = []

namespace Scanner

variable {ι σ ω : Type} (S : Scanner ι σ ω)

def run : List ι → σ → List ω
  | [], s => S.close s
  | x :: xs, s => (S.step s x).1 ++ run xs (S.step s x).2

/-- What is put out while the list is read, and the state then. -/
def feed : List ι → σ → List ω × σ
  | [], s => ([], s)
  | x :: xs, s => ((S.step s x).1 ++ (feed xs (S.step s x).2).1, (feed xs (S.step s x).2).2)

/-- The list starts at position `p` of a list that is cut into blocks of `m`. -/
def runBlocks (m : Nat) : Nat → List ι → σ → List ω
  | _, [], s => S.close s
  | p, x :: xs, s =>
    (S.step s x).1 ++
      if m ∣ p + 1 then S.close (S.step s x).2 ++ runBlocks m (p + 1) xs S.start
      else runBlocks m (p + 1) xs (S.step s x).2

def room (m p : Nat) : Nat := m - p % m

theorem run_append : ∀ (xs ys : List ι) (s : σ), S.run (xs ++ ys) s = (S.feed xs s).1 ++ S.run ys (S.feed xs s).2
  | [], _, _ => rfl
  | x :: xs, ys, s => by
    rw [List.cons_append, run, run_append xs ys]
    exact (List.append_assoc ..).symm

theorem feed_append : ∀ (xs ys : List ι) (s : σ),
    S.feed (xs ++ ys) s = ((S.feed xs s).1 ++ (S.feed ys (S.feed xs s).2).1, (S.feed ys (S.feed xs s).2).2)
  | [], _, _ => rfl
  | x :: xs, ys, s => by
    rw [List.cons_append, feed, feed_append xs ys]
    exact Prod.ext (List.append_assoc ..).symm rfl

theorem run_eq_feed (xs : List ι) (s : σ) : S.run xs s = (S.feed xs s).1 ++ S.close (S.feed xs s).2 := by
  have h := S.run_append xs [] s
  rw [List.append_nil] at h
  exact h

section
variable {m p : Nat}

theorem room_pos (hm : 0 < m) : 0 < room m p := Nat.sub_pos_of_lt (Nat.mod_lt _ hm)

theorem mod_succ_of_room (h : 1 < room m p) : (p + 1) % m = p % m + 1 := by
  unfold room at h
  have hlt := Nat.mod_lt p (show 0 < m by omega)
  have hone := Nat.mod_eq_of_lt (show 1 < m by omega)
  rw [Nat.add_mod_of_add_mod_lt, hone]
  rw [hone]
  omega

theorem not_dvd_of_room (h : 1 < room m p) : ¬ m ∣ p + 1 := by
  intro hdvd
  have hmod := mod_succ_of_room h
  rw [Nat.mod_eq_zero_of_dvd hdvd] at hmod
  cases hmod

theorem room_succ (h : 1 < room m p) : room m (p + 1) = room m p - 1 := by
  unfold room
  rw [mod_succ_of_room h]
  rfl

theorem room_of_dvd (h : m ∣ p) : room m p = m := by
  unfold room
  rw [Nat.mod_eq_zero_of_dvd h, Nat.sub_zero]

theorem dvd_add_room (hm : 0 < m) : m ∣ p + room m p := by
  unfold room
  have hlt := Nat.mod_lt p hm
  refine ⟨p / m + 1, ?_⟩
  have hdiv := Nat.div_add_mod p m
  rw [Nat.mul_add]
  omega

theorem runBlocks_append {xs ys : List ι} {s : σ} (h : xs.length < room m p) :
    S.runBlocks m p (xs ++ ys) s = (S.feed xs s).1 ++ S.runBlocks m (p + xs.length) ys (S.feed xs s).2 := by
  induction xs generalizing p s with
  | nil => rfl
  | cons x xs ih =>
    rw [List.length_cons] at h
    have hroom : 1 < room m p := by omega
    have hlt : xs.length < room m (p + 1) := by rw [room_succ hroom]; omega
    rw [List.cons_append, runBlocks, if_neg (not_dvd_of_room hroom), ih hlt, Nat.add_assoc, Nat.add_comm 1]
    exact (List.append_assoc ..).symm

/-- The rest of a block is read as a list of its own. -/
theorem runBlocks_append_block (hm : 0 < m) {xs ys : List ι} {s : σ} (h : xs.length = room m p) :
    S.runBlocks m p (xs ++ ys) s = S.run xs s ++ S.runBlocks m (p + xs.length) ys S.start := by
  induction xs generalizing p s with
  | nil => exact absurd h (Nat.ne_of_lt (room_pos hm))
  | cons x xs ih =>
    cases xs with
    | nil =>
      have hdvd : m ∣ p + 1 := by rw [show 1 = room m p from h]; exact dvd_add_room hm
      rw [List.cons_append, runBlocks, if_pos hdvd]
      exact (List.append_assoc ..).symm
    | cons y xs =>
      rw [List.length_cons] at h
      have hroom : 1 < room m p := by rw [← h, List.length_cons]; omega
      have hlen : (y :: xs).length = room m (p + 1) := by rw [room_succ hroom, ← h]; rfl
      rw [List.cons_append, runBlocks, if_neg (not_dvd_of_room hroom), ih hlen, List.length_cons (a := x),
        Nat.add_assoc, Nat.add_comm 1]
      exact (List.append_assoc ..).symm

theorem flatMap_run {blocks : List (List ι)} (hp : m ∣ p) (hlen : ∀ block ∈ blocks, block.length = m) :
    (blocks.flatMap fun block => S.run block S.start) = S.runBlocks m p blocks.flatten S.start := by
  induction blocks generalizing p with
  | nil => exact S.close_start.symm
  | cons block blocks ih =>
    have hblock := hlen block (List.mem_cons_self ..)
    have ih' := fun q (hq : m ∣ q) => ih hq fun b hb => hlen b (List.mem_cons_of_mem _ hb)
    rw [List.flatMap_cons, List.flatten_cons]
    cases Nat.eq_zero_or_pos m with
    | inl hm =>
      obtain rfl := List.eq_nil_of_length_eq_zero (hblock.trans hm)
      rw [ih' p hp]
      show S.close S.start ++ _ = _
      rw [S.close_start]
      rfl
    | inr hm =>
      rw [S.runBlocks_append_block hm (hblock.trans (room_of_dvd hp).symm), hblock]
      rw [ih' _ ((Nat.dvd_add_right hp).mpr (Nat.dvd_refl m))]

/-- The rest of the list is read as if the scanner closed before it. -/
def Resumes (rest : List ι) (s : σ) : Prop :=
  ∀ m p, S.runBlocks m p rest s = S.close s ++ S.runBlocks m p rest S.start

/-- A record that lies in one block is read as a list of its own. -/
theorem runBlocks_record (hm : 0 < m) {xs ys : List ι} {s : σ} (h : xs.length ≤ room m p)
    (hrest : S.Resumes ys (S.feed xs s).2) :
    S.runBlocks m p (xs ++ ys) s = S.run xs s ++ S.runBlocks m (p + xs.length) ys S.start := by
  cases Nat.lt_or_eq_of_le h with
  | inl hlt => rw [S.runBlocks_append hlt, hrest, ← List.append_assoc, ← S.run_eq_feed]
  | inr heq => exact S.runBlocks_append_block hm heq

end

end Scanner

/-! ## Records one after another -/

section
variable {ι ρ ω : Type} {entries : ρ → List ι}

theorem forall_split_cons {P : List ρ → ρ → Prop} {r : ρ} {records : List ρ} :
    (∀ pre t post, r :: records = pre ++ t :: post → P pre t) ↔
      P [] r ∧ ∀ pre t post, records = pre ++ t :: post → P (r :: pre) t := by
  constructor
  · intro h
    refine ⟨h [] r records rfl, fun pre t post hsplit => h (r :: pre) t post ?_⟩
    rw [hsplit]
    rfl
  · intro h pre t post hsplit
    cases pre with
    | nil =>
      obtain ⟨rfl, -⟩ := List.cons.inj hsplit
      exact h.1
    | cons u pre =>
      obtain ⟨rfl, hrest⟩ := List.cons.inj hsplit
      exact h.2 pre t post hrest

theorem forall_split_nil {P : List ρ → ρ → Prop} : ∀ pre t post, [] = pre ++ t :: post → P pre t := by
  intro pre t post hsplit
  exact absurd hsplit.symm (List.append_ne_nil_of_right_ne_nil pre (List.cons_ne_nil t post))

section
variable {whole : ρ → List ω} {cut : Nat → ρ → List ω} {placed : Nat → List ρ → List ω}
  (hnil : ∀ p, placed p [] = [])
  (hcons : ∀ p r records, placed p (r :: records) = cut p r ++ placed (p + (entries r).length) records)
  (hlen : ∀ p r, (cut p r).length ≤ (whole r).length)
include hnil hcons hlen

theorem length_placed : ∀ (records : List ρ) (p : Nat), (placed p records).length ≤ (records.flatMap whole).length
  | [], p => by
    rw [hnil]
    exact Nat.le_refl _
  | r :: records, p => by
    rw [hcons, List.flatMap_cons, List.length_append, List.length_append]
    exact Nat.add_le_add (hlen p r) (length_placed records _)

/-- Where no record gives more when it is cut, all give the same exactly when each one does. -/
theorem placed_eq_iff : ∀ (records : List ρ) (p : Nat),
    placed p records = records.flatMap whole ↔
      ∀ pre r post, records = pre ++ r :: post → cut (p + (pre.flatMap entries).length) r = whole r
  | [], p => by
    rw [hnil]
    exact ⟨fun _ => forall_split_nil, fun _ => rfl⟩
  | r :: records, p => by
    have hsplit : cut p r ++ placed (p + (entries r).length) records = whole r ++ records.flatMap whole ↔
        cut p r = whole r ∧ placed (p + (entries r).length) records = records.flatMap whole := by
      constructor
      · intro h
        have htotal := congrArg List.length h
        rw [List.length_append, List.length_append] at htotal
        have hhead := hlen p r
        have htail := length_placed hnil hcons hlen records (p + (entries r).length)
        exact List.append_inj h (by omega)
      · intro h
        rw [h.1, h.2]
    have htail : ∀ pre : List ρ,
        p + ((r :: pre).flatMap entries).length = p + (entries r).length + (pre.flatMap entries).length := by
      intro pre
      rw [List.flatMap_cons, List.length_append, Nat.add_assoc]
    rw [hcons, List.flatMap_cons, hsplit, placed_eq_iff records,
      forall_split_cons (P := fun pre t => cut (p + (pre.flatMap entries).length) t = whole t)]
    simp only [htail]
    rfl

end

end

end DataRecovery
