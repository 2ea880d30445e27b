import Mathlib.Data.List.Basic

/-!
# Concatenated chunks

The content of a file is the concatenation of equally long chunks, one for each
entry of a list. A leading part of it is given by the first entries, and in turn
tells the first element of each of their chunks.
-/

namespace DataRecovery

section
variable {α β : Type} {chunk : α → List β} {n : Nat}

theorem length_flatMap_chunks : ∀ {xs : List α}, (∀ x ∈ xs, (chunk x).length = n) →
    (xs.flatMap chunk).length = xs.length * n
  | [], _ => by simp
  | x :: xs, h => by
    have ih := length_flatMap_chunks fun y hy => h y (List.mem_cons_of_mem _ hy)
    simp only [List.flatMap_cons, List.length_append, List.length_cons, ih, h x (List.mem_cons_self ..)]
    rw [Nat.add_mul, Nat.one_mul, Nat.add_comm]

theorem take_flatMap_chunks {xs : List α} {k s : Nat} (h : ∀ x ∈ xs.take k, (chunk x).length = n) (hs : s ≤ k * n) :
    (xs.flatMap chunk).take s = ((xs.take k).flatMap chunk).take s := by
  by_cases hk : xs.length ≤ k
  · rw [List.take_of_length_le hk]
  · have hlen : ((xs.take k).flatMap chunk).length = k * n := by
      rw [length_flatMap_chunks h, List.length_take, Nat.min_eq_left (Nat.le_of_not_le hk)]
    have hsplit : xs.flatMap chunk = (xs.take k).flatMap chunk ++ (xs.drop k).flatMap chunk := by
      rw [← List.flatMap_append, List.take_append_drop]
    rw [hsplit, List.take_append_of_le_length (by rw [hlen]; exact hs)]

theorem getElem?_flatMap_chunk {b : Nat} (hb : b < n) : ∀ {xs : List α}, (∀ x ∈ xs, (chunk x).length = n) → ∀ j,
    (xs.flatMap chunk)[j * n + b]? = xs[j]?.bind fun x => (chunk x)[b]?
  | [], _, j => by simp
  | x :: xs, h, 0 => by
    have hx := h x (List.mem_cons_self ..)
    rw [Nat.zero_mul, Nat.zero_add, List.flatMap_cons, List.getElem?_append_left (by rw [hx]; exact hb)]
    rfl
  | x :: xs, h, j + 1 => by
    have hx := h x (List.mem_cons_self ..)
    have ih := getElem?_flatMap_chunk hb (fun y hy => h y (List.mem_cons_of_mem _ hy)) j
    rw [List.flatMap_cons, List.getElem?_append_right (by rw [hx, Nat.add_mul]; omega), hx, List.getElem?_cons_succ,
      ← ih]
    congr 1
    rw [Nat.add_mul, Nat.one_mul]
    omega

theorem getElem?_flatMap_chunks (hn : 0 < n) {xs : List α} (h : ∀ x ∈ xs, (chunk x).length = n) (j : Nat) :
    (xs.flatMap chunk)[j * n]? = xs[j]?.bind fun x => (chunk x)[0]? :=
  getElem?_flatMap_chunk hn h j

theorem heads_of_take_eq {xs ys : List α} {s : Nat} (hn : 0 < n) (hx : ∀ x ∈ xs, (chunk x).length = n)
    (hy : ∀ y ∈ ys, (chunk y).length = n) (h : (xs.flatMap chunk).take s = (ys.flatMap chunk).take s) {j : Nat}
    (hj : j * n < s) : (xs[j]?.bind fun x => (chunk x)[0]?) = ys[j]?.bind fun y => (chunk y)[0]? := by
  have hget := congrArg (fun l : List β => l[j * n]?) h
  simp only [List.getElem?_take_of_lt hj] at hget
  rw [getElem?_flatMap_chunks hn hx, getElem?_flatMap_chunks hn hy] at hget
  exact hget

theorem flatMap_range_chunks (f : Nat → β) (m : Nat) : ∀ n : Nat,
    ((List.range n).flatMap fun i => (List.range m).map fun j => f (m * i + j)) = (List.range (n * m)).map f
  | 0 => by rw [Nat.zero_mul]; rfl
  | n + 1 => by
    rw [List.range_succ, List.flatMap_append, flatMap_range_chunks f m n, Nat.add_mul, Nat.one_mul, List.range_add,
      List.map_append, List.map_map, List.flatMap_singleton, Nat.mul_comm m n]
    rfl

end

theorem lt_ceil_iff {n : Nat} (hn : 0 < n) {s j : Nat} : j < (s + n - 1) / n ↔ j * n < s := by
  rw [Nat.lt_iff_add_one_le, Nat.le_div_iff_mul_le hn, Nat.add_mul, Nat.one_mul]
  omega

theorem le_ceil_mul {n : Nat} (hn : 0 < n) (s : Nat) : s ≤ (s + n - 1) / n * n := by
  have h := mt (lt_ceil_iff (s := s) hn).mpr (Nat.lt_irrefl ((s + n - 1) / n))
  omega

theorem wrapped_ceil {w s b : Nat} (hs : s < w) (hb : b < w) (hpos : 0 < b) :
    (w - 1 + (s + b) % w) % w / b = if s + b ≤ w then (s + b - 1) / b else 0 := by
  split
  · rename_i hfit
    congr 1
    -- at `s + b = w` the sum wraps to 0 and the difference back
    rcases Nat.lt_or_eq_of_le hfit with hlt | heq
    · rw [Nat.mod_eq_of_lt hlt, show w - 1 + (s + b) = s + b - 1 + w by omega, Nat.add_mod_right,
        Nat.mod_eq_of_lt (by omega)]
    · rw [heq, Nat.mod_self, Nat.add_zero, Nat.mod_eq_of_lt (by omega)]
  · rename_i hover
    rw [Nat.mod_eq_sub_mod (a := s + b) (by omega), Nat.mod_eq_of_lt (a := s + b - w) (by omega),
      show w - 1 + (s + b - w) = s + b - w - 1 + w by omega, Nat.add_mod_right, Nat.mod_eq_of_lt (by omega)]
    exact Nat.div_eq_of_lt (by omega)

/-! ## Padded text -/

section
variable {α : Type} {n : Nat} {p : α → Bool} {z : α} (hz : p z = false)
include hz

theorem takeWhile_padded {text : List α} (h : ∀ x ∈ text, p x = true) (k : Nat) :
    (text ++ List.replicate k z).takeWhile p = text := by
  rw [List.takeWhile_append_of_pos h]
  cases k with
  | zero => simp
  | succ k => rw [List.replicate_succ, List.takeWhile_cons_of_neg (by simp [hz]), List.append_nil]

/-- Chunks that are full up to the padding of the last one give the text, each a part of it. -/
theorem takeWhile_chunks : ∀ {chunks : List (List α)} {text : List α} {k : Nat}, (∀ c ∈ chunks, c.length = n) →
    chunks.flatten = text ++ List.replicate k z → k < n → (∀ x ∈ text, p x = true) →
      (∀ c ∈ chunks, c.takeWhile p ≠ []) ∧ chunks.flatMap (List.takeWhile p) = text
  | [], text, k, _, h, _, _ => by
    obtain ⟨rfl, -⟩ := List.append_eq_nil_iff.mp h.symm
    exact ⟨List.forall_mem_nil _, rfl⟩
  | [c], text, k, hlen, h, hk, htext => by
    rw [List.flatten_singleton] at h
    have htake : c.takeWhile p = text := by rw [h, takeWhile_padded hz htext]
    have hne : text ≠ [] := by
      intro hnil
      have hc := hlen c (List.mem_singleton_self c)
      rw [h, hnil, List.nil_append, List.length_replicate] at hc
      omega
    refine ⟨fun c' hc' => ?_, by simp [htake]⟩
    rw [List.mem_singleton.mp hc', htake]
    exact hne
  | c :: c' :: chunks, text, k, hlen, h, hk, htext => by
    have hc := hlen c (List.mem_cons_self ..)
    have hc' := hlen c' (List.mem_cons_of_mem _ (List.mem_cons_self ..))
    have hroom : n ≤ text.length := by
      have htotal := congrArg List.length h
      simp only [List.flatten_cons, List.length_append, List.length_replicate, hc, hc'] at htotal
      omega
    rw [List.flatten_cons, ← List.take_append_drop n text, List.append_assoc] at h
    obtain ⟨hhead, hrest⟩ := List.append_inj h (by rw [hc, List.length_take, Nat.min_eq_left hroom])
    have hall : ∀ x ∈ c, p x = true := fun x hx => htext x (List.mem_of_mem_take (hhead ▸ hx))
    have hwhole : c.takeWhile p = c := by
      have h0 := takeWhile_padded hz hall 0
      rw [List.replicate_zero, List.append_nil] at h0
      exact h0
    obtain ⟨ihne, ih⟩ := takeWhile_chunks (fun x hx => hlen x (List.mem_cons_of_mem _ hx)) hrest hk
      fun x hx => htext x (List.mem_of_mem_drop hx)
    constructor
    · intro x hx
      rcases List.mem_cons.mp hx with rfl | hx
      · rw [hwhole]
        intro hnil
        rw [hnil, List.length_nil] at hc
        omega
      · exact ihne x hx
    · rw [List.flatMap_cons, ih, hwhole, hhead, List.take_append_drop]

end

end DataRecovery
