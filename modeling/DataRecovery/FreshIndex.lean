import Mathlib.Data.List.Perm.Subperm
import Mathlib.Data.List.Nodup

/-!
# The first index that is not taken

A search that tries one name after another ends when the names differ and only
finitely many are taken: it needs at most one more try than there are taken names.
-/

namespace DataRecovery

section
variable {α : Type} (taken : Nat → Bool)

def firstFree : Nat → Nat → Nat
  | 0, n => n
  | fuel + 1, n => if taken n then firstFree fuel (n + 1) else n

theorem le_firstFree : ∀ fuel n : Nat, n ≤ firstFree taken fuel n
  | 0, n => Nat.le_refl n
  | fuel + 1, n => by
    unfold firstFree
    split
    · exact Nat.le_trans (Nat.le_succ n) (le_firstFree fuel (n + 1))
    · exact Nat.le_refl n

theorem firstFree_le : ∀ fuel n : Nat, firstFree taken fuel n ≤ n + fuel
  | 0, n => Nat.le_refl n
  | fuel + 1, n => by
    unfold firstFree
    split
    · exact Nat.le_trans (firstFree_le fuel (n + 1)) (Nat.le_of_eq (Nat.succ_add n fuel))
    · exact Nat.le_add_right n (fuel + 1)

theorem taken_of_firstFree : ∀ (fuel n : Nat), taken (firstFree taken fuel n) = true →
    ∀ i, i ≤ fuel → taken (n + i) = true
  | 0, n, h, i, hi => by
    obtain rfl : i = 0 := by omega
    exact h
  | fuel + 1, n, h, i, hi => by
    unfold firstFree at h
    split at h
    · rename_i hn
      cases i with
      | zero => exact hn
      | succ i =>
        rw [show n + (i + 1) = n + 1 + i by omega]
        exact taken_of_firstFree fuel (n + 1) h i (by omega)
    · rename_i hn; exact absurd h hn

theorem taken_of_lt_firstFree : ∀ {fuel n i : Nat}, n ≤ i → i < firstFree taken fuel n → taken i = true
  | 0, n, i, hni, hi => absurd hi (Nat.not_lt.mpr hni)
  | fuel + 1, n, i, hni, hi => by
    unfold firstFree at hi
    split at hi
    · rename_i hn
      rcases Nat.eq_or_lt_of_le hni with rfl | hlt
      · exact hn
      · exact taken_of_lt_firstFree hlt hi
    · exact absurd hi (Nat.not_lt.mpr hni)

theorem firstFree_free {names : Nat → α} {used : List α} {n : Nat}
    (hinj : ∀ i j, n ≤ i → n ≤ j → names i = names j → i = j)
    (hused : ∀ i, n ≤ i → taken i = true → names i ∈ used) : taken (firstFree taken used.length n) = false := by
  by_contra h
  have hall := taken_of_firstFree taken used.length n (by simpa using h)
  let tried := (List.range (used.length + 1)).map fun i => names (n + i)
  have hnodup : tried.Nodup := by
    refine List.Nodup.map_on ?_ List.nodup_range
    intro i _ j _ hij
    have := hinj (n + i) (n + j) (by omega) (by omega) hij
    omega
  have hsub : tried ⊆ used := by
    intro x hx
    obtain ⟨i, hi, rfl⟩ := List.mem_map.mp hx
    have hi : i < used.length + 1 := List.mem_range.mp hi
    exact hused _ (by omega) (hall i (by omega))
  have hlen := (List.subperm_of_subset hnodup hsub).length_le
  simp only [tried, List.length_map, List.length_range] at hlen
  omega

end

end DataRecovery
