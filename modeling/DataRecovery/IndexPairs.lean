import Mathlib.Data.List.Basic
import Mathlib.Data.List.Pairwise
import Mathlib.Data.Prod.Lex

/-!
# Pairs of places

Two nested loops over a list, the inner one starting after the outer one's place, meet
every pair of places once, in lexicographic order. What they collect is the pairs of
elements in the order in which the list's own recursion gives them.
-/

namespace DataRecovery

/-- The places `i < j < n`, as the two loops go through them. -/
def indexPairs (n : Nat) : List (Nat × Nat) :=
  (List.range n).flatMap fun i => (List.range' (i + 1) (n - (i + 1))).map fun j => (i, j)

theorem mem_indexPairs {n i j : Nat} : (i, j) ∈ indexPairs n ↔ i < j ∧ j < n := by
  unfold indexPairs
  simp only [List.mem_flatMap, List.mem_range, List.mem_map, Prod.mk.injEq, List.mem_range'_1]
  constructor
  · rintro ⟨i', hi, j', hj, rfl, rfl⟩
    omega
  · rintro ⟨hij, hj⟩
    exact ⟨i, by omega, j, by omega, rfl, rfl⟩

theorem sorted_indexPairs (n : Nat) : (indexPairs n).Pairwise (Prod.Lex (· < ·) (· < ·)) := by
  rw [indexPairs, List.pairwise_flatMap]
  constructor
  · intro i _
    rw [List.pairwise_map]
    exact (List.pairwise_lt_range' (s := i + 1) 1).imp fun h => Prod.Lex.right _ h
  · refine List.pairwise_lt_range.imp fun hij p hp q hq => ?_
    obtain ⟨j, -, rfl⟩ := List.mem_map.mp hp
    obtain ⟨k, -, rfl⟩ := List.mem_map.mp hq
    exact Prod.Lex.left _ _ hij

section
variable {α : Type}

def pairAt (xs : List α) (place : Nat × Nat) : Option (α × α) :=
  match xs[place.1]?, xs[place.2]? with
  | some x, some y => some (x, y)
  | _, _ => none

theorem pairAt_eq_some {xs : List α} {i j : Nat} {x y : α} :
    pairAt xs (i, j) = some (x, y) ↔ xs[i]? = some x ∧ xs[j]? = some y := by
  unfold pairAt
  dsimp only
  cases xs[i]? with
  | none => simp
  | some a =>
    cases xs[j]? with
    | none => simp
    | some b => simp

def orderedPairs : List α → List (α × α)
  | [] => []
  | x :: xs => xs.map (fun y => (x, y)) ++ orderedPairs xs

/-- The pairs with the first place, and the others one place on. -/
theorem indexPairs_succ (n : Nat) :
    indexPairs (n + 1) = (List.range n).map (fun j => (0, j + 1)) ++ (indexPairs n).map (Prod.map Nat.succ Nat.succ) := by
  have hfirst : List.range' (0 + 1) (n + 1 - (0 + 1)) = (List.range n).map Nat.succ := by
    rw [List.range'_succ_left, Nat.zero_add, Nat.add_sub_cancel, List.range_eq_range']
  have hlater : ∀ i, List.range' (i + 1 + 1) (n + 1 - (i + 1 + 1)) =
      (List.range' (i + 1) (n - (i + 1))).map Nat.succ := by
    intro i
    rw [List.range'_succ_left, Nat.add_sub_add_right]
  unfold indexPairs
  rw [List.range_succ_eq_map, List.flatMap_cons, List.flatMap_map, List.map_flatMap, hfirst, List.map_map]
  refine congrArg _ (List.flatMap_congr fun i _ => ?_)
  rw [Nat.succ_eq_add_one, hlater, List.map_map, List.map_map]
  rfl

theorem filterMap_getElem? {β : Type} (f : α → β) : ∀ xs : List α,
    (List.range xs.length).filterMap (fun j => xs[j]?.map f) = xs.map f
  | [] => rfl
  | x :: xs => by
    rw [List.length_cons, List.range_succ_eq_map, List.filterMap_cons_some (by rfl), List.filterMap_map]
    exact congrArg _ (filterMap_getElem? f xs)

/-- The loops collect the pairs in the order of the recursion. -/
theorem filterMap_pairAt : ∀ xs : List α, (indexPairs xs.length).filterMap (pairAt xs) = orderedPairs xs
  | [] => rfl
  | x :: xs => by
    have hfirst : (pairAt (x :: xs) ∘ fun j => (0, j + 1)) = fun j => xs[j]?.map fun y => (x, y) := by
      funext j
      unfold pairAt
      simp only [Function.comp_apply, List.getElem?_cons_zero, List.getElem?_cons_succ]
      cases xs[j]? <;> rfl
    have hlater : pairAt (x :: xs) ∘ Prod.map Nat.succ Nat.succ = pairAt xs := rfl
    rw [List.length_cons, indexPairs_succ, List.filterMap_append, List.filterMap_map, List.filterMap_map, hfirst, hlater,
      filterMap_getElem?, filterMap_pairAt xs]
    rfl

/-! ## The pairs that pass a test -/

variable (test : α → α → Bool)

def testedPairs (xs : List α) : List (α × α) := (orderedPairs xs).filter fun pair => test pair.1 pair.2

theorem testedPairs_cons (x : α) (xs : List α) :
    testedPairs test (x :: xs) = (xs.filter (test x)).map (fun y => (x, y)) ++ testedPairs test xs := by
  unfold testedPairs
  rw [orderedPairs, List.filter_append, List.filter_map]
  rfl

theorem testedPairs_map {β : Type} (f : β → α) : ∀ xs : List β,
    testedPairs test (xs.map f) = (testedPairs (fun x y => test (f x) (f y)) xs).map (Prod.map f f)
  | [] => rfl
  | x :: xs => by
    rw [List.map_cons, testedPairs_cons, testedPairs_cons, testedPairs_map f xs, List.filter_map, List.map_append,
      List.map_map, List.map_map]
    rfl

theorem testedPairs_eq_nil_iff : ∀ {xs : List α}, testedPairs test xs = [] ↔ xs.Pairwise fun x y => test x y = false
  | [] => iff_of_true rfl .nil
  | x :: xs => by
    rw [testedPairs_cons, List.append_eq_nil_iff, List.map_eq_nil_iff, List.filter_eq_nil_iff, List.pairwise_cons,
      testedPairs_eq_nil_iff]
    simp only [Bool.not_eq_true]

/-- For a symmetric test that no element passes with itself, the order does not matter. -/
theorem testedPairs_eq_nil_iff_forall (hsymm : ∀ x y, test x y = test y x) (hself : ∀ x, test x x = false) {xs : List α} :
    testedPairs test xs = [] ↔ ∀ x ∈ xs, ∀ y ∈ xs, test x y = false := by
  rw [testedPairs_eq_nil_iff]
  constructor
  · intro hpairs x hx y hy
    have : Std.Symm fun x y : α => test x y = false := ⟨fun x y h => (hsymm y x).trans h⟩
    exact List.Pairwise.forall_of_forall (R := fun x y : α => test x y = false) (fun x _ => hself x) hpairs hx hy
  · exact fun hall => List.pairwise_of_forall_mem_list hall

theorem map_some_filter {β γ : Type} (f : γ → Option β) (p : β → Bool) : ∀ l : List γ,
    ((l.filterMap f).filter p).map some = (l.filter fun a => (f a).any p).map f
  | [] => rfl
  | a :: l => by
    have ih := map_some_filter f p l
    cases hf : f a with
    | none =>
      rw [List.filterMap_cons_none hf, List.filter_cons_of_neg (by rw [hf]; exact Bool.false_ne_true), ih]
    | some b =>
      rw [List.filterMap_cons_some hf, List.filter_cons, List.filter_cons, hf, Option.any_some]
      split
      · rw [List.map_cons, List.map_cons, hf, ih]
      · exact ih

/-- The tested pairs are those at the places that pass, each place once and in order. -/
theorem exists_places (xs : List α) : ∃ places : List (Nat × Nat),
    places.Pairwise (Prod.Lex (· < ·) (· < ·)) ∧
    (∀ i j, (i, j) ∈ places ↔ i < j ∧ ∃ x y, xs[i]? = some x ∧ xs[j]? = some y ∧ test x y = true) ∧
    (testedPairs test xs).map some = places.map (pairAt xs) := by
  refine ⟨(indexPairs xs.length).filter fun place => (pairAt xs place).any fun pair => test pair.1 pair.2,
    (sorted_indexPairs _).filter _, fun i j => ?_, ?_⟩
  · rw [List.mem_filter, mem_indexPairs, Option.any_eq_true]
    constructor
    · rintro ⟨⟨hij, -⟩, ⟨x, y⟩, hpair, htest⟩
      obtain ⟨hx, hy⟩ := pairAt_eq_some.mp hpair
      exact ⟨hij, x, y, hx, hy, htest⟩
    · rintro ⟨hij, x, y, hx, hy, htest⟩
      obtain ⟨hj, -⟩ := List.getElem?_eq_some_iff.mp hy
      exact ⟨⟨hij, hj⟩, (x, y), pairAt_eq_some.mpr ⟨hx, hy⟩, htest⟩
  · rw [testedPairs, ← filterMap_pairAt]
    exact map_some_filter (pairAt xs) (fun pair => test pair.1 pair.2) _

end

end DataRecovery
