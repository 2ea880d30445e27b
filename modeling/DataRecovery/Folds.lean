import Mathlib.Data.List.Basic

/-!
# What a fold leaves

A loop that goes through a list and stores what each element gives leaves, in a field
that is written over, the last value written, and in a field that is added to, all of
them in order.
-/

namespace DataRecovery

section
variable {σ α β : Type} (store : α → σ → σ)

theorem foldl_get (get : σ → β) (writes : α → Option β) (h : ∀ a s, get (store a s) = (writes a).getD (get s)) :
    ∀ (as : List α) (s : σ),
      get (as.foldl (fun s a => store a s) s) = (as.filterMap writes).getLast?.getD (get s)
  | [], s => rfl
  | a :: as, s => by
    rw [List.foldl_cons, foldl_get get writes h as, h]
    cases hw : writes a with
    | none => rw [List.filterMap_cons_none hw]; rfl
    | some x => simp [List.filterMap_cons_some hw, List.getLast?_cons]

theorem foldl_collect (get : σ → List β) (adds : α → List β) (h : ∀ a s, get (store a s) = get s ++ adds a) :
    ∀ (as : List α) (s : σ), get (as.foldl (fun s a => store a s) s) = get s ++ as.flatMap adds
  | [], s => (List.append_nil _).symm
  | a :: as, s => by
    rw [List.foldl_cons, foldl_collect get adds h as, h, List.flatMap_cons, List.append_assoc]

theorem foldl_any (get : σ → Bool) (sets : α → Bool) (h : ∀ a s, get (store a s) = (get s || sets a)) :
    ∀ (as : List α) (s : σ), get (as.foldl (fun s a => store a s) s) = (get s || as.any sets)
  | [], s => (Bool.or_false _).symm
  | a :: as, s => by
    rw [List.foldl_cons, foldl_any get sets h as, h, List.any_cons, Bool.or_assoc]

end

end DataRecovery
