import Mathlib.Data.Finset.Card
import Mathlib.Data.List.Nodup
import Mathlib.Data.Nat.Find
import Mathlib.Logic.Function.Iterate

/-!
# Bounded walks

A walk goes from a point to the next one as long as the points are admissible and
there is room. Two step functions give the same walk from a point exactly when, at
each point of it that has a successor, they agree or both leave. Its points are those of
the orbit, so it repeats one exactly when the orbit comes back in time. Among finitely many
points, what an orbit meets at all it meets before it has to repeat itself.
-/

namespace DataRecovery

section
variable {α : Type} (ok : α → Prop) [DecidablePred ok]

def walkWhile (next : α → α) : Nat → α → List α
  | 0, _ => []
  | room + 1, x => if ok x then x :: walkWhile next room (next x) else []

/-- From `x`, two step functions go on alike: to one point, or both out. -/
def SameStep (f g : α → α) (x : α) : Prop := f x = g x ∨ ¬ ok (f x) ∧ ¬ ok (g x)

variable {ok}

theorem walkWhile_of_not (next : α → α) (room : Nat) {x : α} (h : ¬ ok x) : walkWhile ok next room x = [] := by
  cases room with
  | zero => rfl
  | succ room => rw [walkWhile, if_neg h]

theorem walkWhile_of_ok (next : α → α) (room : Nat) {x : α} (h : ok x) :
    walkWhile ok next (room + 1) x = x :: walkWhile ok next room (next x) := by
  rw [walkWhile, if_pos h]

theorem length_walkWhile (next : α → α) : ∀ (room : Nat) (x : α), (walkWhile ok next room x).length ≤ room
  | 0, _ => Nat.le_refl _
  | room + 1, x => by
    unfold walkWhile
    split
    · exact Nat.succ_le_succ (length_walkWhile next room _)
    · exact Nat.zero_le _

theorem walkWhile_of_leaves (next : α → α) : ∀ {i n : Nat} {x : α}, ¬ ok (next^[i] x) → i ≤ n →
    walkWhile ok next n x = walkWhile ok next i x
  | 0, n, x, hleaves, _ => walkWhile_of_not next n hleaves
  | i + 1, n + 1, x, hleaves, hi => by
    have hrest : ¬ ok (next^[i] (next x)) := hleaves
    unfold walkWhile
    rw [walkWhile_of_leaves next hrest (Nat.le_of_succ_le_succ hi)]

theorem getElem?_walkWhile (next : α → α) : ∀ {n i : Nat} {x y : α},
    (walkWhile ok next n x)[i]? = some y ↔ i < n ∧ (∀ k ≤ i, ok (next^[k] x)) ∧ next^[i] x = y
  | 0, i, x, y => by
    rw [walkWhile, List.getElem?_nil]
    exact iff_of_false (fun h => by cases h) fun h => Nat.not_lt_zero _ h.1
  | n + 1, i, x, y => by
    by_cases hx : ok x
    · rw [walkWhile_of_ok next n hx]
      cases i with
      | zero =>
        rw [List.getElem?_cons_zero, Option.some_inj]
        exact ⟨fun h => ⟨Nat.succ_pos n, fun k hk => by rwa [Nat.le_zero.mp hk], h⟩, fun h => h.2.2⟩
      | succ i =>
        rw [List.getElem?_cons_succ, getElem?_walkWhile next]
        constructor
        · rintro ⟨hi, hok, hy⟩
          refine ⟨Nat.succ_lt_succ hi, fun k hk => ?_, hy⟩
          cases k with
          | zero => exact hx
          | succ k => exact hok k (Nat.le_of_succ_le_succ hk)
        · rintro ⟨hi, hok, hy⟩
          exact ⟨Nat.lt_of_succ_lt_succ hi, fun k hk => hok (k + 1) (Nat.succ_le_succ hk), hy⟩
    · rw [walkWhile_of_not next _ hx, List.getElem?_nil]
      exact iff_of_false (fun h => by cases h) fun h => hx (h.2.1 0 (Nat.zero_le _))

theorem nodup_walkWhile_iff (next : α → α) {n : Nat} {x : α} : (walkWhile ok next n x).Nodup ↔
    ∀ i j, i < j → j < n → (∀ k ≤ j, ok (next^[k] x)) → next^[i] x ≠ next^[j] x := by
  rw [List.nodup_iff_getElem?_ne_getElem?]
  constructor
  · intro h i j hij hj hok heq
    have hi := (getElem?_walkWhile next).mpr ⟨Nat.lt_trans hij hj, fun k hk => hok k (by omega), rfl⟩
    have hjth := (getElem?_walkWhile next).mpr ⟨hj, hok, rfl⟩
    obtain ⟨hlen, -⟩ := List.getElem?_eq_some_iff.mp hjth
    exact h i j hij hlen (by rw [hi, hjth, heq])
  · intro h i j hij hlen heq
    have hjth := List.getElem?_eq_getElem hlen
    obtain ⟨-, -, hi⟩ := (getElem?_walkWhile next).mp (heq.trans hjth)
    obtain ⟨hj, hok, hlast⟩ := (getElem?_walkWhile next).mp hjth
    exact h i j hij hj hok (hi.trans hlast.symm)

theorem same_of_walkWhile_eq {f g : α → α} {room : Nat} {x y : α}
    (h : walkWhile ok f (room + 1) x = walkWhile ok g (room + 1) y) : x = y ∨ ¬ ok x ∧ ¬ ok y := by
  by_cases hx : ok x
  · by_cases hy : ok y
    · rw [walkWhile_of_ok f room hx, walkWhile_of_ok g room hy] at h
      exact .inl (List.cons.inj h).1
    · rw [walkWhile_of_ok f room hx, walkWhile_of_not g _ hy] at h
      cases h
  · by_cases hy : ok y
    · rw [walkWhile_of_not f _ hx, walkWhile_of_ok g room hy] at h
      cases h
    · exact .inr ⟨hx, hy⟩

theorem walkWhile_congr_iff {f g : α → α} : ∀ (room : Nat) (x : α),
    walkWhile ok f room x = walkWhile ok g room x ↔
      ∀ i, i + 1 < room → (∀ j ≤ i, ok (f^[j] x)) → SameStep ok f g (f^[i] x)
  | 0, _ => ⟨fun _ _ h => absurd h (Nat.not_lt_zero _), fun _ => rfl⟩
  | 1, x => ⟨fun _ i h => absurd h (by omega), fun _ => rfl⟩
  | room + 2, x => by
    by_cases hx : ok x
    · rw [walkWhile_of_ok f _ hx, walkWhile_of_ok g _ hx, List.cons.injEq]
      have ih := walkWhile_congr_iff (f := f) (g := g) (room + 1) (f x)
      constructor
      · intro ⟨_, heq⟩
        have hstep : SameStep ok f g x := same_of_walkWhile_eq heq
        intro i hi hok
        cases i with
        | zero => exact hstep
        | succ i =>
          have hfx : ok (f x) := hok 1 (by omega)
          have hsame : f x = g x := hstep.resolve_right fun hout => hout.1 hfx
          rw [← hsame] at heq
          exact ih.mp heq i (by omega) fun j hj => hok (j + 1) (by omega)
      · intro h
        refine ⟨rfl, ?_⟩
        rcases h 0 (by omega) (fun j hj => by rwa [Nat.le_zero.mp hj]) with hsame | ⟨hf, hg⟩
        · have hsame : f x = g x := hsame
          rw [← hsame]
          refine ih.mpr fun i hi hok => h (i + 1) (by omega) fun j hj => ?_
          cases j with
          | zero => exact hx
          | succ j => exact hok j (by omega)
        · have hf : ¬ ok (f x) := hf
          have hg : ¬ ok (g x) := hg
          rw [walkWhile_of_not f _ hf, walkWhile_of_not g _ hg]
    · rw [walkWhile_of_not f _ hx, walkWhile_of_not g _ hx]
      exact ⟨fun _ _ _ hok => absurd (hok 0 (Nat.zero_le _)) hx, fun _ => rfl⟩

end

/-! ## Orbits -/

theorem iterate_skip {α : Type} {f : α → α} {x : α} {a b i : Nat} (h : f^[a] x = f^[b] x) (hb : b ≤ i) :
    f^[i - b + a] x = f^[i] x := by
  rw [Function.iterate_add_apply, h, ← Function.iterate_add_apply, Nat.sub_add_cancel hb]

theorem exists_iterate_lt {α : Type} {f : α → α} {x : α} {p : α → Prop} [DecidablePred p] {code : α → Nat} {n : Nat}
    (hinj : Function.Injective code) (hlt : ∀ a, code a < n) (h : ∃ i, p (f^[i] x)) : ∃ i < n, p (f^[i] x) := by
  refine ⟨Nat.find h, ?_, Nat.find_spec h⟩
  by_contra hge
  -- among the points up to the first that has `p`, two are the same
  obtain ⟨a, ha, b, hb, hne, hab⟩ := Finset.exists_ne_map_eq_of_card_lt_of_maps_to
    (s := Finset.range (Nat.find h + 1)) (t := Finset.range n) (f := fun i => code (f^[i] x))
    (by rw [Finset.card_range, Finset.card_range]; omega) fun i _ => Finset.mem_range.mpr (hlt _)
  have hsame : f^[a] x = f^[b] x := hinj hab
  have hle : ∀ {c d : Nat}, c < d → d ∈ Finset.range (Nat.find h + 1) → f^[c] x = f^[d] x → False := by
    intro c d hcd hd heq
    have hd' := Finset.mem_range.mp hd
    refine Nat.find_min h (m := Nat.find h - d + c) (by omega) ?_
    rw [iterate_skip heq (by omega)]
    exact Nat.find_spec h
  rcases Nat.lt_or_gt_of_ne hne with hlt | hlt
  · exact hle hlt hb hsame
  · exact hle hlt ha hsame.symm

end DataRecovery
