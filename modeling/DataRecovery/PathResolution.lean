import Mathlib.Data.List.Induction

/-!
# Resolving paths

A path is a walk through places: a component stays, goes up or goes down. Steps that
lead back to where they start lead back from every place.
-/

namespace DataRecovery

inductive Step (α : Type) where
  | stay
  | up
  | down (name : α)
  deriving DecidableEq

/-- A directory: the names on the way down to it, the innermost first, below a root or
below what is so many levels above the current directory. -/
structure Place (ρ α : Type) where
  root : ρ
  rooted : Bool
  climbs : Nat := 0
  trail : List α := []
  deriving DecidableEq

section
variable {ρ α : Type}

def Place.parent (place : Place ρ α) : Place ρ α :=
  match place.trail with
  | _ :: trail => { place with trail }
  | [] => if place.rooted then place else { place with climbs := place.climbs + 1 }

def Place.go (place : Place ρ α) : Step α → Place ρ α
  | .stay => place
  | .up => place.parent
  | .down name => { place with trail := name :: place.trail }

def Place.walk (place : Place ρ α) (steps : List (Step α)) : Place ρ α := steps.foldl Place.go place

def here : Place Unit α where
  root := ()
  rooted := false

/-- The steps undo one another, and never go above their start. -/
def Cancels (steps : List (Step α)) : Prop := here.walk steps = here

@[simp] theorem walk_nil (place : Place ρ α) : place.walk [] = place := rfl

@[simp] theorem walk_cons (place : Place ρ α) (step : Step α) (steps : List (Step α)) :
    place.walk (step :: steps) = (place.go step).walk steps := rfl

theorem walk_append (place : Place ρ α) (steps more : List (Step α)) :
    place.walk (steps ++ more) = (place.walk steps).walk more := List.foldl_append

theorem root_go (place : Place ρ α) (step : Step α) :
    (place.go step).root = place.root ∧ (place.go step).rooted = place.rooted := by
  cases step with
  | stay => exact ⟨rfl, rfl⟩
  | down name => exact ⟨rfl, rfl⟩
  | up =>
    show place.parent.root = _ ∧ place.parent.rooted = _
    unfold Place.parent
    split
    · exact ⟨rfl, rfl⟩
    · split
      · exact ⟨rfl, rfl⟩
      · exact ⟨rfl, rfl⟩

theorem root_walk (steps : List (Step α)) : ∀ place : Place ρ α,
    (place.walk steps).root = place.root ∧ (place.walk steps).rooted = place.rooted := by
  induction steps with
  | nil => intro place; exact ⟨rfl, rfl⟩
  | cons step steps ih =>
    intro place
    rw [walk_cons, (ih _).1, (ih _).2]
    exact root_go place step

theorem go_down_inj {place other : Place ρ α} {name : α} (h : place.go (.down name) = other.go (.down name)) :
    place = other := by
  cases place
  cases other
  unfold Place.go at h
  simp only [Place.mk.injEq, List.cons.injEq, true_and] at h
  obtain ⟨rfl, rfl, rfl, rfl⟩ := h
  rfl

theorem walk_inj {steps : List (Step α)} (hup : .up ∉ steps) : ∀ {place other : Place ρ α},
    place.walk steps = other.walk steps → place = other := by
  induction steps with
  | nil => intro place other h; exact h
  | cons step steps ih =>
    intro place other h
    have h' := ih (fun hmem => hup (List.mem_cons_of_mem _ hmem)) h
    cases step with
    | stay => exact h'
    | up => exact absurd (List.mem_cons_self ..) hup
    | down name => exact go_down_inj h'

theorem eq_down_of_go {place : Place ρ α} {step : Step α} {name : α} (h : place.go step = place.go (.down name)) :
    step = .down name := by
  have hlen : (place.go step).trail.length = place.trail.length + 1 := by rw [h]; rfl
  cases step with
  | stay => exact absurd hlen (Nat.ne_of_lt (Nat.lt_succ_self _))
  | down other =>
    unfold Place.go at h
    simp only [Place.mk.injEq, List.cons.injEq, true_and, and_true] at h
    rw [h]
  | up =>
    have hparent : place.parent.trail.length ≤ place.trail.length := by
      unfold Place.parent
      split
      · rename_i htrail
        rw [htrail]
        exact Nat.le_succ _
      · split
        · exact Nat.le_refl _
        · exact Nat.le_refl _
    exact absurd (Nat.le_trans (Nat.le_of_eq hlen.symm) hparent) (Nat.not_succ_le_self _)

/-! ## Steps that cancel -/

theorem climbs_le_walk (steps : List (Step α)) : ∀ place : Place ρ α, place.climbs ≤ (place.walk steps).climbs := by
  induction steps with
  | nil => intro place; exact Nat.le_refl _
  | cons step steps ih =>
    intro place
    refine Nat.le_trans ?_ (ih _)
    cases step with
    | stay => exact Nat.le_refl _
    | down name => exact Nat.le_refl _
    | up =>
      show _ ≤ place.parent.climbs
      unfold Place.parent
      split
      · exact Nat.le_refl _
      · split
        · exact Nat.le_refl _
        · exact Nat.le_succ _

/-- A walk that never goes above the current directory goes the same way from every place. -/
theorem walk_of_climbs {steps : List (Step α)} : ∀ {trail : List α},
    ((Place.mk () false 0 trail).walk steps).climbs = 0 → ∀ place : Place ρ α,
      Place.walk { place with trail := trail ++ place.trail } steps =
        { place with trail := ((Place.mk () false 0 trail).walk steps).trail ++ place.trail } := by
  induction steps with
  | nil => intro trail _ place; rfl
  | cons step steps ih =>
    intro trail h place
    cases step with
    | stay => exact ih h place
    | down name => exact @ih (name :: trail) h place
    | up =>
      cases trail with
      | cons name trail => exact @ih trail h place
      | nil =>
        have hclimb := climbs_le_walk steps (Place.mk () false 1 ([] : List α))
        exact absurd (Nat.le_trans hclimb (Nat.le_of_eq h)) (Nat.not_succ_le_self 0)

theorem walk_of_cancels {steps : List (Step α)} (h : Cancels steps) (place : Place ρ α) : place.walk steps = place := by
  have h' : (Place.mk () false 0 []).walk steps = here := h
  have hwalk := walk_of_climbs (congrArg Place.climbs h') place
  rw [h'] at hwalk
  exact hwalk

/-- Steps that lead from two directories of different names back to each of them do so
without leaving them. -/
theorem cancels_of_walk {steps : List (Step α)} {root : ρ} {x y : α} (hne : x ≠ y) : ∀ {trail : List α},
    (Place.mk root false 0 (trail ++ [x])).walk steps = ⟨root, false, 0, [x]⟩ →
    (Place.mk root false 0 (trail ++ [y])).walk steps = ⟨root, false, 0, [y]⟩ →
      (Place.mk () false 0 trail).walk steps = here := by
  induction steps with
  | nil =>
    intro trail hx _
    simp only [walk_nil, Place.mk.injEq, true_and, List.append_left_eq_self] at hx
    rw [hx]
    rfl
  | cons step steps ih =>
    intro trail hx hy
    cases step with
    | stay => exact ih hx hy
    | down name => exact @ih (name :: trail) hx hy
    | up =>
      cases trail with
      | cons name trail => exact @ih trail hx hy
      | nil =>
        -- both walks go on from the same place, so they cannot end in different ones
        have h : (Place.mk root false 0 [x]) = ⟨root, false, 0, [y]⟩ := hx.symm.trans hy
        simp only [Place.mk.injEq, List.cons.injEq, true_and, and_true] at h
        exact absurd h hne

end

/-! ## Splitting -/

theorem splitOnP_append_of_none {α : Type} {p : α → Bool} {rest head : List α} {tail : List (List α)}
    (h : rest.splitOnP p = head :: tail) : ∀ {front : List α}, (∀ c ∈ front, p c = false) →
      (front ++ rest).splitOnP p = (front ++ head) :: tail
  | [], _ => h
  | c :: front, hnone => by
    have ih := splitOnP_append_of_none h fun x hx => hnone x (List.mem_cons_of_mem c hx)
    rw [List.cons_append, List.splitOnP_cons_eq_if_modifyHead, hnone c (List.mem_cons_self ..), ih]
    rfl

theorem mem_of_mem_splitOnP {α : Type} {p : α → Bool} {x : α} : ∀ {l part : List α}, part ∈ l.splitOnP p → x ∈ part →
    x ∈ l
  | [], part, hpart, hx => by
    rw [List.splitOnP_nil, List.mem_singleton] at hpart
    rw [hpart] at hx
    exact hx
  | c :: l, part, hpart, hx => by
    obtain ⟨head, tail, hsplit⟩ := List.exists_cons_of_ne_nil (List.splitOnP_ne_nil p l)
    have ih : ∀ part' ∈ head :: tail, x ∈ part' → x ∈ l := by
      intro part' hmem hx'
      rw [← hsplit] at hmem
      exact mem_of_mem_splitOnP hmem hx'
    rw [List.splitOnP_cons_eq_if_modifyHead, hsplit] at hpart
    cases hc : p c with
    | true =>
      rw [hc, if_pos rfl] at hpart
      rcases List.mem_cons.mp hpart with rfl | hpart
      · cases hx
      · exact List.mem_cons_of_mem _ (ih part hpart hx)
    | false =>
      rw [hc, if_neg Bool.false_ne_true] at hpart
      rcases List.mem_cons.mp hpart with rfl | hpart
      · rcases List.mem_cons.mp hx with rfl | hx
        · exact List.mem_cons_self ..
        · exact List.mem_cons_of_mem _ (ih head (List.mem_cons_self ..) hx)
      · exact List.mem_cons_of_mem _ (ih part (List.mem_cons_of_mem _ hpart) hx)

theorem none_of_splitOnP {α : Type} {p : α → Bool} {l head : List α} (h : l.splitOnP p = [head]) :
    ∀ c ∈ l, p c = false := by
  intro c hmem
  cases hc : p c with
  | false => rfl
  | true =>
    obtain ⟨front, rest, rfl⟩ := List.append_of_mem hmem
    rw [List.splitOnP_append_cons _ _ hc] at h
    have hlen := congrArg List.length h
    have hfront := List.length_pos_iff.mpr (List.splitOnP_ne_nil p front)
    have hrest := List.length_pos_iff.mpr (List.splitOnP_ne_nil p rest)
    rw [List.length_append, List.length_singleton] at hlen
    omega

theorem exists_splitOnP_append {α : Type} (p : α → Bool) (front : List α) :
    ∃ parts last, ∀ {rest head : List α} {tail : List (List α)}, rest.splitOnP p = head :: tail →
      (front ++ rest).splitOnP p = parts ++ (last ++ head) :: tail := by
  induction front using List.reverseRecOn with
  | nil => exact ⟨[], [], fun h => h⟩
  | append_singleton front x ih =>
    cases hx : p x with
    | true =>
      refine ⟨front.splitOnP p, [], fun {rest head tail} h => ?_⟩
      rw [List.append_assoc, List.singleton_append, List.splitOnP_append_cons _ _ hx, h]
      rfl
    | false =>
      obtain ⟨parts, last, hsplit⟩ := ih
      refine ⟨parts, last ++ [x], fun {rest head tail} h => ?_⟩
      have hcons : (x :: rest).splitOnP p = (x :: head) :: tail := by
        rw [List.splitOnP_cons_eq_if_modifyHead, hx, h]
        rfl
      rw [List.append_assoc, List.singleton_append, hsplit hcons, List.append_assoc, List.singleton_append]

end DataRecovery
