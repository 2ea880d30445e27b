import Mathlib.Data.Fintype.Card
import Mathlib.Data.Fintype.EquivFin
import Mathlib.Logic.Relation
import Mathlib.Data.List.Chain

/-!
# Recursive traversals with a bounded call stack

A recursive procedure that visits nodes without marking them is described by the
list of actions each node performs: emit an event, or call the procedure on
another node. `run n` executes it with room for `n` nested activations and gives
`none` when the stack overflows. It succeeds exactly when every call path is
shorter than `n`, some `n` suffices exactly when no reachable node reaches
itself, and the events emitted are those of the reachable nodes.
-/

namespace DataRecovery

inductive Action (ν ε : Type) where
  | emit (e : ε)
  | call (v : ν)

namespace Traversal

variable {ν ε σ : Type}

def runActions (callee : ν → σ → Option σ) (upd : ε → σ → σ) : List (Action ν ε) → σ → Option σ
  | [], s => some s
  | .emit e :: as, s => runActions callee upd as (upd e s)
  | .call v :: as, s => (callee v s).bind (runActions callee upd as)

def run (acts : ν → List (Action ν ε)) (upd : ε → σ → σ) : Nat → ν → σ → Option σ
  | 0, _, _ => none
  | n + 1, v, s => runActions (run acts upd n) upd (acts v) s

theorem runActions_append (callee : ν → σ → Option σ) (upd : ε → σ → σ) (bs : List (Action ν ε)) :
    ∀ (as : List (Action ν ε)) (s : σ),
      runActions callee upd (as ++ bs) s = (runActions callee upd as s).bind (runActions callee upd bs)
  | [], _ => rfl
  | .emit e :: as, s => runActions_append callee upd bs as (upd e s)
  | .call v :: as, s => by
    simp only [List.cons_append, runActions, Option.bind_assoc]
    cases callee v s with
    | none => rfl
    | some s' => exact runActions_append callee upd bs as s'

section
variable (acts : ν → List (Action ν ε))

def Calls (v w : ν) : Prop := Action.call w ∈ acts v

def Emits (v : ν) (e : ε) : Prop := Action.emit e ∈ acts v

/-- Every call path from `v` fits in `n` activations. -/
def Shallow : Nat → ν → Prop
  | 0, _ => False
  | n + 1, v => ∀ w, Calls acts v w → Shallow n w

def events : Nat → ν → List ε
  | 0, _ => []
  | n + 1, v => (acts v).flatMap fun
    | .emit e => [e]
    | .call w => events n w

end

section
variable {acts : ν → List (Action ν ε)}

theorem Shallow.succ : ∀ {n : Nat} {v : ν}, Shallow acts n v → Shallow acts (n + 1) v
  | _ + 1, _, h => fun w hw => (h w hw).succ

theorem Shallow.mono {n m : Nat} {v : ν} (h : Shallow acts n v) (hnm : n ≤ m) : Shallow acts m v := by
  induction hnm with
  | refl => exact h
  | step _ ih => exact ih.succ

theorem shallow_iff_paths {n : Nat} {v : ν} :
    Shallow acts n v ↔ ∀ l, List.IsChain (Calls acts) (v :: l) → l.length < n := by
  induction n generalizing v with
  | zero => exact ⟨False.elim, fun h => absurd (h [] (List.isChain_singleton v)) (by simp)⟩
  | succ n ih =>
    constructor
    · rintro h (_ | ⟨w, l⟩) hl
      · simp
      · rw [List.isChain_cons_cons] at hl
        simpa using ih.mp (h w hl.1) l hl.2
    · intro h w hw
      refine ih.mpr fun l hl => ?_
      simpa using h (w :: l) (List.isChain_cons_cons.mpr ⟨hw, hl⟩)

/-! ## What a run computes -/

theorem mem_foldl_of_step {α : Type} {upd : σ → ε → σ} {get : σ → List α} {P : ε → α → Prop}
    (hstep : ∀ s e a, a ∈ get (upd s e) → a ∈ get s ∨ P e a) {a : α} :
    ∀ (es : List ε) (s : σ), a ∈ get (es.foldl upd s) → a ∈ get s ∨ ∃ e ∈ es, P e a
  | [], _, h => .inl h
  | e :: es, s, h => by
    rcases mem_foldl_of_step hstep es (upd s e) h with h | ⟨e', he', ha⟩
    · rcases hstep s e a h with h | ha
      · exact .inl h
      · exact .inr ⟨e, List.mem_cons_self .., ha⟩
    · exact .inr ⟨e', List.mem_cons_of_mem _ he', ha⟩

theorem exists_mem_foldl {α : Type} {upd : σ → ε → σ} (get : σ → List α) (P : ε → α → Prop)
    (hkeep : ∀ s e a, a ∈ get s → a ∈ get (upd s e)) (hadd : ∀ s e, ∃ a ∈ get (upd s e), P e a) {e : ε} :
    ∀ (es : List ε) (s : σ), e ∈ es → ∃ a ∈ get (es.foldl upd s), P e a
  | [], _, h => by cases h
  | e' :: es, s, h => by
    rcases List.mem_cons.mp h with rfl | h
    · obtain ⟨a, ha, hP⟩ := hadd s e
      have hrest : ∀ (es : List ε) (s : σ), a ∈ get s → a ∈ get (es.foldl upd s) := by
        intro es
        induction es with
        | nil => intro s h; exact h
        | cons e es ih => intro s h; exact ih _ (hkeep s e a h)
      exact ⟨a, hrest es _ ha, hP⟩
    · exact exists_mem_foldl get P hkeep hadd es _ h

theorem runActions_some {callee : ν → σ → Option σ} {upd : ε → σ → σ} {ev : ν → List ε}
    (as : List (Action ν ε))
    (hc : ∀ w, Action.call w ∈ as → ∀ s, callee w s = some ((ev w).foldl (fun s e => upd e s) s)) (s : σ) :
    runActions callee upd as s = some ((as.flatMap fun
      | .emit e => [e]
      | .call w => ev w).foldl (fun s e => upd e s) s) := by
  induction as generalizing s with
  | nil => rfl
  | cons a as ih =>
    have ih' := ih fun w hw => hc w (List.mem_cons_of_mem _ hw)
    cases a with
    | emit e => simp [runActions, ih']
    | call w => simp [runActions, hc w (by simp), ih']

theorem runActions_none {callee : ν → σ → Option σ} {upd : ε → σ → σ} {as : List (Action ν ε)} {w : ν}
    (hw : Action.call w ∈ as) (hc : ∀ s, callee w s = none) (s : σ) : runActions callee upd as s = none := by
  induction as generalizing s with
  | nil => cases hw
  | cons a as ih =>
    cases a with
    | emit e => exact ih (by simpa using hw) _
    | call v =>
      simp only [runActions]
      rcases List.mem_cons.mp hw with h | h
      · cases h; rw [hc]; rfl
      · cases callee v s with
        | none => rfl
        | some s' => exact ih h s'

theorem run_some {upd : ε → σ → σ} {n : Nat} {v : ν} (h : Shallow acts n v) (s : σ) :
    run acts upd n v s = some ((events acts n v).foldl (fun s e => upd e s) s) := by
  induction n generalizing v s with
  | zero => exact h.elim
  | succ n ih => exact runActions_some (acts v) (fun w hw s => ih (h w hw) s) s

theorem run_none {upd : ε → σ → σ} {n : Nat} {v : ν} (h : ¬ Shallow acts n v) (s : σ) :
    run acts upd n v s = none := by
  induction n generalizing v s with
  | zero => rfl
  | succ n ih =>
    simp only [Shallow, not_forall] at h
    obtain ⟨w, hw, hn⟩ := h
    exact runActions_none hw (ih hn) s

theorem run_isSome_iff {upd : ε → σ → σ} {n : Nat} {v : ν} {s : σ} :
    (run acts upd n v s).isSome ↔ Shallow acts n v := by
  by_cases h : Shallow acts n v
  · simp [run_some h, h]
  · simp [run_none h, h]

/-- A run that ends stays in its stack, and does what its events say. -/
theorem run_eq_some {upd : ε → σ → σ} {n : Nat} {v : ν} {s s' : σ} (h : run acts upd n v s = some s') :
    Shallow acts n v ∧ (events acts n v).foldl (fun s e => upd e s) s = s' := by
  have hs : Shallow acts n v := run_isSome_iff.mp (Option.isSome_of_eq_some h)
  rw [run_some hs] at h
  exact ⟨hs, Option.some.inj h⟩

theorem mem_events {n : Nat} {v : ν} (h : Shallow acts n v) {e : ε} :
    e ∈ events acts n v ↔ ∃ w, Relation.ReflTransGen (Calls acts) v w ∧ Emits acts w e := by
  induction n generalizing v with
  | zero => exact h.elim
  | succ n ih =>
    simp only [events, List.mem_flatMap]
    constructor
    · rintro ⟨a, ha, he⟩
      cases a with
      | emit e' =>
        obtain rfl : e = e' := by simpa using he
        exact ⟨v, .refl, ha⟩
      | call w =>
        obtain ⟨u, hu, hue⟩ := (ih (h w ha)).mp he
        exact ⟨u, .head ha hu, hue⟩
    · rintro ⟨w, hw, he⟩
      rcases Relation.ReflTransGen.cases_head hw with rfl | ⟨u, hu, huw⟩
      · exact ⟨_, he, by simp⟩
      · exact ⟨_, hu, (ih (h u hu)).mpr ⟨w, huw, he⟩⟩

/-! ## Termination -/

theorem exists_shallow_list (as : List (Action ν ε))
    (h : ∀ w, Action.call w ∈ as → ∃ n, Shallow acts n w) :
    ∃ n, ∀ w, Action.call w ∈ as → Shallow acts n w := by
  induction as with
  | nil => exact ⟨0, by simp⟩
  | cons a as ih =>
    obtain ⟨n, hn⟩ := ih fun w hw => h w (List.mem_cons_of_mem _ hw)
    cases a with
    | emit e => exact ⟨n, fun w hw => hn w (by simpa using hw)⟩
    | call v =>
      obtain ⟨m, hm⟩ := h v (by simp)
      refine ⟨max n m, fun w hw => ?_⟩
      rcases List.mem_cons.mp hw with hw | hw
      · cases hw; exact hm.mono (Nat.le_max_right n m)
      · exact (hn w hw).mono (Nat.le_max_left n m)

theorem exists_shallow_of_acc {v : ν} (h : Acc (fun w v => Calls acts v w) v) : ∃ n, Shallow acts n v := by
  induction h with
  | intro v _ ih =>
    obtain ⟨n, hn⟩ := exists_shallow_list (acts v) fun w hw => ih w hw
    exact ⟨n + 1, hn⟩

theorem shallow_pred_of_reaches {n : Nat} {v w : ν} (h : Shallow acts (n + 1) v)
    (hw : Relation.TransGen (Calls acts) v w) : Shallow acts n w := by
  induction hw with
  | single hc => exact h _ hc
  | tail _ hc ih =>
    cases n with
    | zero => exact ih.elim
    | succ n => exact (ih _ hc).succ

theorem not_shallow_of_cycle {w : ν} (hw : Relation.TransGen (Calls acts) w w) : ∀ n, ¬ Shallow acts n w
  | 0, h => h
  | n + 1, h => not_shallow_of_cycle hw n (shallow_pred_of_reaches h hw)

theorem not_shallow_of_reaches_cycle {v w : ν} (hv : Relation.ReflTransGen (Calls acts) v w)
    (hw : Relation.TransGen (Calls acts) w w) (n : Nat) : ¬ Shallow acts n v := by
  induction hv using Relation.ReflTransGen.head_induction_on generalizing n with
  | refl => exact not_shallow_of_cycle hw n
  | head hc _ ih =>
    cases n with
    | zero => exact id
    | succ n => exact fun h => ih n (h _ hc)

theorem acc_of_acyclic [Finite ν] {v : ν}
    (h : ∀ w, Relation.ReflTransGen (Calls acts) v w → ¬ Relation.TransGen (Calls acts) w w) :
    Acc (fun w v => Calls acts v w) v := by
  let reached := { w // Relation.ReflTransGen (Calls acts) v w }
  have : Finite reached := Subtype.finite
  let below : reached → reached → Prop := fun a b => Relation.TransGen (Calls acts) b.1 a.1
  have : IsTrans reached below := ⟨fun _ _ _ hab hbc => hbc.trans hab⟩
  have : Std.Irrefl below := ⟨fun a => h a.1 a.2⟩
  have hwf : WellFounded below := Finite.wellFounded_of_trans_of_irrefl below
  have key : ∀ a : reached, Acc (fun w v => Calls acts v w) a.1 := by
    intro a
    induction a using hwf.induction with
    | _ a ih => exact ⟨_, fun w hw => ih ⟨w, a.2.tail hw⟩ (.single hw)⟩
  exact key ⟨v, .refl⟩

/-- Some stack suffices exactly when no node reachable from `v` reaches itself. -/
theorem exists_shallow_iff_acyclic [Finite ν] {v : ν} :
    (∃ n, Shallow acts n v) ↔
      ∀ w, Relation.ReflTransGen (Calls acts) v w → ¬ Relation.TransGen (Calls acts) w w := by
  constructor
  · rintro ⟨n, hn⟩ w hv hw
    exact not_shallow_of_reaches_cycle hv hw n hn
  · exact fun h => exists_shallow_of_acc (acc_of_acyclic h)

end

end Traversal

end DataRecovery
