import DataRecovery.Traversal

/-!
# Traversals that act alike

A run depends on what the nodes do that it reaches, and on the updates for what they emit.
-/

namespace DataRecovery.Traversal

open Relation

variable {ν ε σ : Type}

theorem runActions_congr {callee callee' : ν → σ → Option σ} {upd upd' : ε → σ → σ} :
    ∀ {as : List (Action ν ε)}, (∀ w, Action.call w ∈ as → callee w = callee' w) →
      (∀ e, Action.emit e ∈ as → upd e = upd' e) → ∀ s, runActions callee upd as s = runActions callee' upd' as s
  | [], _, _, _ => rfl
  | .emit e :: as, hcall, hemit, s => by
    rw [runActions, runActions, hemit e (List.mem_cons_self ..)]
    exact runActions_congr (fun w hw => hcall w (List.mem_cons_of_mem _ hw))
      (fun e he => hemit e (List.mem_cons_of_mem _ he)) _
  | .call w :: as, hcall, hemit, s => by
    rw [runActions, runActions, hcall w (List.mem_cons_self ..)]
    congr 1
    funext s'
    exact runActions_congr (fun w hw => hcall w (List.mem_cons_of_mem _ hw))
      (fun e he => hemit e (List.mem_cons_of_mem _ he)) s'

variable {acts acts' : ν → List (Action ν ε)} {upd upd' : ε → σ → σ}

theorem run_congr : ∀ (n : Nat) {v : ν}, (∀ w, ReflTransGen (Calls acts) v w → acts w = acts' w) →
    (∀ w e, ReflTransGen (Calls acts) v w → Emits acts w e → upd e = upd' e) →
      ∀ s, run acts upd n v s = run acts' upd' n v s
  | 0, _, _, _, _ => rfl
  | n + 1, v, hacts, hupd, s => by
    rw [run, run, ← hacts v .refl]
    refine runActions_congr (fun w hw => ?_) (fun e he => hupd v e .refl he) s
    funext s'
    exact run_congr n (fun u hu => hacts u (.head hw hu)) (fun u e hu => hupd u e (.head hw hu)) s'

end DataRecovery.Traversal
