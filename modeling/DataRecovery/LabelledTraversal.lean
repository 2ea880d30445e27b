import DataRecovery.Traversal
import Mathlib.Data.List.Nodup
import Mathlib.Data.List.Perm.Basic

/-!
# Traversals that come upon an event once

Each action has a label, and a way to a node is the labels of the calls that lead to it. A
traversal without marks emits what a node emits once for each way to it: no label comes up twice
exactly when there is one way to every node that emits something.
-/

namespace DataRecovery.Traversal

open List (Perm)

variable {ν ε κ : Type}

def tagAction : κ × Action ν ε → Action ν (κ × ε)
  | (k, .emit e) => .emit (k, e)
  | (_, .call w) => .call w

def emitted : κ × Action ν ε → List (κ × ε)
  | (k, .emit e) => [(k, e)]
  | (_, .call _) => []

section
variable (acts : ν → List (κ × Action ν ε))

def plain (v : ν) : List (Action ν ε) := (acts v).map Prod.snd

def tagged (v : ν) : List (Action ν (κ × ε)) := (acts v).map tagAction

inductive Way : ν → List κ → ν → Prop
  | here (v) : Way v [] v
  | call {v w u k way} : (k, .call w) ∈ acts v → Way w way u → Way v (k :: way) u

def onward (visits : ν → List (List κ × ν)) : κ × Action ν ε → List (List κ × ν)
  | (_, .emit _) => []
  | (k, .call w) => (visits w).map fun x => (k :: x.1, x.2)

def visits : Nat → ν → List (List κ × ν)
  | 0, _ => []
  | n + 1, v => ([], v) :: (acts v).flatMap (onward (visits n))

def emits (v : ν) : List (κ × ε) := (acts v).flatMap emitted

end

section
variable {acts : ν → List (κ × Action ν ε)}

/-! ## Labels do not change a run -/

theorem calls_tagged {v w : ν} : Calls (tagged acts) v w ↔ Calls (plain acts) v w := by
  unfold Calls tagged plain
  simp only [List.mem_map]
  constructor
  · rintro ⟨⟨k, a⟩, ha, heq⟩
    cases a with
    | emit e => cases heq
    | call u => exact ⟨_, ha, by simpa [tagAction] using heq⟩
  · rintro ⟨⟨k, a⟩, ha, heq⟩
    obtain rfl : a = .call w := heq
    exact ⟨_, ha, rfl⟩

theorem shallow_tagged : ∀ {n : Nat} {v : ν}, Shallow (tagged acts) n v ↔ Shallow (plain acts) n v
  | 0, _ => Iff.rfl
  | n + 1, v => by
    unfold Shallow
    simp only [calls_tagged, shallow_tagged]

theorem runActions_map {σ τ : Type} {proj : τ → σ} {upd : ε → σ → σ} {upd' : κ × ε → τ → τ}
    (hupd : ∀ k e t, proj (upd' (k, e) t) = upd e (proj t)) {callee : ν → σ → Option σ}
    {callee' : ν → τ → Option τ}
    (hcallee : ∀ v t, (callee' v t).map proj = callee v (proj t)) :
    ∀ (as : List (κ × Action ν ε)) (t : τ),
      (runActions callee' upd' (as.map tagAction) t).map proj = runActions callee upd (as.map Prod.snd) (proj t)
  | [], _ => rfl
  | (k, .emit e) :: as, t => by
    rw [List.map_cons, List.map_cons, tagAction, runActions, runActions, runActions_map hupd hcallee, hupd]
  | (k, .call w) :: as, t => by
    rw [List.map_cons, List.map_cons, tagAction, runActions, runActions, ← hcallee]
    cases callee' w t with
    | none => rfl
    | some t' => exact runActions_map hupd hcallee as t'

theorem run_tagged {σ τ : Type} {proj : τ → σ} {upd : ε → σ → σ} {upd' : κ × ε → τ → τ}
    (hupd : ∀ k e t, proj (upd' (k, e) t) = upd e (proj t)) : ∀ (n : Nat) (v : ν) (t : τ),
      (run (tagged acts) upd' n v t).map proj = run (plain acts) upd n v (proj t)
  | 0, _, _ => rfl
  | n + 1, v, t => runActions_map hupd (run_tagged hupd n) (acts v) t

/-! ## Events and visits -/

theorem events_perm : ∀ (n : Nat) (v : ν),
    Perm (events (tagged acts) n v) ((visits acts n v).flatMap fun x => emits acts x.2)
  | 0, _ => .nil
  | n + 1, v => by
    rw [events, tagged, List.flatMap_map, visits, List.flatMap_cons, List.flatMap_assoc, emits]
    refine (Perm.flatMap_left _ fun a _ => ?_).trans (List.flatMap_append_perm _ _ _).symm
    obtain ⟨k, e | w⟩ := a
    · exact .refl _
    · rw [onward, List.flatMap_map]
      exact events_perm n w

theorem mem_visits_iff : ∀ {n : Nat} {v u : ν} {way : List κ}, Shallow (plain acts) n v →
    ((way, u) ∈ visits acts n v ↔ Way acts v way u)
  | 0, _, _, _, h => h.elim
  | n + 1, v, u, way, h => by
    have hcall : ∀ {k w}, (k, .call w) ∈ acts v → Shallow (plain acts) n w := fun hk =>
      h _ (List.mem_map_of_mem (f := Prod.snd) hk)
    rw [visits, List.mem_cons, List.mem_flatMap]
    constructor
    · rintro (heq | ⟨⟨k, e | w⟩, ha, hx⟩)
      · obtain ⟨rfl, rfl⟩ := Prod.mk.inj heq
        exact .here u
      · cases hx
      · obtain ⟨⟨way', u'⟩, hvisit, heq⟩ := List.mem_map.mp hx
        obtain ⟨rfl, rfl⟩ := Prod.mk.inj heq
        exact .call ha ((mem_visits_iff (hcall ha)).mp hvisit)
    · intro hway
      cases hway with
      | here => exact .inl rfl
      | @call _ w _ k way ha hway =>
        refine .inr ⟨_, ha, ?_⟩
        exact List.mem_map.mpr ⟨_, (mem_visits_iff (hcall ha)).mpr hway, rfl⟩

theorem way_onward {visits : ν → List (List κ × ν)} {a : κ × Action ν ε} {way : List κ}
    (h : way ∈ (onward visits a).map Prod.fst) : ∃ rest, way = a.1 :: rest := by
  obtain ⟨k, e | w⟩ := a
  · cases h
  · obtain ⟨x, hx, rfl⟩ := List.mem_map.mp h
    obtain ⟨y, -, rfl⟩ := List.mem_map.mp hx
    exact ⟨y.1, rfl⟩

theorem nodup_ways (hlabels : ∀ v, ((acts v).map Prod.fst).Nodup) : ∀ (n : Nat) (v : ν),
    ((visits acts n v).map Prod.fst).Nodup
  | 0, _ => .nil
  | n + 1, v => by
    rw [visits, List.map_cons, List.nodup_cons, List.map_flatMap]
    refine ⟨fun hnil => ?_, ?_⟩
    · obtain ⟨a, -, hway⟩ := List.mem_flatMap.mp hnil
      obtain ⟨way, heq⟩ := way_onward hway
      cases heq
    · apply List.pairwise_flatMap.mpr
      refine ⟨fun a _ => ?_, (List.pairwise_map.mp (hlabels v)).imp fun hne way hway way' hway' heq => ?_⟩
      · obtain ⟨k, e | w⟩ := a
        · exact .nil
        · have hrest := (nodup_ways hlabels n w).map (List.cons_injective (a := k))
          rw [List.map_map] at hrest
          rw [onward, List.map_map]
          exact hrest
      · obtain ⟨rest, rfl⟩ := way_onward hway
        obtain ⟨rest', rfl⟩ := way_onward hway'
        exact hne (List.cons.inj heq).1

theorem mem_emits {v : ν} {k : κ} {e : ε} : (k, e) ∈ emits acts v ↔ (k, .emit e) ∈ acts v := by
  unfold emits
  rw [List.mem_flatMap]
  constructor
  · rintro ⟨⟨k', e' | w⟩, ha, hx⟩
    · obtain ⟨rfl, rfl⟩ := Prod.mk.inj (List.mem_singleton.mp hx)
      exact ha
    · cases hx
  · exact fun ha => ⟨_, ha, List.mem_singleton.mpr rfl⟩

theorem emits_sublist : ∀ as : List (κ × Action ν ε),
    ((as.flatMap emitted).map Prod.fst).Sublist (as.map Prod.fst)
  | [] => .slnil
  | (_, .emit _) :: as => (emits_sublist as).cons_cons _
  | (_, .call _) :: as => (emits_sublist as).cons _

/-- There is no event twice when there is one way to each node that emits any. -/
theorem nodup_events_iff {n : Nat} {v : ν} (hs : Shallow (plain acts) n v)
    (hlabels : ∀ v, ((acts v).map Prod.fst).Nodup)
    (hnodes : ∀ {u w k a b}, (k, .emit a) ∈ acts u → (k, .emit b) ∈ acts w → u = w) :
    ((events (tagged acts) n v).map Prod.fst).Nodup ↔
      ∀ u way way', Way acts v way u → Way acts v way' u → (∃ k e, (k, .emit e) ∈ acts u) → way = way' := by
  rw [((events_perm n v).map Prod.fst).nodup_iff, List.map_flatMap, List.Nodup, List.pairwise_flatMap]
  constructor
  · rintro ⟨-, hpairwise⟩ u way way' hway hway' ⟨k, e, he⟩
    by_contra hne
    have hk : k ∈ (emits acts u).map Prod.fst := List.mem_map.mpr ⟨_, mem_emits.mpr he, rfl⟩
    have hsymm : Std.Symm fun x y : List κ × ν =>
        ∀ a ∈ (emits acts x.2).map Prod.fst, ∀ b ∈ (emits acts y.2).map Prod.fst, a ≠ b :=
      ⟨fun _ _ h a ha b hb => (h b hb a ha).symm⟩
    have hdifferent : (way, u) ≠ (way', u) := fun heq => hne (Prod.mk.inj heq).1
    exact hpairwise.forall ((mem_visits_iff hs).mpr hway) ((mem_visits_iff hs).mpr hway') hdifferent k hk k hk rfl
  · intro hways
    refine ⟨fun x _ => (hlabels x.2).sublist (emits_sublist (acts x.2)), ?_⟩
    have hvisits : (visits acts n v).Nodup := (nodup_ways hlabels n v).of_map _
    refine hvisits.pairwise_of_forall_ne fun x hx y hy hne k hk k' hk' heq => ?_
    obtain ⟨⟨k, a⟩, ha, rfl⟩ := List.mem_map.mp hk
    obtain ⟨⟨k', b⟩, hb, rfl⟩ := List.mem_map.mp hk'
    obtain rfl : k = k' := heq
    obtain ⟨way, u⟩ := x
    obtain ⟨way', w⟩ := y
    obtain rfl : u = w := hnodes (mem_emits.mp ha) (mem_emits.mp hb)
    refine hne (Prod.ext ?_ rfl)
    exact hways u way way' ((mem_visits_iff hs).mp hx) ((mem_visits_iff hs).mp hy) ⟨k, a, mem_emits.mp ha⟩

end

end DataRecovery.Traversal
