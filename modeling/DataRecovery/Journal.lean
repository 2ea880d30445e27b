import DataRecovery.Traversal

/-!
# Numbered items and journals

A procedure that numbers what it comes upon and stores an item for each leaves the items in
order, each with its own number. One that also keeps a journal does to its state what it does
without, and two of them that number alike write the same journal.
-/

namespace DataRecovery

section
variable {ε κ α : Type} (next : κ → κ) (item : κ → ε → α)

def numberedItems : κ → List ε → List α
  | _, [] => []
  | k, e :: es => item k e :: numberedItems (next k) es

/-- What does not depend on the numbers is the same for all of them. -/
theorem map_numberedItems_of_forall {β : Type} {f : α → β} {g : ε → β} (h : ∀ k e, f (item k e) = g e) :
    ∀ (k : κ) (es : List ε), (numberedItems next item k es).map f = es.map g
  | _, [] => rfl
  | k, e :: es => by rw [numberedItems, List.map_cons, List.map_cons, h, map_numberedItems_of_forall h (next k) es]

variable {next item}

/-- A relation to the events that the numbers do not matter for. -/
theorem forall₂_numberedItems {β : Type} {R : β → ε → Prop} {S : β → α → Prop} (h : ∀ b e k, R b e → S b (item k e))
    {bs : List β} {es : List ε} (hes : List.Forall₂ R bs es) (k : κ) : List.Forall₂ S bs (numberedItems next item k es) := by
  induction hes generalizing k with
  | nil => exact .nil
  | cons hb _ ih => exact .cons (h _ _ k hb) (ih (next k))

theorem foldl_numberedItems {σ : Type} {counter : σ → κ} {get : σ → List α} {upd : ε → σ → σ}
    (hcounter : ∀ e s, counter (upd e s) = next (counter s))
    (hget : ∀ e s, get (upd e s) = get s ++ [item (counter s) e]) : ∀ (es : List ε) (s : σ),
      get (es.foldl (fun s e => upd e s) s) = get s ++ numberedItems next item (counter s) es
  | [], _ => (List.append_nil _).symm
  | e :: es, s => by
    rw [List.foldl_cons, foldl_numberedItems hcounter hget es, hget, hcounter, List.append_assoc]
    rfl

end

namespace Traversal
variable {ν ε σ τ : Type} {acts : ν → List (Action ν ε)} (upd : ε → σ → σ) (note : ε → σ → τ → τ)

/-- An update that also notes down what it has to say about the state it finds. -/
def journalled (e : ε) (s : σ × τ) : σ × τ := (upd e s.1, note e s.1 s.2)

theorem foldl_journalled_fst : ∀ (es : List ε) (s : σ × τ),
    (es.foldl (fun s e => journalled upd note e s) s).1 = es.foldl (fun s e => upd e s) s.1
  | [], _ => rfl
  | e :: es, s => foldl_journalled_fst es (journalled upd note e s)

theorem run_journalled_fst (n : Nat) (v : ν) (s : σ) (journal : τ) :
    (run acts (journalled upd note) n v (s, journal)).map Prod.fst = run acts upd n v s := by
  by_cases h : Shallow acts n v
  · rw [run_some h, run_some h, Option.map_some, foldl_journalled_fst]
  · rw [run_none h, run_none h, Option.map_none]

/-- What is noted down is the numbered items, one after the other. -/
theorem foldl_journalled_snd {κ α : Type} {next : κ → κ} {item : κ → ε → α} {put : τ → α → τ} {counter : σ → κ}
    (hcounter : ∀ e s, counter (upd e s) = next (counter s))
    (hnote : ∀ e s journal, note e s journal = put journal (item (counter s) e)) : ∀ (es : List ε) (s : σ × τ),
      (es.foldl (fun s e => journalled upd note e s) s).2 = (numberedItems next item (counter s.1) es).foldl put s.2
  | [], _ => rfl
  | e :: es, s => by
    rw [List.foldl_cons, foldl_journalled_snd hcounter hnote es, journalled, hcounter, hnote]
    rfl

end Traversal

end DataRecovery
