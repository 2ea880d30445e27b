import Mathlib.Data.List.Basic

/-!
# Texts cut at a separator

A text is cut in one way only at its first separator, and in one way only at its last. So lines
that do not hold what ends them can be told from the text they make together.
-/

namespace DataRecovery

section
variable {α β : Type} {c : β}

theorem append_cons_inj : ∀ {xs ys as bs : List β}, c ∉ xs → c ∉ ys → xs ++ c :: as = ys ++ c :: bs →
    xs = ys ∧ as = bs
  | [], [], _, _, _, _, h => ⟨rfl, List.tail_eq_of_cons_eq h⟩
  | [], y :: ys, _, _, _, hy, h => absurd (List.head_eq_of_cons_eq h ▸ List.mem_cons_self) hy
  | x :: xs, [], _, _, hx, _, h => absurd ((List.head_eq_of_cons_eq h).symm ▸ List.mem_cons_self) hx
  | x :: xs, y :: ys, _, _, hx, hy, h => by
    obtain ⟨hhead, htail⟩ := List.cons.inj h
    obtain ⟨hxs, has⟩ := append_cons_inj (fun hc => hx (List.mem_cons_of_mem x hc))
      (fun hc => hy (List.mem_cons_of_mem y hc)) htail
    exact ⟨by rw [hhead, hxs], has⟩

/-- The same at the last separator. -/
theorem append_cons_inj_last {xs ys as bs : List β} (ha : c ∉ as) (hb : c ∉ bs)
    (h : xs ++ c :: as = ys ++ c :: bs) : xs = ys ∧ as = bs := by
  have hreverse := congrArg List.reverse h
  rw [List.reverse_append, List.reverse_append, List.reverse_cons, List.reverse_cons, List.append_assoc,
    List.append_assoc] at hreverse
  obtain ⟨has, hxs⟩ := append_cons_inj (fun hc => ha (List.mem_reverse.mp hc)) (fun hc => hb (List.mem_reverse.mp hc))
    hreverse
  exact ⟨List.reverse_injective hxs, List.reverse_injective has⟩

variable (c) (line : α → List β)

def endedLines (es : List α) : List β := es.flatMap fun e => line e ++ [c]

theorem endedLines_cons (e : α) (es : List α) : endedLines c line (e :: es) = line e ++ c :: endedLines c line es := by
  unfold endedLines
  rw [List.flatMap_cons, List.append_assoc, List.singleton_append]

theorem endedLines_ne_nil (e : α) (es : List α) : endedLines c line (e :: es) ≠ [] := by
  rw [endedLines_cons]
  exact List.append_ne_nil_of_right_ne_nil _ (List.cons_ne_nil _ _)

variable {c} {line}

/-- Whole lines are a prefix of others only if the entries are. -/
theorem prefix_of_endedLines (hinj : Function.Injective line) : ∀ {es fs : List α}, (∀ e ∈ es, c ∉ line e) →
    (∀ f ∈ fs, c ∉ line f) → endedLines c line es <+: endedLines c line fs → es <+: fs
  | [], fs, _, _, _ => List.nil_prefix
  | e :: es, [], _, _, h => absurd (List.prefix_nil.mp h) (endedLines_ne_nil c line e es)
  | e :: es, f :: fs, he, hf, h => by
    obtain ⟨rest, h⟩ := h
    rw [endedLines_cons, endedLines_cons, List.append_assoc, List.cons_append] at h
    obtain ⟨hline, hrest⟩ := append_cons_inj (he e List.mem_cons_self) (hf f List.mem_cons_self) h
    obtain rfl := hinj hline
    refine List.cons_prefix_cons.mpr ⟨rfl, prefix_of_endedLines hinj ?_ ?_ ⟨rest, hrest⟩⟩
    · exact fun e' h' => he e' (List.mem_cons_of_mem e h')
    · exact fun f' h' => hf f' (List.mem_cons_of_mem e h')

theorem endedLines_prefix_iff (hinj : Function.Injective line) {es fs : List α} (he : ∀ e ∈ es, c ∉ line e)
    (hf : ∀ f ∈ fs, c ∉ line f) : endedLines c line es <+: endedLines c line fs ↔ es <+: fs := by
  refine ⟨prefix_of_endedLines hinj he hf, ?_⟩
  rintro ⟨rest, rfl⟩
  unfold endedLines
  rw [List.flatMap_append]
  exact List.prefix_append _ _

theorem endedLines_inj (hinj : Function.Injective line) {es fs : List α} (he : ∀ e ∈ es, c ∉ line e)
    (hf : ∀ f ∈ fs, c ∉ line f) : endedLines c line es = endedLines c line fs ↔ es = fs := by
  refine ⟨fun h => ?_, fun h => h ▸ rfl⟩
  have hprefix := (endedLines_prefix_iff hinj he hf).mp (h ▸ List.prefix_refl _)
  have hprefix' := (endedLines_prefix_iff hinj hf he).mp (h ▸ List.prefix_refl _)
  exact hprefix.eq_of_length_le hprefix'.length_le

end

end DataRecovery
