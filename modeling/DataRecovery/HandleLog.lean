import Mathlib.Logic.Function.Basic

/-!
# Logs of handles

A handle is issued, used and closed. A log is proper when a handle is issued once and
each use and each close is of a handle that is open then; nothing happens to a handle
after its close. Owners share out the open handles when each of these has exactly one.
-/

namespace DataRecovery

inductive HandleEvent (η : Type) where
  | issued (h : η)
  | used (h : η)
  | closed (h : η)

namespace HandleEvent

def handle {η : Type} : HandleEvent η → η
  | issued h => h
  | used h => h
  | closed h => h

end HandleEvent

namespace HandleLog

variable {η : Type}

def IsOpen (log : List (HandleEvent η)) (h : η) : Prop := .issued h ∈ log ∧ .closed h ∉ log

inductive Proper : List (HandleEvent η) → Prop
  | nil : Proper []
  | issue {log h} : Proper log → (∀ e ∈ log, e.handle ≠ h) → Proper (log ++ [.issued h])
  | use {log h} : Proper log → IsOpen log h → Proper (log ++ [.used h])
  | close {log h} : Proper log → IsOpen log h → Proper (log ++ [.closed h])

theorem isOpen_issue {log : List (HandleEvent η)} {h k : η} (hnew : ∀ e ∈ log, e.handle ≠ h) :
    IsOpen (log ++ [.issued h]) k ↔ k = h ∨ IsOpen log k := by
  unfold IsOpen
  simp only [List.mem_append, List.mem_singleton, HandleEvent.issued.injEq, reduceCtorEq, or_false]
  constructor
  · rintro ⟨hissued | rfl, hclosed⟩
    · exact .inr ⟨hissued, hclosed⟩
    · exact .inl rfl
  · rintro (rfl | ⟨hissued, hclosed⟩)
    · exact ⟨.inr rfl, fun hclosed => hnew _ hclosed rfl⟩
    · exact ⟨.inl hissued, hclosed⟩

theorem isOpen_use {log : List (HandleEvent η)} {h k : η} : IsOpen (log ++ [.used h]) k ↔ IsOpen log k := by
  unfold IsOpen
  simp

theorem isOpen_close {log : List (HandleEvent η)} {h k : η} :
    IsOpen (log ++ [.closed h]) k ↔ IsOpen log k ∧ k ≠ h := by
  unfold IsOpen
  simp only [List.mem_append, List.mem_singleton, reduceCtorEq, or_false, HandleEvent.closed.injEq, not_or, and_assoc]

theorem Proper.ne_of_closed {log : List (HandleEvent η)} (hlog : Proper log) {h : η} :
    ∀ {pre post : List (HandleEvent η)}, log = pre ++ .closed h :: post → ∀ e ∈ post, e.handle ≠ h := by
  -- what comes last is not of a handle that is closed already
  have hlast : ∀ (log : List (HandleEvent η)) (last : HandleEvent η),
      (∀ {pre post}, log = pre ++ .closed h :: post → ∀ e ∈ post, e.handle ≠ h) →
      (.closed h ∈ log → last.handle ≠ h) →
        ∀ {pre post}, log ++ [last] = pre ++ .closed h :: post → ∀ e ∈ post, e.handle ≠ h := by
    intro log last ih hne pre post heq e he
    rcases List.eq_nil_or_concat post with rfl | ⟨post, last', rfl⟩
    · cases he
    · rw [List.concat_eq_append] at heq he
      rw [← List.cons_append, ← List.append_assoc] at heq
      obtain ⟨hlog, hsame⟩ := List.append_inj' heq rfl
      obtain rfl : last = last' := (List.cons.inj hsame).1
      rcases List.mem_append.mp he with he | he
      · exact ih hlog e he
      · rw [List.mem_singleton.mp he]
        exact hne (hlog ▸ List.mem_append_right _ (List.mem_cons_self ..))
  induction hlog with
  | nil =>
    intro pre post heq
    cases pre <;> cases heq
  | @issue log k _ hnew ih => exact hlast log (.issued k) ih fun hclosed (heq : k = h) => hnew _ hclosed heq.symm
  | @use log k _ hopen ih => exact hlast log (.used k) ih fun hclosed (heq : k = h) => hopen.2 (heq ▸ hclosed)
  | @close log k _ hopen ih => exact hlast log (.closed k) ih fun hclosed (heq : k = h) => hopen.2 (heq ▸ hclosed)

/-! ## Owners -/

section
variable {ρ : Type}

/-- The open handles are those that owners hold, each held by one owner. -/
structure Shared (log : List (HandleEvent η)) (owned : ρ → Option η) : Prop where
  isOpen_iff : ∀ h, IsOpen log h ↔ ∃ r, owned r = some h
  unique : ∀ {r r' h}, owned r = some h → owned r' = some h → r = r'

variable [DecidableEq ρ] {log log' : List (HandleEvent η)} {owned : ρ → Option η}

/-- One owner's handle is exchanged: the old one closed or kept, the new one its own or fresh. -/
theorem Shared.exchange (hshared : Shared log owned) {r : ρ} {new : Option η}
    (hopen : ∀ h, IsOpen log' h ↔ new = some h ∨ IsOpen log h ∧ owned r ≠ some h)
    (hnew : ∀ h, new = some h → owned r = some h ∨ ¬ IsOpen log h) : Shared log' (Function.update owned r new) := by
  have hother : ∀ {r' h}, r' ≠ r → owned r' = some h → new ≠ some h ∧ owned r ≠ some h := by
    intro r' h hne hheld
    have hnot : owned r ≠ some h := fun heq => hne (hshared.unique hheld heq)
    refine ⟨fun heq => ?_, hnot⟩
    rcases hnew h heq with hold | hclosed
    · exact hnot hold
    · exact hclosed ((hshared.isOpen_iff h).mpr ⟨r', hheld⟩)
  constructor
  · intro h
    rw [hopen]
    constructor
    · rintro (heq | ⟨hlog, hne⟩)
      · exact ⟨r, by rw [Function.update_self, heq]⟩
      · obtain ⟨r', hheld⟩ := (hshared.isOpen_iff h).mp hlog
        have hr : r' ≠ r := fun heq => hne (heq ▸ hheld)
        exact ⟨r', by rw [Function.update_of_ne hr, hheld]⟩
    · rintro ⟨r', hheld⟩
      by_cases hr : r' = r
      · subst hr
        exact .inl (by rwa [Function.update_self] at hheld)
      · rw [Function.update_of_ne hr] at hheld
        exact .inr ⟨(hshared.isOpen_iff h).mpr ⟨r', hheld⟩, (hother hr hheld).2⟩
  · intro r₁ r₂ h h₁ h₂
    by_cases hr₁ : r₁ = r
    · by_cases hr₂ : r₂ = r
      · rw [hr₁, hr₂]
      · subst hr₁
        rw [Function.update_self] at h₁
        rw [Function.update_of_ne hr₂] at h₂
        exact absurd h₁ (hother hr₂ h₂).1
    · rw [Function.update_of_ne hr₁] at h₁
      by_cases hr₂ : r₂ = r
      · subst hr₂
        rw [Function.update_self] at h₂
        exact absurd h₂ (hother hr₁ h₁).1
      · rw [Function.update_of_ne hr₂] at h₂
        exact hshared.unique h₁ h₂

/-- An owner without a handle takes over another's. -/
theorem Shared.transfer (hshared : Shared log owned) {r other : ρ} (hne : r ≠ other) (hnone : owned r = none) :
    Shared log (Function.update (Function.update owned r (owned other)) other none) := by
  have hheld : ∀ {r' h}, Function.update (Function.update owned r (owned other)) other none r' = some h →
      owned (if r' = r then other else r') = some h ∧ r' ≠ other := by
    intro r' h heq
    have hr' : r' ≠ other := by
      rintro rfl
      rw [Function.update_self] at heq
      cases heq
    rw [Function.update_of_ne hr'] at heq
    refine ⟨?_, hr'⟩
    by_cases hr : r' = r
    · rw [if_pos hr]
      rwa [hr, Function.update_self] at heq
    · rw [if_neg hr]
      rwa [Function.update_of_ne hr] at heq
  constructor
  · intro h
    rw [hshared.isOpen_iff]
    constructor
    · intro ⟨r', hr'⟩
      by_cases ho : r' = other
      · exact ⟨r, by rw [Function.update_of_ne hne, Function.update_self, ← ho, hr']⟩
      · have hr : r' ≠ r := by
          rintro rfl
          rw [hnone] at hr'
          cases hr'
        exact ⟨r', by rw [Function.update_of_ne ho, Function.update_of_ne hr, hr']⟩
    · intro ⟨r', hr'⟩
      exact ⟨_, (hheld hr').1⟩
  · intro r₁ r₂ h h₁ h₂
    obtain ⟨h₁, ho₁⟩ := hheld h₁
    obtain ⟨h₂, ho₂⟩ := hheld h₂
    have hsame := hshared.unique h₁ h₂
    by_cases hr₁ : r₁ = r
    · by_cases hr₂ : r₂ = r
      · rw [hr₁, hr₂]
      · rw [if_pos hr₁, if_neg hr₂] at hsame
        exact absurd hsame.symm ho₂
    · rw [if_neg hr₁] at hsame
      by_cases hr₂ : r₂ = r
      · rw [if_pos hr₂] at hsame
        exact absurd hsame ho₁
      · rwa [if_neg hr₂] at hsame

end

end HandleLog

end DataRecovery
