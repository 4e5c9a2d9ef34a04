import Mathlib.Data.List.Forall2
import Mathlib.Tactic

/-!
# Readings one after another

A reading either succeeds or gives one cause of failure.  What follows says
when a sequence of readings succeeds, and that its failure is that of the
leftmost reading that fails.
-/

namespace TabletopDice.Traversal

variable {ε α β : Type}

theorem bind_eq_ok_iff {x : Except ε α} {f : α → Except ε β} {b : β} :
    x >>= f = .ok b ↔ ∃ a, x = .ok a ∧ f a = .ok b := by
  cases x <;> simp [bind, Except.bind]

theorem bind_eq_error_iff {x : Except ε α} {f : α → Except ε β} {e : ε} :
    x >>= f = .error e ↔ x = .error e ∨ ∃ a, x = .ok a ∧ f a = .error e := by
  cases x <;> simp [bind, Except.bind]

theorem map_eq_ok_iff {x : Except ε α} {f : α → β} {b : β} :
    f <$> x = .ok b ↔ ∃ a, x = .ok a ∧ f a = b := by
  cases x <;> simp [Functor.map, Except.map]

theorem map_eq_error_iff {x : Except ε α} {f : α → β} {e : ε} :
    f <$> x = .error e ↔ x = .error e := by
  cases x <;> simp [Functor.map, Except.map]

theorem mapError_eq_ok_iff {ε' : Type} {x : Except ε α} {f : ε → ε'}
    {a : α} : x.mapError f = .ok a ↔ x = .ok a := by
  cases x <;> simp [Except.mapError]

theorem exists_rel_of_mem_right {r : α → β → Prop} {xs : List α}
    {ys : List β} (hrel : List.Forall₂ r xs ys) {y : β} (hmem : y ∈ ys) :
    ∃ x, r x y := by
  induction hrel with
  | nil => simp at hmem
  | cons hfirst hrest ih =>
      rcases List.mem_cons.mp hmem with heq | hmem
      · exact ⟨_, heq ▸ hfirst⟩
      · exact ih hmem

/-- All readings succeed, each with its own result. -/
theorem mapM_eq_ok_iff {f : α → Except ε β} {xs : List α} {ys : List β} :
    xs.mapM f = .ok ys ↔ List.Forall₂ (fun x y => f x = .ok y) xs ys := by
  induction xs generalizing ys with
  | nil =>
      rw [List.mapM_nil, List.forall₂_nil_left_iff]
      simp [pure, Except.pure, eq_comm]
  | cons x xs ih =>
      rw [List.mapM_cons, bind_eq_ok_iff, List.forall₂_cons_left_iff]
      constructor
      · rintro ⟨y, hy, hrest⟩
        obtain ⟨rest, hrest, hys⟩ := bind_eq_ok_iff.mp hrest
        exact ⟨y, rest, hy, ih.mp hrest, (Except.ok.inj hys).symm⟩
      · rintro ⟨y, rest, hy, hrest, rfl⟩
        exact ⟨y, hy, bind_eq_ok_iff.mpr ⟨rest, ih.mpr hrest, rfl⟩⟩

/-- The leftmost reading that fails decides how the sequence fails. -/
theorem mapM_eq_error_iff {f : α → Except ε β} {xs : List α} {e : ε} :
    xs.mapM f = .error e ↔
      ∃ before x after, xs = before ++ x :: after ∧
        (∀ a ∈ before, ∃ b, f a = .ok b) ∧ f x = .error e := by
  induction xs with
  | nil =>
      simp [pure, Except.pure]
  | cons x xs ih =>
      rw [List.mapM_cons, bind_eq_error_iff]
      constructor
      · rintro (hx | ⟨y, hy, hrest⟩)
        · exact ⟨[], x, xs, rfl, by simp, hx⟩
        · rcases bind_eq_error_iff.mp hrest with hrest | ⟨rest, -, hpure⟩
          · obtain ⟨before, z, after, rfl, hbefore, hz⟩ := ih.mp hrest
            refine ⟨x :: before, z, after, rfl, ?_, hz⟩
            intro a ha
            rcases List.mem_cons.mp ha with rfl | hmem
            · exact ⟨y, hy⟩
            · exact hbefore a hmem
          · cases hpure
      · rintro ⟨before, z, after, hxs, hbefore, hz⟩
        cases before with
        | nil =>
            obtain ⟨rfl, rfl⟩ := List.cons.inj hxs
            exact .inl hz
        | cons a before =>
            obtain ⟨rfl, rfl⟩ := List.cons.inj hxs
            obtain ⟨y, hy⟩ := hbefore x List.mem_cons_self
            have hlater : ∀ a ∈ before, ∃ b, f a = .ok b :=
              fun a ha => hbefore a (List.mem_cons_of_mem x ha)
            have hrest := ih.mpr ⟨before, z, after, rfl, hlater, hz⟩
            exact .inr ⟨y, hy, bind_eq_error_iff.mpr (.inl hrest)⟩

end TabletopDice.Traversal
