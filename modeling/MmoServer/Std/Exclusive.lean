import Mathlib.Logic.Basic

/-!
# A flag with one owner

A flag that is set on the way in and cleared on the way out keeps everyone else out. It
may be passed on, so that the one who clears it need not be the one who set it.
-/

namespace MmoServer.Std

/-- The flag is set exactly while someone owns it, and nobody owns it with another. -/
structure Exclusive {Owner : Type} (flag : Bool) (Owns : Owner → Prop) : Prop where
  unique : ∀ {one other}, Owns one → Owns other → one = other
  set_iff : flag = true ↔ ∃ owner, Owns owner

namespace Exclusive

variable {Owner : Type} {flag : Bool} {Owns After : Owner → Prop} {one other : Owner}

theorem set (exclusive : Exclusive flag Owns) (owns : Owns one) : flag = true :=
  exclusive.set_iff.mpr ⟨one, owns⟩

theorem not_owns (exclusive : Exclusive false Owns) (owner : Owner) : ¬ Owns owner := by
  intro owns
  cases exclusive.set owns

theorem congr (exclusive : Exclusive flag Owns) (same : ∀ owner, After owner ↔ Owns owner) :
    Exclusive flag After where
  unique first second := exclusive.unique ((same _).mp first) ((same _).mp second)
  set_iff := exclusive.set_iff.trans (exists_congr fun owner => (same owner).symm)

/-- The flag is clear and someone sets it. -/
theorem enter (exclusive : Exclusive false Owns)
    (only : ∀ owner, After owner → owner = one ∨ Owns owner) (after : After one) :
    Exclusive true After where
  unique first second :=
    (((only _ first).resolve_right (exclusive.not_owns _))).trans
      ((only _ second).resolve_right (exclusive.not_owns _)).symm
  set_iff := iff_of_true rfl ⟨one, after⟩

/-- The owner passes it on. -/
theorem pass (exclusive : Exclusive flag Owns) (owns : Owns one)
    (only : ∀ owner, After owner → owner = other ∨ Owns owner ∧ owner ≠ one)
    (after : After other) : Exclusive flag After where
  unique first second := by
    have sole : ∀ {owner}, ¬ (Owns owner ∧ owner ≠ one) := fun both =>
      both.2 (exclusive.unique both.1 owns)
    exact ((only _ first).resolve_right sole).trans ((only _ second).resolve_right sole).symm
  set_iff := iff_of_true (exclusive.set owns) ⟨other, after⟩

/-- The owner clears it. -/
theorem leave (exclusive : Exclusive flag Owns) (owns : Owns one)
    (others : ∀ owner, After owner → Owns owner ∧ owner ≠ one) : Exclusive false After where
  unique first := absurd (exclusive.unique (others _ first).1 owns) (others _ first).2
  set_iff := by
    refine iff_of_false (by decide) ?_
    rintro ⟨owner, after⟩
    exact (others _ after).2 (exclusive.unique (others _ after).1 owns)

end Exclusive
end MmoServer.Std
