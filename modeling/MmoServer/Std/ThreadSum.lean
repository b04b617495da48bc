import Mathlib.Algebra.BigOperators.Fin
import Mathlib.Algebra.Order.BigOperators.Group.Finset

/-!
# Counting over a fixed set of threads

A weight assigns a number to a thread's local state. `threadSum` adds it over
all threads; a step of one thread changes the sum by the difference of that
thread's weights, which is the only fact an accounting invariant needs.
-/

namespace MmoServer.Std

variable {Local : Type} {count : Nat}

/-- The total weight of all threads. -/
def threadSum (weight : Local → Nat) (threads : Fin count → Local) : Nat :=
  ∑ thread, weight (threads thread)

/-- One thread moving from its state to `after` trades the two weights. -/
theorem threadSum_update (weight : Local → Nat) (threads : Fin count → Local)
    (thread : Fin count) (after : Local) :
    threadSum weight (Function.update threads thread after) + weight (threads thread) =
      threadSum weight threads + weight after := by
  unfold threadSum
  have others : ∑ other ∈ Finset.univ.erase thread,
      weight (Function.update threads thread after other) =
      ∑ other ∈ Finset.univ.erase thread, weight (threads other) := by
    apply Finset.sum_congr rfl
    intro other member
    rw [Function.update_of_ne (Finset.ne_of_mem_erase member)]
  rw [← Finset.add_sum_erase _ _ (Finset.mem_univ thread),
    ← Finset.add_sum_erase Finset.univ (fun other => weight (threads other))
      (Finset.mem_univ thread), others, Function.update_self]
  omega

/-- A single thread weighs no more than all of them. -/
theorem weight_le_threadSum (weight : Local → Nat) (threads : Fin count → Local)
    (thread : Fin count) : weight (threads thread) ≤ threadSum weight threads :=
  Finset.single_le_sum (f := fun other => weight (threads other))
    (fun _ _ => Nat.zero_le _) (Finset.mem_univ thread)

/-- The sum vanishes exactly when every thread weighs nothing. -/
theorem threadSum_eq_zero_iff {weight : Local → Nat} {threads : Fin count → Local} :
    threadSum weight threads = 0 ↔ ∀ thread, weight (threads thread) = 0 := by
  simp [threadSum]

/-- Comparing weights compares sums. -/
theorem threadSum_mono {lighter heavier : Local → Nat} {threads : Fin count → Local}
    (below : ∀ thread, lighter (threads thread) ≤ heavier (threads thread)) :
    threadSum lighter threads ≤ threadSum heavier threads :=
  Finset.sum_le_sum fun thread _ => below thread

/-- Weights of at most one add up to at most the number of threads. -/
theorem threadSum_le_count {weight : Local → Nat} {threads : Fin count → Local}
    (bounded : ∀ thread, weight (threads thread) ≤ 1) :
    threadSum weight threads ≤ count := by
  calc threadSum weight threads ≤ ∑ _thread : Fin count, 1 :=
        Finset.sum_le_sum fun thread _ => bounded thread
    _ = count := by simp

end MmoServer.Std
