import Mathlib.Data.List.Count
import Mathlib.Data.List.Range

/-!
# Counters that many threads decrement

Whatever the threads do, the operations on one atomic counter come in one order, and each
`fetch_sub(1)` observes what the one before it has left. `Decrements` is that order: the
values observed since the counter was set, and the value it has now. An unsigned counter
wraps around below zero.

A count-down fires at the value one. With stores of zero only and no more decrements than
the counter has values it fires at most once; with no store, and as many decrements as it
was set to, it fires once, at the last of them.
-/

namespace MmoServer.Std

/-- What `fetch_sub(1)` leaves in an unsigned counter. -/
def wrapPred (modulus value : Nat) : Nat := (modulus - 1 + value) % modulus

theorem wrapPred_zero {modulus : Nat} (positive : 0 < modulus) :
    wrapPred modulus 0 = modulus - 1 :=
  Nat.mod_eq_of_lt (Nat.sub_lt positive Nat.one_pos)

theorem wrapPred_of_pos {modulus value : Nat} (positive : 0 < value) (small : value ≤ modulus) :
    wrapPred modulus value = value - 1 := by
  have split : modulus - 1 + value = value - 1 + modulus := by omega
  rw [wrapPred, split, Nat.add_mod_right]
  exact Nat.mod_eq_of_lt (by omega)

/-- The values that the decrements of a counter have observed since it was set to `start`,
and its value now. In between it may be overwritten by a value of `stores`. -/
inductive Decrements (modulus : Nat) (stores : Nat → Prop) (start : Nat) :
    List Nat → Nat → Prop where
  | refl : Decrements modulus stores start [] start
  | fetchSub {observed value} (before : Decrements modulus stores start observed value) :
      Decrements modulus stores start (observed ++ [value]) (wrapPred modulus value)
  | store {observed value stored} (before : Decrements modulus stores start observed value)
      (allowed : stores stored) : Decrements modulus stores start observed stored

namespace Decrements

variable {modulus start value : Nat} {stores wider : Nat → Prop} {observed : List Nat}

theorem mono (decrements : Decrements modulus stores start observed value)
    (implies : ∀ value, stores value → wider value) :
    Decrements modulus wider start observed value := by
  induction decrements with
  | refl => exact .refl
  | fetchSub _ ih => exact .fetchSub ih
  | store _ allowed ih => exact .store ih (implies _ allowed)

/-- One is observed at most once, and after that the counter is at zero or has come around
from there: it lacks no more of `modulus` than has been decremented. -/
theorem count_one (decrements : Decrements modulus (· = 0) start observed value)
    (few : observed.length < modulus) : observed.count 1 = 0 ∨
      observed.count 1 = 1 ∧ value < modulus ∧
        (value = 0 ∨ modulus ≤ value + observed.length) := by
  induction decrements with
  | refl => exact .inl rfl
  | store _ allowed ih =>
      subst allowed
      rcases ih few with none | ⟨one, -⟩
      · exact .inl none
      · exact .inr ⟨one, Nat.zero_lt_of_lt few, .inl rfl⟩
  | @fetchSub observed value before ih =>
      rw [List.length_append, List.length_singleton] at few ⊢
      rw [List.count_append, List.count_singleton]
      have left := Nat.mod_lt (modulus - 1 + value) (Nat.zero_lt_of_lt few)
      rcases ih (by omega) with none | ⟨one, small, zero | around⟩
      · by_cases fires : value = 1
        · subst fires
          have zero := wrapPred_of_pos Nat.one_pos (by omega : 1 ≤ modulus)
          exact .inr ⟨by simp [none], left, .inl zero⟩
        · exact .inl (by simp [none, fires])
      · subst zero
        refine .inr ⟨by simp [one], left, .inr ?_⟩
        rw [wrapPred_zero (Nat.zero_lt_of_lt few)]
        omega
      · -- To get to one again it would have to be decremented as often as it has values.
        have later : value ≠ 1 := by omega
        refine .inr ⟨by simp [one, later], left, .inr ?_⟩
        rcases Nat.eq_zero_or_pos value with rfl | positive
        · rw [wrapPred_zero (Nat.zero_lt_of_lt few)]
          omega
        · rw [wrapPred_of_pos positive (Nat.le_of_lt small)]
          omega

/-- A count-down fires at most once. -/
theorem count_one_le (decrements : Decrements modulus (· = 0) start observed value)
    (few : observed.length < modulus) : observed.count 1 ≤ 1 := by
  rcases decrements.count_one few with none | ⟨one, -⟩
  · exact none ▸ Nat.zero_le 1
  · exact Nat.le_of_eq one

/-- Without stores the counter counts down. -/
theorem counts_down (decrements : Decrements modulus (fun _ => False) start observed value)
    (small : start ≤ modulus) (few : observed.length ≤ start) :
    value = start - observed.length ∧ ∀ each ∈ observed, value < each := by
  induction decrements with
  | refl => exact ⟨rfl, fun _ member => absurd member List.not_mem_nil⟩
  | store _ allowed => exact allowed.elim
  | @fetchSub observed value before ih =>
      rw [List.length_append, List.length_singleton] at few ⊢
      obtain ⟨left, above⟩ := ih (by omega)
      rw [wrapPred_of_pos (by omega) (by omega)]
      refine ⟨by omega, fun each member => ?_⟩
      rcases List.mem_append.mp member with earlier | last
      · exact Nat.lt_of_le_of_lt (Nat.sub_le _ _) (above each earlier)
      · rw [List.mem_singleton.mp last]
        omega

/-- A count-down by as many decrements as the counter was set to fires at the last of them,
and at no other. -/
theorem fires_last (decrements : Decrements modulus (fun _ => False) start observed value)
    (positive : 0 < start) (small : start ≤ modulus) (all : observed.length = start) :
    ∃ earlier, observed = earlier ++ [1] ∧ 1 ∉ earlier := by
  induction decrements with
  | refl => exact absurd all (Nat.ne_of_lt positive)
  | store _ allowed => exact allowed.elim
  | @fetchSub observed value before =>
      rw [List.length_append, List.length_singleton] at all
      obtain ⟨left, above⟩ := before.counts_down small (by omega)
      obtain rfl : value = 1 := by omega
      exact ⟨observed, rfl, fun member => Nat.lt_irrefl 1 (above 1 member)⟩

end Decrements
end MmoServer.Std
