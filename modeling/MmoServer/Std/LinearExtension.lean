import Mathlib.Data.List.Perm.Basic

/-!
# Orders of work that respect a precedence

Two orders of the same items that both keep to a precedence differ only in how they
interleave items the precedence leaves open. If such items commute, both orders have the
same effect.
-/

namespace MmoServer.Std

variable {Item State : Type} {precedes : Item → Item → Prop} {effect : State → Item → State}
  {first second front back : List Item} {item : Item}

/-- No item stands behind one that it precedes. -/
def Respects (precedes : Item → Item → Prop) (order : List Item) : Prop :=
  order.Pairwise fun earlier later => ¬ precedes later earlier

/-- An item that commutes with all in front of it can be done first. -/
theorem foldl_move_to_front
    (commutes : ∀ other ∈ front, ∀ state,
      effect (effect state other) item = effect (effect state item) other) (state : State) :
    (front ++ item :: back).foldl effect state = (item :: (front ++ back)).foldl effect state := by
  induction front generalizing state with
  | nil => rfl
  | cons other front ih =>
      have later := ih (fun each member => commutes each (List.mem_cons_of_mem _ member))
        (effect state other)
      rw [List.cons_append, List.foldl_cons, later, List.foldl_cons, List.cons_append,
        List.foldl_cons, List.foldl_cons, commutes other List.mem_cons_self]

/-- Two orders of the same items that respect a precedence have the same effect, if the
items it leaves open commute. The induction takes the head of the first order to the front
of the second: nothing before it there may precede it, nor be preceded by it. -/
theorem foldl_eq_of_respects (same : first.Perm second) (respects : Respects precedes first)
    (respectsSecond : Respects precedes second)
    (commutes : ∀ earlier ∈ first, ∀ later ∈ first,
      ¬ precedes earlier later → ¬ precedes later earlier → ∀ state,
        effect (effect state earlier) later = effect (effect state later) earlier)
    (state : State) : first.foldl effect state = second.foldl effect state := by
  induction first generalizing second state with
  | nil => rw [List.nil_perm.mp same]
  | cons item rest ih =>
      obtain ⟨behind, respectsRest⟩ := List.pairwise_cons.mp respects
      obtain ⟨front, back, rfl⟩ := List.append_of_mem (same.subset List.mem_cons_self)
      have remaining : rest.Perm (front ++ back) :=
        List.Perm.cons_inv (same.trans List.perm_middle)
      obtain ⟨inFront, pairs, across⟩ := List.pairwise_append.mp respectsSecond
      have open_ : ∀ other ∈ front, ∀ before,
          effect (effect before other) item = effect (effect before item) other := by
        intro other member
        have inRest : other ∈ rest := remaining.symm.subset (List.mem_append_left back member)
        exact commutes other (List.mem_cons_of_mem _ inRest) item List.mem_cons_self
          (behind other inRest) (across other member item List.mem_cons_self)
      rw [foldl_move_to_front open_, List.foldl_cons, List.foldl_cons]
      refine ih remaining respectsRest ?_ ?_ _
      · exact respectsSecond.sublist ((List.sublist_cons_self item back).append_left front)
      · exact fun earlier member later memberLater =>
          commutes earlier (List.mem_cons_of_mem _ member) later
            (List.mem_cons_of_mem _ memberLater)

/-- Items in the order of their ranks respect the precedence of lower ranks. -/
theorem respects_of_sorted {rank : Item → Nat}
    (sorted : first.Pairwise fun earlier later => rank earlier ≤ rank later) :
    Respects (fun earlier later => rank earlier < rank later) first :=
  sorted.imp fun inOrder => Nat.not_lt.mpr inOrder

end MmoServer.Std
