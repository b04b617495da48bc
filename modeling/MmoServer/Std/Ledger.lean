import Mathlib.Data.Finset.Card
import Mathlib.Data.Set.Pairwise.Basic
import MmoServer.Semantics.Transition

/-!
# Handing out items and taking them back

A ledger is the set of the items that are out. It gives out items that keep apart from
all others, as long as fewer than `capacity` are out, and takes back exactly those that
are out. A system refines it when every step it makes, as its caller sees it, is one
that the ledger makes too.
-/

namespace MmoServer.Std.Ledger

open MmoServer.Semantics

/-- What the caller sees. -/
inductive Event (Item : Type) where
  /-- An item, or none. -/
  | handOut (given : Option Item)
  | takeBack (item : Item) (accepted : Bool)
deriving DecidableEq

section

variable {Item : Type} [DecidableEq Item]

/-- The ledger's transitions. -/
inductive Step (capacity : Nat) (Apart : Item → Item → Prop) :
    Finset Item → Event Item → Finset Item → Prop where
  | handOut {live item} (room : live.card < capacity) (apart : ∀ other ∈ live, Apart item other) :
      Step capacity Apart live (.handOut (some item)) (insert item live)
  | exhausted {live} (full : live.card = capacity) :
      Step capacity Apart live (.handOut none) live
  | takeBack {live item} (out : item ∈ live) :
      Step capacity Apart live (.takeBack item true) (live.erase item)
  | refuse {live item} (absent : item ∉ live) :
      Step capacity Apart live (.takeBack item false) live

/-- What happens from the start on, when nothing is out. -/
inductive Runs (capacity : Nat) (Apart : Item → Item → Prop) :
    List (Event Item) → Finset Item → Prop where
  | start : Runs capacity Apart [] ∅
  | step {events live event after} (prior : Runs capacity Apart events live)
      (transition : Step capacity Apart live event after) :
      Runs capacity Apart (events ++ [event]) after

variable {capacity : Nat} {Apart : Item → Item → Prop} {events : List (Event Item)}
  {live after : Finset Item} {event : Event Item}

theorem Step.pairwise (transition : Step capacity Apart live event after)
    (symmetric : ∀ item other, Apart item other → Apart other item)
    (before : (live : Set Item).Pairwise Apart) : (after : Set Item).Pairwise Apart := by
  cases transition with
  | handOut room apart =>
      rw [Finset.coe_insert, Set.pairwise_insert]
      exact ⟨before, fun other out _ => ⟨apart other out, symmetric _ _ (apart other out)⟩⟩
  | exhausted full => exact before
  | takeBack out => exact before.mono (Finset.coe_subset.mpr (Finset.erase_subset _ _))
  | refuse absent => exact before

/-- The items that are out keep apart. -/
theorem Runs.pairwise (symmetric : ∀ item other, Apart item other → Apart other item)
    (runs : Runs capacity Apart events live) : (live : Set Item).Pairwise Apart := by
  induction runs with
  | start =>
      rw [Finset.coe_empty]
      exact Set.pairwise_empty _
  | step prior transition ih => exact transition.pairwise symmetric ih

/-- The simulation rule: a system whose every step is one of the ledger runs as it does. -/
theorem Runs.of_simulation {State Choice : Type}
    {system : TransitionSystem State Choice (Event Item)} {start finish : State}
    (represents : State → Finset Item → Prop) (initial : represents start ∅)
    (simulates : ∀ {state live choice next event}, represents state live →
      system.step state choice = some (next, event) →
      ∃ after, Step capacity Apart live event after ∧ represents next after)
    (run : system.Runs start events finish) :
    ∃ live, Runs capacity Apart events live ∧ represents finish live :=
  run.invariant (fun events state => ∃ live, Runs capacity Apart events live ∧ represents state live)
    ⟨∅, .start, initial⟩ fun _ earlier transition _ => by
      obtain ⟨live, runs, represented⟩ := earlier
      obtain ⟨after, simulated, kept⟩ := simulates represented transition
      exact ⟨after, .step runs simulated, kept⟩

end

end MmoServer.Std.Ledger
