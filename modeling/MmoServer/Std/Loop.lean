import Mathlib.Order.WellFounded

/-!
# Loops without a bound

The body of a loop takes a state to the next round, or ends the loop, or does something
that is not defined. Two rules say whether a loop ends: a variant that goes down in
every round, and an invariant under which every round is followed by another.
-/

namespace MmoServer.Std

/-- How one execution of the body ends. -/
inductive Round (State : Type) where
  | undefined
  | returned (state : State)
  | again (state : State)

namespace Loop

variable {State : Type} {body : State → Round State} {state next last : State}

/-- The loop after at most so many rounds. -/
def rounds (body : State → Round State) : Nat → State → Round State
  | 0, state => .again state
  | count + 1, state =>
    match body state with
    | .again next => rounds body count next
    | .returned last => .returned last
    | .undefined => .undefined

/-- No round of the loop is undefined. -/
def Defined (body : State → Round State) (state : State) : Prop :=
  ∀ count, rounds body count state ≠ .undefined

/-- The loop ends after finitely many rounds. -/
def Ends (body : State → Round State) (state : State) : Prop :=
  ∃ count last, rounds body count state = .returned last

theorem rounds_succ_of_again (more : body state = .again next) (count : Nat) :
    rounds body (count + 1) state = rounds body count next := by
  rw [rounds, more]

theorem Defined.again (defined : Defined body state) (more : body state = .again next) :
    Defined body next := by
  intro count undefined
  rw [← rounds_succ_of_again more] at undefined
  exact defined _ undefined

theorem Defined.body_ne (defined : Defined body state) : body state ≠ .undefined := by
  intro undefined
  apply defined 1
  rw [rounds, undefined]

theorem Ends.of_again (ends : Ends body next) (more : body state = .again next) :
    Ends body state := by
  obtain ⟨count, last, same⟩ := ends
  exact ⟨count + 1, last, (rounds_succ_of_again more count).trans same⟩

theorem ends_of_returned (done : body state = .returned last) : Ends body state := by
  refine ⟨1, last, ?_⟩
  rw [rounds, done]

/-- A loop that has ended did so in a round that others led to. -/
theorem again_of_returned {count : Nat} (done : rounds body count state = .returned last) :
    ∃ earlier middle, earlier < count ∧ rounds body earlier state = .again middle ∧
      body middle = .returned last := by
  induction count generalizing state with
  | zero => cases done
  | succ count ih =>
      cases round : body state with
      | undefined =>
          rw [rounds, round] at done
          cases done
      | returned final =>
          rw [rounds, round] at done
          cases done
          exact ⟨0, state, Nat.succ_pos count, rfl, round⟩
      | again next =>
          rw [rounds_succ_of_again round] at done
          obtain ⟨earlier, middle, fewer, more, final⟩ := ih done
          refine ⟨earlier + 1, middle, Nat.succ_lt_succ fewer, ?_, final⟩
          rw [rounds_succ_of_again round, more]

/-- The variant rule. -/
theorem ends_of_variant {Rank : Type} [LT Rank] [WellFoundedLT Rank] (keeps : State → Prop)
    (variant : State → Rank)
    (decreases : ∀ {state next}, keeps state → body state = .again next →
      keeps next ∧ variant next < variant state)
    (kept : keeps state) (defined : Defined body state) : Ends body state := by
  generalize rank_eq : variant state = rank
  induction rank using WellFoundedLT.induction generalizing state with
  | ind rank ih =>
      subst rank_eq
      cases round : body state with
      | undefined => exact absurd round defined.body_ne
      | returned last => exact ends_of_returned round
      | again next =>
          obtain ⟨keptToo, less⟩ := decreases kept round
          exact (ih _ less keptToo (defined.again round) rfl).of_again round

/-- The rule for a loop that goes on. -/
theorem goes_on_of_invariant (keeps : State → Prop)
    (goes : ∀ {state}, keeps state → ∃ next, body state = .again next ∧ keeps next)
    (kept : keeps state) (count : Nat) : ∃ next, rounds body count state = .again next := by
  induction count generalizing state with
  | zero => exact ⟨state, rfl⟩
  | succ count ih =>
      obtain ⟨next, more, keptToo⟩ := goes kept
      rw [rounds_succ_of_again more]
      exact ih keptToo

/-- Such a loop is defined, and does not end. -/
theorem defined_and_not_ends (keeps : State → Prop)
    (goes : ∀ {state}, keeps state → ∃ next, body state = .again next ∧ keeps next)
    (kept : keeps state) : Defined body state ∧ ¬ Ends body state := by
  constructor
  · intro count undefined
    obtain ⟨next, more⟩ := goes_on_of_invariant keeps goes kept count
    rw [more] at undefined
    cases undefined
  · rintro ⟨count, last, done⟩
    obtain ⟨next, more⟩ := goes_on_of_invariant keeps goes kept count
    rw [more] at done
    cases done

end Loop
end MmoServer.Std
