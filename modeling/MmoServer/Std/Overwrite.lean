import Mathlib.Data.Finmap

/-!
# Writing entries into a finite map

Each write adds an entry or replaces the one its key has, so what a key reads after
some writes is the last value they give it, or else what it read before.
-/

namespace MmoServer.Std

variable {Key Value Other : Type} [DecidableEq Key]

/-- The last value that a list of writes gives a key. -/
def lastWrite (writes : List (Key × Value)) (key : Key) : Option Value := writes.reverse.lookup key

/-- A map after some writes, in their order. -/
def overwrite (map : Finmap fun _ : Key => Value) (writes : List (Key × Value)) :
    Finmap fun _ : Key => Value :=
  writes.foldl (fun map write => map.insert write.1 write.2) map

variable {map : Finmap fun _ : Key => Value} {writes later : List (Key × Value)} {key : Key}

theorem lastWrite_concat (writes : List (Key × Value)) (key other : Key) (value : Value) :
    lastWrite (writes ++ [(other, value)]) key =
      if key = other then some value else lastWrite writes key := by
  rw [lastWrite, List.reverse_concat, List.lookup_cons, ← lastWrite]
  by_cases same : key = other
  · simp [same]
  · simp [same, beq_false_of_ne same]

theorem overwrite_append (map : Finmap fun _ : Key => Value) (writes later : List (Key × Value)) :
    overwrite map (writes ++ later) = overwrite (overwrite map writes) later :=
  List.foldl_append

theorem lookup_overwrite :
    (overwrite map writes).lookup key = (lastWrite writes key).or (map.lookup key) := by
  induction writes using List.reverseRecOn with
  | nil => rfl
  | append_singleton writes write ih =>
      rw [overwrite_append, lastWrite_concat]
      change ((overwrite map writes).insert write.1 write.2).lookup key = _
      by_cases same : key = write.1
      · rw [same, Finmap.lookup_insert, if_pos rfl]
        rfl
      · rw [Finmap.lookup_insert_of_ne _ same, ih, if_neg same]

/-- Values that are all converted are converted in the last write too. -/
theorem lastWrite_map (convert : Value → Other) (writes : List (Key × Value)) (key : Key) :
    lastWrite (writes.map fun write => (write.1, convert write.2)) key =
      (lastWrite writes key).map convert := by
  induction writes using List.reverseRecOn with
  | nil => rfl
  | append_singleton writes write ih =>
      rw [List.map_append, List.map_singleton, lastWrite_concat, lastWrite_concat, ih]
      split <;> rfl

end MmoServer.Std
