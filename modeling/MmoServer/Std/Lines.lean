import Mathlib.Data.List.Basic

/-!
# The lines of a text

`getline` takes the first line off a text, up to a newline or to the end, and finds
none at the end of the text. `lines` is what a loop over it reads (`lines_eq`).

`unlines` lays lines out. A loop that skips blank lines reads back from it what was
laid out, whether or not the last line is ended by a newline: `foldl_lines_unlines`.
-/

namespace MmoServer.Std

variable {α State : Type} [DecidableEq α] (newline : α)

/-- The first line of a text, and what comes after its newline. -/
def getline : List α → Option (List α × List α)
  | [] => none
  | text => some (text.takeWhile (· ≠ newline), (text.dropWhile (· ≠ newline)).tail)

/-- All lines of a text. A newline at the very end begins no further line. -/
def lines : List α → List (List α)
  | [] => []
  | item :: rest =>
    if item = newline then [] :: lines rest
    else
      match lines rest with
      | [] => [[item]]
      | line :: later => (item :: line) :: later

/-- Lines one after the other, with a newline between them and, if `ended`, one more. -/
def unlines (ended : Bool) (each : List (List α)) : List α :=
  [newline].intercalate each ++ if ended then [newline] else []

variable {newline} {line text : List α} {each : List (List α)} {ended : Bool}

/-- The lines of a text are those that `getline` takes off it until there is none. -/
theorem lines_eq (text : List α) : lines newline text =
    match getline newline text with
    | none => []
    | some (line, rest) => line :: lines newline rest := by
  induction text with
  | nil => rfl
  | cons item rest ih =>
      by_cases ends : item = newline
      · simp [lines, getline, ends]
      · cases rest with
        | nil => simp [lines, getline, ends]
        | cons next later =>
            rw [lines, if_neg ends, ih]
            simp [getline, ends]

/-- A line with its newline comes off the front of a text. -/
theorem lines_append_newline (whole : newline ∉ line) (rest : List α) :
    lines newline (line ++ newline :: rest) = line :: lines newline rest := by
  induction line with
  | nil => simp [lines]
  | cons item line ih =>
      have apart : item ≠ newline := fun same => whole (same ▸ List.mem_cons_self)
      have shorter := ih fun member => whole (List.mem_cons_of_mem _ member)
      rw [List.cons_append, lines, if_neg apart, shorter]

/-- A text without a newline is its only line, unless it is empty. -/
theorem lines_of_not_mem (whole : newline ∉ line) :
    lines newline line = if line = [] then [] else [line] := by
  induction line with
  | nil => rfl
  | cons item line ih =>
      have apart : item ≠ newline := fun same => whole (same ▸ List.mem_cons_self)
      have shorter := ih fun member => whole (List.mem_cons_of_mem _ member)
      rw [lines, if_neg apart, shorter]
      cases line <;> rfl

omit [DecidableEq α] in
theorem unlines_cons_cons (line next : List α) (each : List (List α)) :
    unlines newline ended (line :: next :: each) =
      line ++ newline :: unlines newline ended (next :: each) := by
  simp [unlines, List.intercalate_cons_cons]

/-- What a loop over the lines makes of lines laid out, if it skips blank ones. -/
theorem foldl_lines_unlines {step : State → List α → State} (skips : ∀ state, step state [] = state)
    (whole : ∀ line ∈ each, newline ∉ line) (state : State) :
    (lines newline (unlines newline ended each)).foldl step state = each.foldl step state := by
  induction each generalizing state with
  | nil => cases ended <;> simp [unlines, lines, skips]
  | cons line each ih =>
      have first := whole line List.mem_cons_self
      cases each with
      | nil =>
          cases ended with
          | true =>
              have laid : unlines newline true [line] = line ++ [newline] := by simp [unlines]
              rw [laid, lines_append_newline first]
              rfl
          | false =>
              have laid : unlines newline false [line] = line := by simp [unlines]
              rw [laid, lines_of_not_mem first]
              split
              · next blank => rw [blank, List.foldl_cons, skips]
              · rfl
      | cons next each =>
          rw [unlines_cons_cons, lines_append_newline first, List.foldl_cons,
            ih fun line member => whole line (List.mem_cons_of_mem _ member)]
          rfl

/-- Lines with their newlines come off the front of a text. -/
theorem lines_flatMap_append (whole : ∀ line ∈ each, newline ∉ line) (rest : List α) :
    lines newline (each.flatMap (· ++ [newline]) ++ rest) = each ++ lines newline rest := by
  induction each with
  | nil => rfl
  | cons line each ih =>
      have first := whole line List.mem_cons_self
      have later := ih fun line member => whole line (List.mem_cons_of_mem _ member)
      rw [List.flatMap_cons, List.append_assoc, List.append_assoc, List.singleton_append,
        lines_append_newline first, later]
      rfl

/-- Of lines that are still being written, a reader finds those whose newline has been
written, and at most one more, which may be cut. -/
theorem lines_of_prefix (whole : ∀ line ∈ each, newline ∉ line)
    (front : text <+: each.flatMap (· ++ [newline])) :
    ∃ cut, text.count newline ≤ each.length ∧
      lines newline text = each.take (text.count newline) ++ cut ∧ cut.length ≤ 1 ∧
      ∀ part ∈ cut, ∃ line, each[text.count newline]? = some line ∧ part <+: line := by
  induction each generalizing text with
  | nil =>
      rw [List.prefix_nil.mp front]
      exact ⟨[], Nat.le_refl _, rfl, Nat.zero_le _, nofun⟩
  | cons line each ih =>
      have first := whole line List.mem_cons_self
      have later := fun line member => whole line (List.mem_cons_of_mem _ member)
      rw [List.flatMap_cons] at front
      have lineFront : line ++ [newline] <+: line ++ [newline] ++ each.flatMap (· ++ [newline]) :=
        List.prefix_append _ _
      by_cases short : text.length ≤ line.length
      · -- The newline of the first line is still to come.
        have part : text <+: line := List.prefix_of_prefix_length_le front
          ((List.prefix_append _ _).trans lineFront) short
        have unended : newline ∉ text := fun member => first (part.subset member)
        rw [lines_of_not_mem unended, List.count_eq_zero.mpr unended]
        split
        · exact ⟨[], Nat.zero_le _, rfl, Nat.zero_le _, nofun⟩
        · refine ⟨[text], Nat.zero_le _, rfl, Nat.le_refl _, fun other member => ?_⟩
          rw [List.mem_singleton.mp member]
          exact ⟨line, rfl, part⟩
      · have long : (line ++ [newline]).length ≤ text.length := by
          rw [List.length_append]
          exact Nat.not_le.mp short
        obtain ⟨rest, rfl⟩ := List.prefix_of_prefix_length_le lineFront front long
        obtain ⟨cut, bound, found, one, partOf⟩ := ih later ((List.prefix_append_right_inj _).mp front)
        have counted : (line ++ [newline] ++ rest).count newline = rest.count newline + 1 := by
          rw [List.count_append, List.count_append, List.count_eq_zero.mpr first,
            List.count_singleton_self]
          omega
        rw [counted, List.append_assoc, List.singleton_append, lines_append_newline first, found]
        exact ⟨cut, Nat.succ_le_succ bound, rfl, one, partOf⟩

end MmoServer.Std
