import Mathlib.Data.List.Basic

/-!
# Formats that read back what they lay out

A format lays values out as cells and reads a value of a given shape from the front
of some cells. Its two laws say that each undoes the other; they carry over to
sequences of values, whose layout is that of the values one after the other.
-/

namespace MmoServer.Std

/-- A format: what may be encoded, and the two laws that decoding obeys. -/
structure WireFormat (Cell Shape Value : Type) where
  shape : Value → Shape
  /-- The values that the format can lay out. -/
  Admits : Value → Prop
  encode : Value → List Cell
  decode : Shape → List Cell → Option (Value × List Cell)
  decode_encode : ∀ {value}, Admits value → ∀ rest,
    decode (shape value) (encode value ++ rest) = some (value, rest)
  of_decode : ∀ {expected cells value rest}, decode expected cells = some (value, rest) →
    shape value = expected ∧ Admits value ∧ cells = encode value ++ rest

namespace WireFormat

variable {Cell Shape Value : Type} (format : WireFormat Cell Shape Value) {values : List Value}
  {shapes : List Shape} {cells rest : List Cell}

/-- The values one after the other. -/
def encodeAll (values : List Value) : List Cell := values.flatMap format.encode

/-- Values of some shapes, one after the other. -/
def decodeAll : List Shape → List Cell → Option (List Value × List Cell)
  | [], cells => some ([], cells)
  | shape :: shapes, cells =>
    (format.decode shape cells).bind fun (value, rest) =>
      (decodeAll shapes rest).map fun (values, last) => (value :: values, last)

@[simp] theorem encodeAll_cons (value : Value) (values : List Value) :
    format.encodeAll (value :: values) = format.encode value ++ format.encodeAll values :=
  List.flatMap_cons

/-- A value of a known shape is told from what follows it. -/
theorem encode_append_inj {value other : Value} {rest last : List Cell}
    (admitted : format.Admits value) (admittedToo : format.Admits other)
    (shape : format.shape value = format.shape other)
    (same : format.encode value ++ rest = format.encode other ++ last) :
    value = other ∧ rest = last := by
  have read := format.decode_encode admitted rest
  rw [shape, same, format.decode_encode admittedToo last, Option.some.injEq, Prod.mk.injEq] at read
  exact ⟨read.1.symm, read.2.symm⟩

/-- What was laid out is read back, and what follows it is left. -/
theorem decodeAll_encodeAll (admitted : ∀ value ∈ values, format.Admits value) (rest : List Cell) :
    format.decodeAll (values.map format.shape) (format.encodeAll values ++ rest) =
      some (values, rest) := by
  induction values with
  | nil => rfl
  | cons value values ih =>
      have first := admitted value List.mem_cons_self
      have later := ih fun other member => admitted other (List.mem_cons_of_mem _ member)
      rw [List.map_cons, encodeAll_cons, List.append_assoc, decodeAll, format.decode_encode first]
      dsimp only [Option.bind_some]
      rw [later]
      rfl

/-- What is read is what the values that were read are laid out as. -/
theorem of_decodeAll (read : format.decodeAll shapes cells = some (values, rest)) :
    values.map format.shape = shapes ∧ (∀ value ∈ values, format.Admits value) ∧
      cells = format.encodeAll values ++ rest := by
  induction shapes generalizing cells values with
  | nil =>
      cases read
      exact ⟨rfl, fun value member => absurd member List.not_mem_nil, rfl⟩
  | cons shape shapes ih =>
      rw [decodeAll, Option.bind_eq_some_iff] at read
      obtain ⟨⟨value, middle⟩, first, read⟩ := read
      obtain ⟨⟨others, last⟩, later, same⟩ := Option.map_eq_some_iff.mp read
      cases same
      obtain ⟨rfl, admitted, rfl⟩ := format.of_decode first
      obtain ⟨rfl, others_admitted, rfl⟩ := ih later
      refine ⟨rfl, ?_, ?_⟩
      · intro other member
        rcases List.mem_cons.mp member with rfl | behind
        · exact admitted
        · exact others_admitted other behind
      · rw [encodeAll_cons, List.append_assoc]

end WireFormat
end MmoServer.Std
