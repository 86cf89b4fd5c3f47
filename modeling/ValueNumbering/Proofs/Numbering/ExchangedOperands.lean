import ValueNumbering.Proofs.Numbering.SideBySide

/-!
The order of operands that commute. A function with the operands of some such instructions exchanged
has the same instructions redundant and as many numbers, and its records are those of the function
under a permutation of the numbers.
-/

namespace ValueNumbering

def Block.exchange (exchanges : Instruction → Bool) (block : Block) : Block :=
  { block with instructions := block.instructions.map fun inst => inst.exchange (exchanges inst) }

def Function.exchange (exchanges : Instruction → Bool) (fn : Function) : Function :=
  { fn with blocks := fn.blocks.map (·.exchange exchanges) }

theorem Function.instructions_exchange (exchanges : Instruction → Bool) (fn : Function) :
    (fn.exchange exchanges).instructions = fn.instructions.map fun inst =>
      inst.exchange (exchanges inst) := by
  unfold instructions exchange
  rw [List.flatMap_map, List.map_flatMap]
  rfl

namespace Numbering

/-- Two runs over instructions that differ in the order of operands. The numbers of the second are
those of the first under a permutation, in the order of the operands of the second. -/
structure SameUpToOrder (exchanges : Instruction → Bool) (o o' : Outcome) : Prop where
  fault : o'.fault = o.fault
  next : o'.numbering.knowledge.store.next = o.numbering.knowledge.store.next
  redundant : o'.numbering.records.map (·.redundant) = o.numbering.records.map (·.redundant)
  permuted : ∃ p : Int → Int, Set.BijOn p o.numbering.given o.numbering.given ∧
    List.Forall₂ (fun r r' => r.Renumbered p (r'.exchange (exchanges r.instruction)))
      o.numbering.records o'.numbering.records

/-- The order of operands that commute matters to nothing but which number stands for which
value. -/
theorem operand_order_permutes_numbers (settings : Settings) (fn : Function)
    (exchanges : Instruction → Bool)
    (commutes : ∀ inst ∈ fn.instructions, exchanges inst = true → inst.opcode.isCommutative = true)
    (finished : (ofFunction settings fn).fault = none) :
    SameUpToOrder exchanges (ofFunction settings fn)
      (ofFunction settings (fn.exchange exchanges)) := by
  obtain ⟨finished', -, p, renumbers, faithful⟩ :=
    exists_renumbers_of_finished rfl (fn.instructions_exchange exchanges) commutes
    Term.isReading_id (fun v => .refl _) finished
  have kept := faithful fun same => same
  have sameNumbers : (ofFunction settings (fn.exchange exchanges)).numbering.given =
      (ofFunction settings fn).numbering.given := by
    rw [given, given, kept.next]
  have mapsTo := renumbers.mapsTo
  have surjOn := renumbers.surjOn
  rw [sameNumbers] at mapsTo surjOn
  exact ⟨finished'.trans finished.symm, kept.next, kept.redundant, p, ⟨mapsTo, kept.injOn, surjOn⟩,
    renumbers.records⟩

end Numbering

def sumsAroundDifference : Function :=
  let x : Operand := ⟨"i32", ⟨0, .argument "x" "i32"⟩⟩
  let y : Operand := ⟨"i32", ⟨1, .argument "y" "i32"⟩⟩
  let first : Instruction := { id := 2, opcode := .add, operands := [x, y], name := some "a" }
  let difference : Instruction :=
    { id := 3, opcode := .sub, operands := [first.operand, x], name := some "b" }
  let second : Instruction := { id := 4, opcode := .add, operands := [y, x], name := some "c" }
  { name := "sums", blocks := [⟨"entry", [first, difference, second]⟩] }

/-- With the operands of the first sum exchanged the arguments exchange their numbers, and the
second sum remains redundant. -/
theorem sumsAroundDifference_exchanged :
    Numbering.SameUpToOrder (fun inst => inst.id == 2)
      (Numbering.ofFunction {} sumsAroundDifference)
        (Numbering.ofFunction {} (sumsAroundDifference.exchange fun inst => inst.id == 2)) ∧
      (Numbering.ofFunction {} sumsAroundDifference).numbering.records.map (·.operands) =
        [[some 1, some 2], [some 3, some 1], [some 2, some 1]] ∧
      (Numbering.ofFunction {} (sumsAroundDifference.exchange fun inst =>
        inst.id == 2)).numbering.records.map (·.operands) =
        [[some 1, some 2], [some 3, some 2], [some 1, some 2]] :=
  ⟨Numbering.operand_order_permutes_numbers {} sumsAroundDifference _ (by decide) (by decide),
    by decide, by decide⟩

end ValueNumbering
