import ValueNumbering.Pass.Basic
import ValueNumbering.Text.Lines

/-!
The pass that numbers each function and reports it: a header, a line for each record, and counts.
What it writes goes to the diagnostics of its host, or to a stream of its own where it has one.
-/

namespace ValueNumbering

/-- The stream of its own, if any, with the text so far, and the last function that was numbered in
full. -/
structure Reporting where
  stream : Option String := none
  last : Option (Function × Numbering) := none
  deriving Inhabited

namespace Reporting

def tally (m : Metrics) (n : Numbering) : Metrics :=
  let countOf (test : Record → Bool) : Int := n.records.countP test
  let isLoad (r : Record) : Bool := !r.instruction.isBinary && decide (r.instruction.opcode = .load)
  let isStore (r : Record) : Bool :=
    !r.instruction.isBinary && !decide (r.instruction.opcode = .load)
  (((((m.count "instructions_numbered" n.records.length).count "stores" (countOf isStore)).count
    "loads" (countOf isLoad)).count "binary_ops" (countOf (·.instruction.isBinary))).count
    "redundant" n.redundant.length).count "values_numbered" (n.knowledge.store.next - 1)

def message (fn : Function) (r : Record) : String :=
  let text := match r.instruction.written with
    | .ok text => text
    | .error _ => ""
  s!"@{fn.name}: '{text}' recomputes value {r.number}"

def record (m : Metrics) (fn : Function) (n : Numbering) : Metrics :=
  n.redundant.foldl (fun m r => m.addMessage (message fn r)) (tally m n)

def write (r : Reporting) (text : String) : Reporting × String :=
  match r.stream with
  | some written => ({ r with stream := some (written ++ text) }, "")
  | none => (r, text)

def visit (fn : Function) (config : PassConfig) (state : PassState Reporting) : Visit Reporting :=
  let metrics := state.metrics.getD {}
  let state := { state with metrics := some metrics }
  if config.isEnabled then
    match config.settings with
    | .error fault => { state := state, result := .error (.config fault) }
    | .ok settings =>
        let outcome := Numbering.ofFunction settings fn
        let text := Text.unlines (s!"ValueNumbering: {fn.name}" :: outcome.numbering.lines)
        let (own, diagnostics) := state.own.write text
        match outcome.fault with
        | some fault =>
            { state := { state with own := own }, diagnostics := diagnostics,
              result := .error (.numbering fault) }
        | none =>
            { state := { own := { own with last := some (fn, outcome.numbering) },
                         metrics := some (record metrics fn outcome.numbering) },
              diagnostics := diagnostics, result := .ok .all }
  else { state := state, result := .ok .all }

end Reporting

def reportingPass : Pass Reporting :=
  { name := "value-numbering", aliases := ["lvn"], visit := Reporting.visit }

end ValueNumbering
