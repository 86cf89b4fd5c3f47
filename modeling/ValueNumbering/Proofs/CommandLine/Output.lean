import ValueNumbering.Proofs.CommandLine.Inputs

/-!
What a host writes of the texts that are printed: all of them, or those before the first that it
cannot encode. A text in memory takes every one. A run whose passes succeed ends with code 0 where
everything that it prints is taken.
-/

namespace ValueNumbering.CommandLine

open Text (CodePoints)

variable {host : Host} {texts : List CodePoints}

def Host.Takes (host : Host) (text : CodePoints) : Prop := host.encodes = true → text.IsEncodable

theorem Host.takes_all_iff : (∀ text ∈ texts, host.Takes text) ↔
    (host.encodes = true → ∀ text ∈ texts, text.IsEncodable) :=
  ⟨fun taken encodes text member => taken text member encodes,
    fun taken text member encodes => taken encodes text member⟩

theorem Host.takes_iff {text : CodePoints} :
    (if host.encodes then Text.Utf8.encodingFault? text else none) = none ↔ host.Takes text := by
  cases encodes : host.encodes <;>
    simp [Host.Takes, encodes, Text.Utf8.encodingFault?_eq_none_iff]

inductive Host.Printed (host : Host) : List CodePoints → CodePoints × Option Text.Utf8.Fault → Prop
  | whole {texts : List CodePoints} (taken : ∀ text ∈ texts, host.Takes text) :
      Printed host texts (.unlines texts, none)
  | cut {before after : List CodePoints} {text : CodePoints} {fault : Text.Utf8.Fault}
      (taken : ∀ earlier ∈ before, host.Takes earlier) (refused : ¬host.Takes text)
      (isFault : Text.Utf8.encodingFault? text = some fault) :
      Printed host (before ++ text :: after) (.unlines before, some fault)

theorem Host.Printed.head {text : CodePoints} {fault : Text.Utf8.Fault} (refused : ¬host.Takes text)
    (isFault : Text.Utf8.encodingFault? text = some fault) :
    host.Printed (text :: texts) ("", some fault) := by
  have none : ∀ earlier ∈ ([] : List CodePoints), host.Takes earlier := by simp
  exact .cut none refused isFault

theorem Host.Printed.cons {text written : CodePoints} {fault : Option Text.Utf8.Fault}
    (taken : host.Takes text) (printed : host.Printed texts (written, fault)) :
    host.Printed (text :: texts) (text ++ "\n" ++ written, fault) := by
  cases printed with
  | whole others => exact .whole (List.forall_mem_cons.mpr ⟨taken, others⟩)
  | cut others refused isFault =>
      exact .cut (List.forall_mem_cons.mpr ⟨taken, others⟩) refused isFault

theorem Host.printed_print (host : Host) (texts : List CodePoints) :
    host.Printed texts (host.print texts) := by
  induction texts with
  | nil => exact .whole (by simp)
  | cons text rest ih =>
      rw [print]
      split
      · next fault isFault =>
          have refused : ¬host.Takes text := fun taken =>
            nomatch isFault.symm.trans (takes_iff.mpr taken)
          have encodes : host.encodes = true := by
            by_contra off
            exact refused fun on => absurd on off
          rw [if_pos encodes] at isFault
          exact .head refused isFault
      · next accepted => exact ih.cons (takes_iff.mp accepted)

theorem Host.print_eq_none_iff :
    (host.print texts).2 = none ↔ ∀ text ∈ texts, host.Takes text := by
  have printed := host.printed_print texts
  generalize host.print texts = answer at printed ⊢
  cases printed with
  | whole taken => exact ⟨fun _ => taken, fun _ => rfl⟩
  | cut taken refused isFault =>
      exact ⟨fun none => (nomatch none), fun all => absurd (all _ (by simp)) refused⟩

/-- The lines of a listing are taken everywhere, so that it depends on the others what is
written. -/
theorem Host.takes_listing_iff (lines : List String) :
    (∀ text ∈ lines.map CodePoints.ofString ++ texts, host.Takes text) ↔
      ∀ text ∈ texts, host.Takes text := by
  have listing : ∀ text ∈ lines.map CodePoints.ofString, host.Takes text :=
    List.forall_mem_map.mpr fun line _ _ => Text.isEncodable_ofString line
  rw [List.forall_mem_append]
  exact ⟨fun both => both.2, fun others => ⟨listing, others⟩⟩

/-- How a run ends that is prepared, and what it has written. -/
structure Executed (host : Host) (a : Arguments) (done : Execution Reporting) (outcome : Outcome) :
    Prop where
  completed : (∃ preserved, done.result = .ok preserved) →
    (∀ text ∈ done.printed, host.Takes text) → outcome.exit = .code 0
  refused : ¬(∀ text ∈ done.printed, host.Takes text) →
    ∃ fault, outcome.exit = .escaped (.encoding fault)
  failed : ¬(∃ preserved, done.result = .ok preserved) → ∃ fault, outcome.exit = .escaped fault
  diagnostics : outcome.diagnostics = done.diagnostics
  silent : a.printIR = false → done.printed = [] → outcome.output = ""

theorem executed (host : Host) (a : Arguments) (m : Manager Reporting) {module : Module}
    (complete : ∀ fn ∈ module.functions, ∀ inst ∈ fn.instructions, inst.Complete) :
    Executed host a (m.run module) (execute host a m module) := by
  obtain ⟨listing, listed⟩ := Module.exists_listing complete
  obtain ⟨lines, shown, unlisted⟩ : ∃ lines : List String,
      (if a.printIR then module.listing else .ok []) = .ok lines ∧
        (a.printIR = false → lines = []) := by
    cases a.printIR with
    | true => exact ⟨listing, listed, fun off => nomatch off⟩
    | false => exact ⟨[], rfl, fun _ => rfl⟩
  have taken : (host.print (lines.map .ofString ++ (m.run module).printed)).2 = none ↔
      ∀ text ∈ (m.run module).printed, host.Takes text :=
    Host.print_eq_none_iff.trans (host.takes_listing_iff lines)
  unfold execute
  simp only [shown]
  generalize written : host.print (lines.map .ofString ++ (m.run module).printed) =
    answer at taken ⊢
  obtain ⟨output, fault⟩ := answer
  constructor
  case completed =>
    rintro ⟨preserved, succeeded⟩ all
    obtain rfl : fault = none := taken.mpr all
    simp only [succeeded]
  case refused =>
    intro refused
    cases fault with
    | none => exact absurd (taken.mp rfl) refused
    | some fault => exact ⟨fault, rfl⟩
  case failed =>
    intro failed
    cases fault with
    | some fault => exact ⟨.encoding fault, rfl⟩
    | none =>
        cases ended : (m.run module).result with
        | ok preserved => exact absurd ⟨preserved, ended⟩ failed
        | error fault => exact ⟨.pass fault, rfl⟩
  case diagnostics => rfl
  case silent =>
    intro noIR noPrint
    rw [unlisted noIR, noPrint] at written
    exact (congrArg Prod.fst written).symm

end ValueNumbering.CommandLine
