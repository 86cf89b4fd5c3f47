import ValueNumbering.Proofs.Assembly.Refusals
import ValueNumbering.Proofs.CommandLine.Inputs

/-!
A text in a file and the same text in memory. The file is decoded and its carriage returns are
written as line feeds before it is read, which moves no line: the module is the same but for its
name, and what is refused is refused at the same line.
-/

namespace ValueNumbering

namespace Assembly

theorem Reader.finish_under (r : Reader) (name other : String) :
    r.finish other = (r.finish name).map fun m => { m with name := other } := by
  unfold finish
  cases r.draft with
  | none => rfl
  | some draft => rfl

theorem read_under (text name other : String) :
    read text other = (read text name).map fun m => { m with name := other } := by
  unfold read
  cases Reader.readLines {} (contentLines text.toList) with
  | error fault => rfl
  | ok r => exact r.finish_under name other

end Assembly

namespace CommandLine

variable {host : Host} {path text : String}

theorem readText_utf8Bytes (held : host.read path = .ok (Text.utf8Bytes text)) :
    readText host path = .ok (Text.plainNewlines text.toList) := by
  rw [readText, held]
  exact Request.decodeText_utf8Bytes text

/-- A file that holds the bytes of a text is read as the text is: as the same module under the name
of the file, or with the same fault at the same line. -/
theorem file_read_as_text
    (held : host.read (String.ofList (Files.Path.normalize path.toList)) =
      .ok (Text.utf8Bytes text))
    (name : String) :
    readModule host path = liftFault .assembly ((Assembly.read text name).map fun m =>
      { m with name := String.ofList (Files.Path.name path.toList) }) := by
  have sameLines (other : String) :
  Assembly.read (String.ofList (Text.plainNewlines text.toList)) other =
  Assembly.read text other := by
    rw [Assembly.read_plainNewlines, String.ofList_toList]
  calc readModule host path
    _ = liftFault .assembly (Assembly.read (String.ofList (Text.plainNewlines text.toList))
          (String.ofList (Files.Path.name path.toList))) := by
        simp only [readModule, readText_utf8Bytes held, bind, Except.bind]
    _ = liftFault .assembly (Assembly.read text (String.ofList (Files.Path.name path.toList))) := by
      rw [sameLines]
    _ = _ := by rw [Assembly.read_under text name]

/-- A text with a boundary of nearly every kind between its lines, the ninth of which is given. -/
def mixedBoundaries (ninth : String) : String :=
  "; sums\r\r\n\u2028define i32 @f(i32 %x) \x7b\r  %a = add i32 %x, 1\x85\x0b  %b = add i32 %x, 2\u2029\x0c" ++ ninth ++ "\r\n\x7d\r"

def mixedHost (ninth : String) : Host :=
  { read := fun path =>
      if path = "sums/mixed.ll" then .ok (Text.utf8Bytes (mixedBoundaries ninth))
      else .error .notFound }

theorem mixedBoundaries_read_as_text :
    (mixedHost "  ret i32 %a").read
      (String.ofList (Files.Path.normalize ".//sums/./mixed.ll".toList)) =
        .ok (Text.utf8Bytes (mixedBoundaries "  ret i32 %a")) ∧
      (∃ m, Assembly.read (mixedBoundaries "  ret i32 %a") "a text" = .ok m ∧
        readModule (mixedHost "  ret i32 %a") ".//sums/./mixed.ll" =
          .ok { m with name := "mixed.ll" }) ∧
    (mixedHost "  %a = add i32 %b, 3").read
      (String.ofList (Files.Path.normalize ".//sums/./mixed.ll".toList)) =
        .ok (Text.utf8Bytes (mixedBoundaries "  %a = add i32 %b, 3")) ∧
      readModule (mixedHost "  %a = add i32 %b, 3") ".//sums/./mixed.ll" =
        .error (.assembly (.refused 9 (.redefinedValue "a"))) := by
  have held (ninth : String) : (mixedHost ninth).read
      (String.ofList (Files.Path.normalize ".//sums/./mixed.ll".toList)) =
      .ok (Text.utf8Bytes (mixedBoundaries ninth)) := by
    rfl
  refine ⟨held _, ?accepted, held _, ?refused⟩
  case accepted =>
    have isRead : (Assembly.read (mixedBoundaries "  ret i32 %a") "a text").toOption.isSome =
        true := by decide +kernel
    obtain ⟨m, isRead⟩ := Option.isSome_iff_exists.mp isRead
    have accepted := Assembly.ok_of_toOption isRead
    refine ⟨m, accepted, ?_⟩
    rw [file_read_as_text (held _) "a text", accepted]
    rfl
  case refused =>
    have refused : Assembly.read (mixedBoundaries "  %a = add i32 %b, 3") "a text" =
        .error (.refused 9 (.redefinedValue "a")) :=
      Assembly.error_of_fault? (by decide +kernel)
    rw [file_read_as_text (held _) "a text", refused]
    rfl

end CommandLine

end ValueNumbering
