import ValueNumbering.Proofs.Assembly.SingleAssignment
import ValueNumbering.Proofs.CommandLine.Requests
import ValueNumbering.Proofs.Text.Encoding

/-!
The input of a run: the bytes of a text, on the standard input or in a file. An accepted text gives
its module under the name of the input, and every function of it can be numbered and listed in full.
-/

namespace ValueNumbering

namespace Assembly

theorem read_plainNewlines (text : List Char) (name : String) :
    read (String.ofList (Text.plainNewlines text)) name = read (String.ofList text) name := by
  have same : contentLines (Text.plainNewlines text) = contentLines text := by
    rw [contentLines, contentLines, Text.numberedLines, Text.numberedLines,
      Text.lines_plainNewlines]
  rw [read, read, String.toList_ofList, String.toList_ofList, same]

theorem read_named {text name : String} {m : Module} (accepted : read text name = .ok m)
    (other : String) :
    read text other = .ok { m with name := other } := by
  obtain ⟨r, readLines, finished⟩ := bind_eq_ok.mp accepted
  refine bind_eq_ok.mpr ⟨r, readLines, ?_⟩
  unfold Reader.finish at finished ⊢
  split at finished
  · cases finished
  · cases finished
    rfl

theorem complete_of_read {text name : String} {m : Module} (accepted : read text name = .ok m) :
    ∀ fn ∈ m.functions, ∀ inst ∈ fn.instructions, inst.Complete := by
  obtain ⟨objects, made⟩ := made_of_read accepted
  exact fun fn isFunction inst isInstruction => made.complete isFunction isInstruction

end Assembly

section Listing

theorem Block.exists_listing {block : Block}
    (complete : ∀ inst ∈ block.instructions, inst.Complete) :
    ∃ lines, block.listing = .ok lines := by
  have each : ∀ inst ∈ block.instructions, ∃ text, inst.written = .ok text := by
    intro inst member
    obtain ⟨text, kept⟩ := (complete inst member).text
    exact ⟨text, by rw [Instruction.written, kept]⟩
  obtain ⟨body, written⟩ := exists_mapM each
  exact ⟨_, by rw [Block.listing, written]; rfl⟩

theorem Block.exists_listings {blocks : List Block}
    (complete : ∀ block ∈ blocks, ∀ inst ∈ block.instructions, inst.Complete) :
    ∃ lines, Block.listings blocks = .ok lines := by
  induction blocks with
  | nil => exact ⟨[], rfl⟩
  | cons block rest ih =>
      obtain ⟨here, later⟩ := List.forall_mem_cons.mp complete
      obtain ⟨first, listed⟩ := Block.exists_listing here
      obtain ⟨others, more⟩ := ih later
      cases rest with
      | nil => exact ⟨first, listed⟩
      | cons next blocks => exact ⟨_, by rw [Block.listings.eq_3 _ _ (by simp), listed, more]; rfl⟩

theorem Function.exists_listing {fn : Function}
    (complete : ∀ inst ∈ fn.instructions, inst.Complete) :
    ∃ lines, fn.listing = .ok lines := by
  obtain ⟨body, listed⟩ := Block.exists_listings fun block member inst inside =>
    complete inst (List.mem_flatMap.mpr ⟨block, member, inside⟩)
  unfold Function.listing
  split
  · exact ⟨_, rfl⟩
  · exact ⟨_, by rw [listed]; rfl⟩

theorem Module.exists_listing {m : Module}
    (complete : ∀ fn ∈ m.functions, ∀ inst ∈ fn.instructions, inst.Complete) :
    ∃ lines, m.listing = .ok lines := by
  have each : ∀ fn ∈ m.functions, ∃ lines,
      (do let body ← fn.listing; return "" :: body) = Except.ok lines := by
    intro fn member
    obtain ⟨body, listed⟩ := Function.exists_listing (complete fn member)
    exact ⟨"" :: body, by rw [listed]; rfl⟩
  obtain ⟨functions, listed⟩ := exists_mapM each
  exact ⟨_, by rw [Module.listing, listed]; rfl⟩

end Listing

namespace CommandLine

namespace Request

/-- The input of a request is a text: what the host has on its standard input, or in the file that
is named. -/
def IsInput (host : Host) (r : Request) (text : String) : Prop :=
  if r.input = "-" then host.input = Text.utf8Bytes text
  else host.read (String.ofList (Files.Path.normalize r.input.toList)) = .ok (Text.utf8Bytes text)

variable {host : Host} {r : Request} {text : String} {m : Module}

theorem decodeText_utf8Bytes (text : String) :
    decodeText (Text.utf8Bytes text) = .ok (Text.plainNewlines text.toList) := by
  rw [decodeText, Text.Utf8.decode_utf8Bytes]
  rfl

theorem read_decoded (accepted : Assembly.read text = .ok m) (name : String) :
    Assembly.read (String.ofList (Text.plainNewlines text.toList)) name =
      .ok { m with name := name } := by
  rw [Assembly.read_plainNewlines, String.ofList_toList]
  exact Assembly.read_named accepted name

theorem IsInput.readInput (isInput : r.IsInput host text) (accepted : Assembly.read text = .ok m) :
    ∃ name, readInput host r.input = .ok { m with name := name } := by
  unfold IsInput at isInput
  unfold CommandLine.readInput
  split at isInput
  · next standard =>
      refine ⟨"<stdin>", ?_⟩
      rw [if_pos standard, isInput, decodeText_utf8Bytes]
      simp only [bind, Except.bind, liftFault, read_decoded accepted]
  · next named =>
      refine ⟨String.ofList (Files.Path.name r.input.toList), ?_⟩
      rw [if_neg named, readModule, readText, isInput]
      simp only [bind, Except.bind, liftFault, decodeText_utf8Bytes, read_decoded accepted]

end Request

end CommandLine

end ValueNumbering
