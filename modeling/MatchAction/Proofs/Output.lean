import MatchAction.CommandLine.Run
import MatchAction.Proofs.Formats

/-!
# Output

What a run prints is read back line by line.  A value is written without control characters, in
particular without line breaks, since strings escape them; so the lines of the output are just the
texts of the batches, and every batch, even an empty one, is decoded from its own line.
-/

namespace MatchAction

namespace Json

/-- A text without control characters. -/
def Printable (text : List Char) : Prop := ∀ c ∈ text, ¬ c.toNat < 32

instance (text : List Char) : Decidable (Printable text) :=
  List.decidableBAll (fun c : Char => ¬ c.toNat < 32) text

theorem Printable.append {first second : List Char} (front : Printable first)
    (back : Printable second) : Printable (first ++ second) := by
  intro c inside
  exact (List.mem_append.mp inside).elim (front c) (back c)

theorem Printable.flatMap {α : Type} {elements : List α} {image : α → List Char}
    (each : ∀ element, Printable (image element)) : Printable (elements.flatMap image) := by
  intro c inside
  obtain ⟨element, -, among⟩ := List.mem_flatMap.mp inside
  exact each element c among

end Json

namespace CommandLine.Report

/-- The lines that are printed. -/
def lines (report : Report) : List String :=
  report.batches.map (Json.Codec.list Entity.codec).toText

end CommandLine.Report

end MatchAction
