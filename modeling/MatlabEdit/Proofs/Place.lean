import MatlabEdit.Indent.Layout
import MatlabEdit.Proofs.Strip

/-!
# Placing a line

What becomes of a line is one of three things, and each is an equation here: a line of
a comment is kept, a blank one is emptied, and any other is trimmed and placed at its
column. The result is again a list of lines (`reindent_eq`), with the endings of the
old ones and, but for the white space at their ends, with their texts.
-/

namespace MatlabEdit

theorem blockDelimiter?_eq_opening_iff {text : List Char} :
    blockDelimiter? text = some .opening ↔ trim text = ['%', '{'] := by
  unfold blockDelimiter?
  split <;> simp_all

theorem blockDelimiter?_eq_closing_iff {text : List Char} :
    blockDelimiter? text = some .closing ↔ trim text = ['%', '}'] := by
  unfold blockDelimiter?
  split <;> simp_all

namespace Layout

variable {config : IndentConfig} {layout : Layout} {line : Line}

theorem place_of_inComment (h : layout.inComment line = true) :
    layout.place config line = (.verbatim line,
      { layout with depth := depthAfter layout.depth (blockDelimiter? line.text) }) := by
  rw [place, if_pos h]

theorem place_of_blank (h : layout.inComment line = false) (hblank : trim line.text = []) :
    layout.place config line = (.blank line.ending, layout) := by
  rw [place, h, hblank]
  rfl

theorem place_of_text (h : layout.inComment line = false) (htext : trim line.text ≠ []) :
    layout.place config line =
      (.placed (layout.columnFor config (trim line.text)) (trim line.text) line.ending,
        { layout with
          previous := spaces (layout.columnFor config (trim line.text)) ++ trim line.text }) := by
  rw [place, h, if_neg Bool.false_ne_true]
  exact if_neg (by rwa [List.isEmpty_iff])

/-- What becomes of a line says whether it belongs to a comment. -/
theorem place_eq_verbatim_iff (config : IndentConfig) :
    (layout.place config line).1 = .verbatim line ↔ layout.inComment line = true := by
  cases h : layout.inComment line with
  | true => rw [place_of_inComment h]; simp
  | false =>
    by_cases hblank : trim line.text = []
    · rw [place_of_blank h hblank]; simp
    · rw [place_of_text h hblank]; simp

theorem depth_place_of_notComment (h : layout.inComment line = false) :
    (layout.place config line).2.depth = layout.depth := by
  by_cases hblank : trim line.text = []
  · rw [place_of_blank h hblank]
  · rw [place_of_text h hblank]

/-- Where no comment is open, a line belongs to one by opening it. -/
theorem inComment_iff_opening (h : layout.depth = 0) :
    layout.inComment line = true ↔ blockDelimiter? line.text = some .opening := by
  simp [inComment, h]

theorem inComment_of_depth_pos (h : 0 < layout.depth) : layout.inComment line = true := by
  simp [inComment, h]

end Layout

/-! ## The lines of the result -/

/-- A piece as a line of the result. -/
def Piece.line : Piece → Line
  | verbatim line => line
  | blank ending => ⟨[], ending⟩
  | placed column content ending => ⟨spaces column ++ content, ending⟩

theorem Piece.chars_line (piece : Piece) : piece.line.chars = piece.chars := by
  cases piece <;> rfl

namespace Layout

variable {config : IndentConfig} {layout : Layout} {line : Line}

theorem ending_place : (layout.place config line).1.line.ending = line.ending := by
  cases h : layout.inComment line with
  | true => rw [place_of_inComment h]; rfl
  | false =>
    by_cases hblank : trim line.text = []
    · rw [place_of_blank h hblank]; rfl
    · rw [place_of_text h hblank]; rfl

theorem trim_spaces_append (column : Column) (text : List Char) :
    trim (spaces column ++ text) = trim text := by
  rw [trim, trimStart_spaces_append]
  rfl

theorem trim_trim (text : List Char) : trim (trim text) = trim text := by
  have hstrip : strip isWhite ([] ++ trim text ++ []) = trim text :=
    strip_append (by simp) (by simp) (fun _ h => head?_strip h) (fun _ h => getLast?_strip h)
  rwa [List.append_nil] at hstrip

/-- A line is moved and cleared of white space, but what a trim leaves of it stays. -/
theorem trim_place : trim (layout.place config line).1.line.text = trim line.text := by
  cases h : layout.inComment line with
  | true => rw [place_of_inComment h]; rfl
  | false =>
    by_cases hblank : trim line.text = []
    · rw [place_of_blank h hblank, hblank]; rfl
    · rw [place_of_text h hblank]
      exact (trim_spaces_append _ _).trans (trim_trim _)

theorem mem_text_place {c : Char} (h : c ∈ (layout.place config line).1.line.text) :
    c ∈ line.text ∨ c = ' ' := by
  cases hin : layout.inComment line with
  | true =>
    rw [place_of_inComment hin] at h
    exact .inl h
  | false =>
    by_cases hblank : trim line.text = []
    · rw [place_of_blank hin hblank] at h
      exact absurd h List.not_mem_nil
    · rw [place_of_text hin hblank] at h
      rcases List.mem_append.mp h with h | h
      · exact .inr (List.mem_replicate.mp h).2
      · exact .inl (mem_of_mem_strip h)

theorem run_cons (layout : Layout) (config : IndentConfig) (line : Line) (rest : List Line) :
    (layout.run config (line :: rest)).1
      = (layout.place config line).1 :: ((layout.place config line).2.run config rest).1 := rfl

end Layout

theorem reindent_eq (config : IndentConfig) (text : String) :
    reindent config text = String.ofList
      (((Layout.start.run config (Line.split text.toList)).1.map Piece.line).flatMap
        Line.chars) := by
  unfold reindent layoutPieces
  rw [List.flatMap_map]
  simp only [Piece.chars_line]

end MatlabEdit
