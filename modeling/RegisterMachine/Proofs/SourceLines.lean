import RegisterMachine.Program
import RegisterMachine.Proofs.Tokens

/-! Lines of a text. Each line feed ends a line, so that no line has one in it, and texts that are put
together line by line come apart into these lines again, whichever end each line has. So the lines of a
program keep their addresses. -/

namespace RegisterMachine

inductive LineEnd where
  | feed
  | returnFeed
  deriving DecidableEq, Repr

def LineEnd.text : LineEnd → String
  | .feed => "\n"
  | .returnFeed => "\r\n"

namespace Text

variable {line rest text : List Char}

theorem pieces_ne_nil (p : Char → Bool) (text : List Char) : pieces p text ≠ [] := by
  simp [pieces]

theorem plain_of_pieces {p : Char → Bool} {piece : List Char} (mem : piece ∈ pieces p text) :
    ∀ c ∈ piece, p c = false := by
  have plain := plain_of_cut (fun c => if p c then some () else none) text
  rw [pieces] at mem
  generalize cut (fun c => if p c then some () else none) text = parts at plain mem
  rcases List.mem_cons.mp mem with rfl | mem
  · simpa using plain.1
  · obtain ⟨part, from_cut, rfl⟩ := List.mem_map.mp mem
    simpa using plain.2 part from_cut

theorem mem_of_mem_dropReturn {c : Char} (mem : c ∈ dropReturn line) : c ∈ line := by
  rw [dropReturn] at mem
  split at mem
  · exact (List.dropLast_sublist line).mem mem
  · exact mem

theorem dropReturn_eq_self (open_end : line.getLast? ≠ some '\r') : dropReturn line = line :=
  if_neg open_end

theorem no_feed_of_notMem (plain : '\n' ∉ line) : ∀ c ∈ line, (c == '\n') = false := by
  intro c mem
  rw [beq_eq_false_iff_ne]
  rintro rfl
  exact plain mem

theorem lines_append (plain : '\n' ∉ line) (rest : List Char) :
    lines (line ++ '\n' :: rest) = dropReturn line :: lines rest := by
  have cut : pieces (· == '\n') (line ++ '\n' :: rest) = line :: pieces (· == '\n') rest :=
    pieces_append (no_feed_of_notMem plain) rfl rest
  obtain ⟨first, others, rest_cut⟩ := List.exists_cons_of_ne_nil (pieces_ne_nil (· == '\n') rest)
  simp [lines, cut, rest_cut]

theorem newline_notMem_of_mem_lines (mem : line ∈ lines text) : '\n' ∉ line := by
  have plain {piece : List Char} (found : piece ∈ pieces (· == '\n') text) : '\n' ∉ piece := by
    intro newline
    have differs := plain_of_pieces found '\n' newline
    cases differs
  rw [lines] at mem
  rcases List.mem_append.mp mem with mem | mem
  · obtain ⟨piece, found, rfl⟩ := List.mem_map.mp mem
    exact fun newline => plain ((List.dropLast_sublist _).mem found) (mem_of_mem_dropReturn newline)
  · obtain ⟨last, -⟩ := Option.filter_eq_some_iff.mp (Option.mem_toList.mp mem)
    exact plain (List.mem_of_getLast? last)

theorem dropReturn_eq_self_iff : dropReturn line = line ↔ line.getLast? ≠ some '\r' := by
  refine ⟨fun same ends => ?_, dropReturn_eq_self⟩
  have shorter : line.length - 1 = line.length := by
    rw [dropReturn, if_pos ends] at same
    rw [← List.length_dropLast, same]
  have empty : line = [] := List.length_eq_zero_iff.mp (by omega)
  simp [empty] at ends

theorem dropReturn_concat (line : List Char) : dropReturn (line ++ ['\r']) = line := by
  simp [dropReturn]

/-- What is left of a row that is ended so: a line feed takes a carriage return before it along. -/
def leave (row : List Char) : LineEnd → List Char
  | .feed => dropReturn row
  | .returnFeed => row

theorem leave_eq_self (open_end : line.getLast? ≠ some '\r') (ending : LineEnd) :
    leave line ending = line := by
  cases ending with
  | feed => exact dropReturn_eq_self open_end
  | returnFeed => rfl

theorem lines_row (plain : '\n' ∉ line) (ending : LineEnd) (rest : List Char) :
    lines (line ++ (ending.text.toList ++ rest)) = leave line ending :: lines rest := by
  cases ending with
  | feed => exact lines_append plain rest
  | returnFeed =>
    have inside : '\n' ∉ line ++ ['\r'] := by simp [plain]
    have split := lines_append inside rest
    rwa [dropReturn_concat, List.append_assoc] at split

theorem lines_unended (plain : '\n' ∉ line) (filled : line ≠ []) : lines line = [line] := by
  have one : pieces (· == '\n') line = [line] := pieces_of_plain (no_feed_of_notMem plain)
  simp [lines, one, filled]

theorem lines_rows {rows : List (List Char × LineEnd)} (plain : ∀ row ∈ rows, '\n' ∉ row.1)
    (rest : List Char) :
    lines (rows.flatMap (fun row => row.1 ++ row.2.text.toList) ++ rest) =
      rows.map (fun row => leave row.1 row.2) ++ lines rest := by
  induction rows with
  | nil => rfl
  | cons row rows ih =>
    have others := ih fun other mem => plain other (List.mem_cons_of_mem row mem)
    rw [List.flatMap_cons, List.append_assoc, List.append_assoc,
      lines_row (plain row List.mem_cons_self), others]
    rfl

theorem lines_fed {rows : List (List Char)} (plain : ∀ row ∈ rows, '\n' ∉ row) :
    lines (rows.flatMap (· ++ ['\n'])) = rows.map dropReturn := by
  have inside : ∀ row ∈ rows.map (·, LineEnd.feed), '\n' ∉ row.1 := by simpa using plain
  have empty : lines [] = [] := rfl
  simpa [List.flatMap_map, Function.comp_def, LineEnd.text, leave, empty] using lines_rows inside []

theorem map_dropReturn_eq_self_iff {rows : List (List Char)} :
    rows.map dropReturn = rows ↔ ∀ row ∈ rows, row.getLast? ≠ some '\r' := by
  calc rows.map dropReturn = rows
      ↔ rows.map dropReturn = rows.map id := by rw [List.map_id]
    _ ↔ ∀ row ∈ rows, row.getLast? ≠ some '\r' := by
      simp only [List.map_inj_left, id_eq, dropReturn_eq_self_iff]

theorem lines_of_rows {rows : List (List Char)}
    (plain : ∀ row ∈ rows, '\n' ∉ row ∧ row.getLast? ≠ some '\r') :
    lines (rows.flatMap (· ++ ['\n'])) = rows := by
  rw [lines_fed fun row mem => (plain row mem).1]
  exact map_dropReturn_eq_self_iff.mpr fun row mem => (plain row mem).2

end Text

namespace Program

theorem lines_ofSource (source : String) :
    (ofSource source).lines.toList = (Text.lines source.toList).map String.ofList := by
  simp [ofSource]

theorem newline_notMem_of_mem {source line : String} (mem : line ∈ (ofSource source).lines.toList) :
    '\n' ∉ line.toList := by
  rw [lines_ofSource] at mem
  obtain ⟨row, found, rfl⟩ := List.mem_map.mp mem
  rw [String.toList_ofList]
  exact Text.newline_notMem_of_mem_lines found

theorem newline_notMem_of_line? {source text : String} {n : Nat}
    (found : (ofSource source).line? n = some text) : '\n' ∉ text.toList := by
  rw [line?] at found
  split at found
  · cases found
  · exact newline_notMem_of_mem (Array.mem_of_getElem? found).val

/-- A text with no line feed in it that does not end in a carriage return. -/
def IsLine (line : String) : Prop :=
  '\n' ∉ line.toList ∧ line.toList.getLast? ≠ some '\r'

instance (line : String) : Decidable (IsLine line) :=
  inferInstanceAs (Decidable (_ ∧ _))

/-- The text of these lines with their ends, and of a last line without one. -/
def join (rows : List (String × LineEnd)) (unended : Option String) : String :=
  String.join (rows.map fun row => row.1 ++ row.2.text) ++ unended.getD ""

theorem toList_join (rows : List (String × LineEnd)) (unended : Option String) :
    (join rows unended).toList =
      (rows.map fun row => (row.1.toList, row.2)).flatMap
        (fun row => row.1 ++ row.2.text.toList) ++ (unended.getD "").toList := by
  simp [join, String.toList_join, List.flatMap_map]

theorem lines_join {rows : List (String × LineEnd)} {unended : Option String}
    (plain : ∀ line ∈ rows.map Prod.fst ++ unended.toList, IsLine line)
    (filled : unended ≠ some "") :
    (ofSource (join rows unended)).lines.toList = rows.map Prod.fst ++ unended.toList := by
  have each (row : String × LineEnd) (mem : row ∈ rows) : IsLine row.1 :=
    plain row.1 (List.mem_append_left _ (List.mem_map_of_mem mem))
  have inside : ∀ row ∈ rows.map (fun row => (row.1.toList, row.2)), '\n' ∉ row.1 := by
    intro row mem
    obtain ⟨row, found, rfl⟩ := List.mem_map.mp mem
    exact (each row found).1
  have kept (row : String × LineEnd) (mem : row ∈ rows) :
      String.ofList (Text.leave row.1.toList row.2) = row.1 := by
    rw [Text.leave_eq_self (each row mem).2, String.ofList_toList]
  have last : (Text.lines (unended.getD "").toList).map String.ofList = unended.toList := by
    cases unended with
    | none => rfl
    | some line =>
      have alone := plain line (by simp)
      have nonempty : line.toList ≠ [] := by
        intro empty
        exact filled (congrArg some (String.toList_eq_nil_iff.mp empty))
      rw [Option.getD_some, Text.lines_unended alone.1 nonempty]
      simp
  rw [lines_ofSource, toList_join, Text.lines_rows inside, List.map_append, last, List.map_map,
    List.map_map]
  exact congrArg (· ++ unended.toList) (List.map_congr_left kept)

theorem line?_of_lines {p : Program} {lines : List String} (same : p.lines.toList = lines) (pc : Nat) :
    p.line? pc =
      if inside : 1 ≤ pc ∧ pc ≤ lines.length then some (lines.get ⟨pc - 1, by omega⟩) else none := by
  subst same
  rw [line?]
  by_cases first : pc = 0
  · simp [first]
  · by_cases bound : pc ≤ p.lines.toList.length
    · have found : pc - 1 < p.lines.size := by
        rw [Array.length_toList] at bound
        omega
      rw [if_neg first, dif_pos ⟨by omega, bound⟩, Array.getElem?_eq_getElem found]
      rfl
    · rw [if_neg first, dif_neg fun inside => bound inside.2]
      rw [Array.length_toList] at bound
      exact Array.getElem?_eq_none (by omega)

theorem lines_join_feeds_iff (source : String) :
    let lines := (ofSource source).lines.toList
    (ofSource (join (lines.map (·, .feed)) none)).lines.toList = lines ↔
      ∀ line ∈ lines, line.toList.getLast? ≠ some '\r' := by
  intro lines
  let rows := Text.lines source.toList
  have of_rows : lines = rows.map String.ofList := lines_ofSource source
  have plain : ∀ row ∈ rows, '\n' ∉ row := fun row => Text.newline_notMem_of_mem_lines
  have text : (join (lines.map (·, .feed)) none).toList = rows.flatMap (· ++ ['\n']) := by
    rw [toList_join, of_rows]
    simp [List.flatMap_map, LineEnd.text]
  have injective : Function.Injective String.ofList := fun _ _ => String.ofList_injective
  rw [lines_ofSource, text, Text.lines_fed plain, of_rows, List.map_inj_right injective]
  simp [Text.map_dropReturn_eq_self_iff]

/-- Put together from lines with any ends, a text has exactly these lines, each at its address; only a
last line with nothing on it needs an end. The lines of any text have no line feed in them, and joined
by line feeds they come apart into the same lines exactly if none ends in a carriage return. -/
theorem source_lines_keep_addresses :
    (∀ (rows : List (String × LineEnd)) (unended : Option String),
      let lines := rows.map Prod.fst ++ unended.toList
      (∀ line ∈ lines, IsLine line) → unended ≠ some "" →
        let p := ofSource (join rows unended)
        p.lines.toList = lines ∧
        (∀ pc (inside : 1 ≤ pc ∧ pc ≤ lines.length),
          p.line? pc = some (lines.get ⟨pc - 1, by omega⟩)) ∧
        ∀ pc, ¬(1 ≤ pc ∧ pc ≤ lines.length) → p.line? pc = none) ∧
    ∀ source : String,
      let lines := (ofSource source).lines.toList
      (∀ line ∈ lines, '\n' ∉ line.toList) ∧
      ((ofSource (join (lines.map (·, .feed)) none)).lines.toList = lines ↔
        ∀ line ∈ lines, line.toList.getLast? ≠ some '\r') := by
  constructor
  · intro rows unended lines plain filled p
    have same : p.lines.toList = lines := lines_join plain filled
    have found := line?_of_lines same
    refine ⟨same, fun pc inside => ?_, fun pc outside => ?_⟩
    · rw [found, dif_pos inside]
    · rw [found, dif_neg outside]
  · intro source lines
    exact ⟨fun line => newline_notMem_of_mem, lines_join_feeds_iff source⟩

theorem source_lines_keep_addresses_of_mixed_ends :
    (∀ line ∈ ["", "A\rB", "", "END"], IsLine line) ∧
    join [("", .returnFeed), ("A\rB", .feed), ("", .returnFeed)] (some "END") =
      "\r\nA\rB\n\r\nEND" ∧
    (ofSource "\r\nA\rB\n\r\nEND").lines.toList = ["", "A\rB", "", "END"] ∧
    (ofSource "\r\nA\rB\n\r\nEND").line? 4 = some "END" ∧
    (ofSource "\r\nA\rB\n\r\nEND").line? 0 = none ∧
    (ofSource "\r\nA\rB\n\r\nEND").line? 5 = none ∧
    (ofSource "A\r\r\n").lines.toList = ["A\r"] ∧
    (ofSource (join [("A\r", .feed)] none)).lines.toList ≠ ["A\r"] := by
  have plain : ∀ line ∈ ["", "A\rB", "", "END"], IsLine line := by decide
  have text : join [("", .returnFeed), ("A\rB", .feed), ("", .returnFeed)] (some "END") =
      "\r\nA\rB\n\r\nEND" := by rfl
  obtain ⟨lines, inside, outside⟩ := source_lines_keep_addresses.1
    [("", .returnFeed), ("A\rB", .feed), ("", .returnFeed)] (some "END") plain (by decide)
  rw [text] at lines inside outside
  have returned : (ofSource "A\r\r\n").lines.toList = ["A\r"] := by rfl
  have resplit := (source_lines_keep_addresses.2 "A\r\r\n").2
  rw [returned] at resplit
  refine ⟨plain, text, lines, inside 4 (by decide), outside 0 (by decide), outside 5 (by decide),
    returned, fun same => ?_⟩
  exact resplit.mp same "A\r" List.mem_cons_self (by rfl)

end Program

end RegisterMachine
