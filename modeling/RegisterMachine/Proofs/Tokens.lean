import RegisterMachine.Instruction.Decoding

/-! Cutting, trimming and splitting a text into tokens: what comes out has no delimiters left in it,
and a text that is put together from tokens comes apart into them again. -/

namespace RegisterMachine

namespace Text

section Cut

variable {σ : Type} {delimiter? : Char → Option σ}

theorem cut_append {plain : List Char} (none_in : ∀ c ∈ plain, delimiter? c = none)
    (text : List Char) :
    cut delimiter? (plain ++ text) =
      (plain ++ (cut delimiter? text).1, (cut delimiter? text).2) := by
  induction plain with
  | nil => rfl
  | cons c plain ih =>
    have rest := ih fun d mem => none_in d (List.mem_cons_of_mem c mem)
    rw [List.cons_append, cut_cons, none_in c List.mem_cons_self, rest]
    rfl

theorem cut_of_plain {plain : List Char} (none_in : ∀ c ∈ plain, delimiter? c = none) :
    cut delimiter? plain = (plain, []) := by
  have whole := cut_append none_in []
  simpa only [List.append_nil, cut_nil] using whole

theorem cut_delimiter {c : Char} {s : σ} (delimits : delimiter? c = some s) (text : List Char) :
    cut delimiter? (c :: text) = ([], (s, (cut delimiter? text).1) :: (cut delimiter? text).2) := by
  rw [cut_cons, delimits]

theorem plain_of_cut (delimiter? : Char → Option σ) (text : List Char) :
    (∀ c ∈ (cut delimiter? text).1, delimiter? c = none) ∧
      ∀ piece ∈ (cut delimiter? text).2, ∀ c ∈ piece.2, delimiter? c = none := by
  induction text with
  | nil => simp
  | cons c text ih =>
    rw [cut_cons]
    cases delimits : delimiter? c with
    | some s =>
      refine ⟨by simp, ?_⟩
      intro piece mem
      rcases List.mem_cons.mp mem with rfl | mem
      · exact ih.1
      · exact ih.2 piece mem
    | none =>
      refine ⟨?_, ih.2⟩
      intro d mem
      rcases List.mem_cons.mp mem with rfl | mem
      · exact delimits
      · exact ih.1 d mem

theorem empty_of_adjacent {c d : Char} {s t : σ} (first : delimiter? c = some s)
    (second : delimiter? d = some t) (before after : List Char) :
    (s, []) ∈ (cut delimiter? (before ++ c :: d :: after)).2 := by
  induction before with
  | nil => simp [cut_delimiter first, cut_delimiter second]
  | cons b before ih =>
    rw [List.cons_append, cut_cons]
    cases delimiter? b with
    | some u => exact List.mem_cons_of_mem _ ih
    | none => exact ih

theorem pieces_of_plain {p : Char → Bool} {plain : List Char} (none_in : ∀ c ∈ plain, p c = false) :
    pieces p plain = [plain] := by
  rw [pieces, cut_of_plain fun c mem => by simp [none_in c mem]]
  rfl

theorem pieces_append {p : Char → Bool} {plain : List Char} {c : Char}
    (none_in : ∀ c ∈ plain, p c = false) (delimits : p c = true) (text : List Char) :
    pieces p (plain ++ c :: text) = plain :: pieces p text := by
  rw [pieces, cut_append fun c mem => by simp [none_in c mem], cut_cons]
  simp [delimits, pieces]

end Cut

theorem trim_eq_self {text : List Char} (solid : ∀ c ∈ text, isBlank c = false) :
    trim text = text := by
  have front : text.dropWhile isBlank = text := by
    cases text with
    | nil => rfl
    | cons c rest => simp [solid c List.mem_cons_self]
  have back : text.reverse.dropWhile isBlank = text.reverse := by
    cases same : text.reverse with
    | nil => rfl
    | cons c rest =>
      have mem : c ∈ text := by
        rw [← List.mem_reverse, same]
        exact List.mem_cons_self
      simp [solid c mem]
  rw [trim, front, back, List.reverse_reverse]

theorem mem_of_mem_trim {text : List Char} {c : Char} (mem : c ∈ trim text) : c ∈ text := by
  have back := (List.dropWhile_sublist isBlank).mem (List.mem_reverse.mp mem)
  exact (List.dropWhile_sublist isBlank).mem (List.mem_reverse.mp back)

end Text

namespace Instruction

open Text

def isSolid (c : Char) : Bool :=
  !isSeparator c && c != ';'

theorem isBlank_of_isSolid {c : Char} (solid : isSolid c = true) : isBlank c = false := by
  cases blank : isBlank c with
  | false => rfl
  | true => simp [isSolid, isSeparator, blank] at solid

variable {token rest : List Char} {c : Char}

theorem isSeparator_of_isSolid (solid : isSolid c = true) : isSeparator c = false := by
  simp only [isSolid, Bool.and_eq_true, Bool.not_eq_true'] at solid
  exact solid.1

theorem takeWhile_solid (solid : ∀ c ∈ token, isSolid c = true) (rest : List Char) :
    (token ++ rest).takeWhile (· != ';') = token ++ rest.takeWhile (· != ';') := by
  refine List.takeWhile_append_of_pos fun c mem => ?_
  have here := solid c mem
  simp only [isSolid, Bool.and_eq_true] at here
  exact here.2

theorem tokens_token (solid : ∀ c ∈ token, isSolid c = true) (nonempty : token ≠ []) :
    tokens token = [token] := by
  have apart : ∀ c ∈ token, isSeparator c = false := fun c mem =>
    isSeparator_of_isSolid (solid c mem)
  have kept := takeWhile_solid solid []
  rw [List.append_nil, List.takeWhile_nil, List.append_nil] at kept
  rw [tokens, kept, pieces_of_plain apart]
  simp [nonempty]

theorem tokens_cut (solid : ∀ c ∈ token, isSolid c = true) (separates : isSeparator c = true)
    (rest : List Char) :
    tokens (token ++ c :: rest) = [token].filter (!·.isEmpty) ++ tokens rest := by
  have apart : ∀ c ∈ token, isSeparator c = false := fun c mem =>
    isSeparator_of_isSolid (solid c mem)
  have kept : (c != ';') = true := by
    rw [bne_iff_ne]
    rintro rfl
    cases separates
  rw [tokens, takeWhile_solid solid, List.takeWhile_cons, kept, if_pos rfl,
    pieces_append apart separates, tokens, ← List.filter_append]
  rfl

theorem tokens_separator (separates : isSeparator c = true) (rest : List Char) :
    tokens (c :: rest) = tokens rest := by
  have none_in : ∀ c ∈ ([] : List Char), isSolid c = true := by simp
  exact tokens_cut none_in separates rest

theorem tokens_run {gap : List Char} (run : ∀ c ∈ gap, isSeparator c = true) (rest : List Char) :
    tokens (gap ++ rest) = tokens rest := by
  induction gap with
  | nil => rfl
  | cons c gap ih =>
    rw [List.cons_append, tokens_separator (run c List.mem_cons_self)]
    exact ih fun d mem => run d (List.mem_cons_of_mem c mem)

theorem tokens_append (solid : ∀ c ∈ token, isSolid c = true) (nonempty : token ≠ [])
    (separates : isSeparator c = true) (rest : List Char) :
    tokens (token ++ c :: rest) = token :: tokens rest := by
  rw [tokens_cut solid separates]
  simp [nonempty]

end Instruction

end RegisterMachine
