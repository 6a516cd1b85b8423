import RegisterMachine.Proofs.Wrapping

/-! The layout of a line: its tokens, the separators around them and a comment after them. Every line is
laid out from exactly one list of tokens, and decoding sees only that list. -/

namespace RegisterMachine

open Text

namespace Instruction

def IsGap (gap : List Char) : Prop :=
  ∀ c ∈ gap, isSeparator c = true

instance (gap : List Char) : Decidable (IsGap gap) :=
  decidable_of_iff (gap.all isSeparator = true) List.all_eq_true

def IsToken (token : List Char) : Prop :=
  token ≠ [] ∧ ∀ c ∈ token, isSolid c = true

instance (token : List Char) : Decidable (IsToken token) :=
  decidable_of_iff (token ≠ [] ∧ token.all isSolid = true) (by rw [List.all_eq_true, IsToken])

/-- No comment, or a semicolon with any text after it. -/
def IsComment (text : List Char) : Prop :=
  text = [] ∨ ∃ rest, text = ';' :: rest

/-- The line has these tokens in this order, with separators between any two of them and perhaps before
the first and after the last, and then perhaps a comment. -/
inductive Laid : List (List Char) → List Char → Prop where
  | empty {gap comment : List Char} (run : IsGap gap) (ends : IsComment comment) :
      Laid [] (gap ++ comment)
  | tokens {before first after comment : List Char} {rest : List (List Char × List Char)}
      (starts : IsGap before) (between : ∀ link ∈ rest, link.1 ≠ [] ∧ IsGap link.1)
      (run : IsGap after) (ends : IsComment comment) :
      Laid (first :: rest.map Prod.snd)
        (before ++ (first ++ (rest.flatMap (fun link => link.1 ++ link.2) ++ (after ++ comment))))

theorem isSolid_of_gap {gap : List Char} (run : IsGap gap) {c : Char} (mem : c ∈ gap) :
    isSolid c = false := by
  simp [isSolid, run c mem]

theorem tokens_comment {comment : List Char} (ends : IsComment comment) : tokens comment = [] := by
  obtain rfl | ⟨rest, rfl⟩ := ends
  · rfl
  · rfl

section Layout

variable {after comment : List Char} {rest : List (List Char × List Char)}

theorem ends_of_rest (between : ∀ link ∈ rest, link.1 ≠ [] ∧ IsGap link.1) (run : IsGap after)
    (ends : IsComment comment) (c : Char)
    (next : (rest.flatMap (fun link => link.1 ++ link.2) ++ (after ++ comment)).head? = some c) :
    isSolid c = false := by
  cases rest with
  | cons link rest =>
    obtain ⟨gap, token⟩ := link
    obtain ⟨nonempty, gap_run⟩ := between _ List.mem_cons_self
    cases gap with
    | nil => exact (nonempty rfl).elim
    | cons d gap =>
      cases next
      exact isSolid_of_gap gap_run List.mem_cons_self
  | nil =>
    cases after with
    | cons d after =>
      cases next
      exact isSolid_of_gap run List.mem_cons_self
    | nil =>
      obtain rfl | ⟨text, rfl⟩ := ends
      · cases next
      · cases next
        rfl

theorem tokens_rest (between : ∀ link ∈ rest, link.1 ≠ [] ∧ IsGap link.1)
    (proper : ∀ link ∈ rest, IsToken link.2) (run : IsGap after) (ends : IsComment comment) :
    tokens (rest.flatMap (fun link => link.1 ++ link.2) ++ (after ++ comment)) =
      rest.map Prod.snd := by
  induction rest with
  | nil =>
    rw [List.flatMap_nil, List.nil_append, tokens_run run, tokens_comment ends, List.map_nil]
  | cons link rest ih =>
    have later : ∀ link ∈ rest, link.1 ≠ [] ∧ IsGap link.1 := fun link mem =>
      between link (List.mem_cons_of_mem _ mem)
    obtain ⟨nonempty, solid⟩ := proper link List.mem_cons_self
    rw [List.flatMap_cons, List.append_assoc, List.append_assoc,
      tokens_run (between link List.mem_cons_self).2,
      tokens_append_of_end solid nonempty (ends_of_rest later run ends),
      ih later fun link mem => proper link (List.mem_cons_of_mem _ mem), List.map_cons]

end Layout

theorem Laid.tokens_eq {ts : List (List Char)} {line : List Char} (laid : Laid ts line)
    (proper : ∀ t ∈ ts, IsToken t) : Instruction.tokens line = ts := by
  cases laid with
  | empty run ends => rw [tokens_run run, tokens_comment ends]
  | @tokens before first after comment rest starts between run ends =>
    obtain ⟨nonempty, solid⟩ := proper first List.mem_cons_self
    have others : ∀ link ∈ rest, IsToken link.2 := fun link mem =>
      proper link.2 (List.mem_cons_of_mem _ (List.mem_map_of_mem mem))
    rw [tokens_run starts, tokens_append_of_end solid nonempty (ends_of_rest between run ends),
      tokens_rest between others run ends]

theorem isGap_nil : IsGap [] := by
  intro c mem
  cases mem

theorem isGap_cons {c : Char} {gap : List Char} (separates : isSeparator c = true) (run : IsGap gap) :
    IsGap (c :: gap) := by
  intro d mem
  rcases List.mem_cons.mp mem with rfl | mem
  · exact separates
  · exact run d mem

theorem laid_nil : Laid [] [] :=
  @Laid.empty [] [] isGap_nil (.inl rfl)

theorem Laid.separator {ts : List (List Char)} {line : List Char} {c : Char} (laid : Laid ts line)
    (separates : isSeparator c = true) : Laid ts (c :: line) := by
  cases laid with
  | empty run ends => exact .empty (isGap_cons separates run) ends
  | tokens starts between run ends => exact .tokens (isGap_cons separates starts) between run ends

theorem Laid.solid {ts : List (List Char)} {line : List Char} {c : Char} (laid : Laid ts line)
    (proper : ∀ t ∈ ts, IsToken t) (solid : isSolid c = true) :
    ∃ ts, (∀ t ∈ ts, IsToken t) ∧ Laid ts (c :: line) := by
  have alone : IsToken [c] := ⟨by simp, by simpa using solid⟩
  cases laid with
  | @empty gap comment run ends =>
    refine ⟨[[c]], by simpa using alone, ?_⟩
    exact @Laid.tokens [] [c] gap comment [] isGap_nil (by simp) run ends
  | @tokens before first after comment rest starts between run ends =>
    cases before with
    | nil =>
      obtain ⟨-, first_solid⟩ := proper first List.mem_cons_self
      have longer : IsToken (c :: first) := ⟨by simp, by simpa using ⟨solid, first_solid⟩⟩
      refine ⟨(c :: first) :: rest.map Prod.snd, ?_, .tokens isGap_nil between run ends⟩
      intro t mem
      rcases List.mem_cons.mp mem with rfl | mem
      · exact longer
      · exact proper t (List.mem_cons_of_mem _ mem)
    | cons d before =>
      refine ⟨[c] :: first :: rest.map Prod.snd, ?_, ?_⟩
      · intro t mem
        rcases List.mem_cons.mp mem with rfl | mem
        · exact alone
        · exact proper t mem
      · have links : ∀ link ∈ (d :: before, first) :: rest, link.1 ≠ [] ∧ IsGap link.1 := by
          intro link mem
          rcases List.mem_cons.mp mem with rfl | mem
          · exact ⟨by simp, starts⟩
          · exact between link mem
        have laid := @Laid.tokens [] [c] after comment _ isGap_nil links run ends
        simpa using laid

theorem exists_laid (line : List Char) : ∃ ts, (∀ t ∈ ts, IsToken t) ∧ Laid ts line := by
  induction line with
  | nil => exact ⟨[], by simp, laid_nil⟩
  | cons c line ih =>
    obtain ⟨ts, proper, laid⟩ := ih
    cases separates : isSeparator c with
    | true => exact ⟨ts, proper, laid.separator separates⟩
    | false =>
      by_cases semicolon : c = ';'
      · subst semicolon
        exact ⟨[], by simp, @Laid.empty [] _ isGap_nil (.inr ⟨line, rfl⟩)⟩
      · exact laid.solid proper (by simp [isSolid, separates, semicolon])

def joined (ts : List (List Char)) : List Char :=
  [' '].intercalate ts

theorem joined_cons (first : List Char) (others : List (List Char)) :
    joined (first :: others) = first ++ others.flatMap (fun t => [' '] ++ t) := by
  induction others generalizing first with
  | nil => simp [joined, List.intercalate]
  | cons second others ih =>
    have step : joined (first :: second :: others) = first ++ ([' '] ++ joined (second :: others)) := by
      simp [joined, List.intercalate]
    rw [step, ih, List.flatMap_cons, List.append_assoc]

theorem laid_joined (ts : List (List Char)) : Laid ts (joined ts) := by
  cases ts with
  | nil => exact laid_nil
  | cons first others =>
    have links : ∀ link ∈ others.map (fun t => ([' '], t)), link.1 ≠ [] ∧ IsGap link.1 := by
      intro link mem
      obtain ⟨t, -, rfl⟩ := List.mem_map.mp mem
      exact ⟨by simp, isGap_cons rfl isGap_nil⟩
    have laid := @Laid.tokens [] first [] [] _ isGap_nil links isGap_nil (.inl rfl)
    rw [joined_cons]
    simpa [List.flatMap_map, Function.comp_def] using laid

end Instruction

end RegisterMachine
