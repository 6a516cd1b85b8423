import RegisterMachine.Proofs.Spelling

/-! The terms of operands: numerals that fit a word, and the names of registers. Without a sign in it, a
piece is read exactly if it is a term, and what is no term is reported as a number or as a register. -/

namespace RegisterMachine

open Text

namespace Text

def IsDigits (text : List Char) : Prop :=
  text ≠ [] ∧ ∀ c ∈ text, c.isDigit = true

/-- Digits with at most one sign before them, and the number they stand for. -/
inductive Numeral : List Char → Int → Prop where
  | unsigned {digits : List Char} (run : IsDigits digits) :
      Numeral digits (Nat.ofDigitChars 10 digits 0)
  | plus {digits : List Char} (run : IsDigits digits) :
      Numeral ('+' :: digits) (Nat.ofDigitChars 10 digits 0)
  | minus {digits : List Char} (run : IsDigits digits) :
      Numeral ('-' :: digits) (-Nat.ofDigitChars 10 digits 0)

inductive Padded (text : List Char) : List Char → Prop where
  | blanks {before after : List Char} (front : ∀ c ∈ before, isBlank c = true)
      (back : ∀ c ∈ after, isBlank c = true) : Padded text (before ++ (text ++ after))

end Text

/-- A literal is written in digits, a register by its name in any case. -/
inductive Term.Spelled : List Char → Term → Prop where
  | literal {digits : List Char} (run : IsDigits digits)
      (bound : Nat.ofDigitChars 10 digits 0 ≤ 2147483647) :
      Spelled digits (.literal (Int32.ofNat (Nat.ofDigitChars 10 digits 0)))
  | register {name : List Char} {r : Register} (same : upper name = r.name.toList) :
      Spelled name (.register r)

inductive Term.Offence (piece : List Char) : DecodeError → Prop where
  | number (digits : ∀ c ∈ piece, c.isDigit = true) :
      Offence piece (.invalidNumber (String.ofList piece))
  | register (other : ∃ c ∈ piece, c.isDigit = false) :
      Offence piece (.unknownRegister (String.ofList piece))

namespace Text.Decimal

theorem map_nat?_eq_some_iff {digits : List Char} {f : Nat → Int} {n : Int} :
    (nat? digits).map f = some n ↔ IsDigits digits ∧ f (Nat.ofDigitChars 10 digits 0) = n := by
  rw [Option.map_eq_some_iff]
  constructor
  · rintro ⟨k, run, rfl⟩
    obtain ⟨nonempty, each, rfl⟩ := nat?_eq_some_iff.mp run
    exact ⟨⟨nonempty, each⟩, rfl⟩
  · rintro ⟨⟨nonempty, each⟩, rfl⟩
    exact ⟨_, nat?_eq_some_iff.mpr ⟨nonempty, each, rfl⟩, rfl⟩

theorem int?_eq_some_iff {text : List Char} {n : Int} : int? text = some n ↔ Numeral text n := by
  constructor
  · intro found
    unfold int? at found
    split at found
    · obtain ⟨run, rfl⟩ := map_nat?_eq_some_iff.mp found
      exact .plus run
    · obtain ⟨run, rfl⟩ := map_nat?_eq_some_iff.mp found
      exact .minus run
    · obtain ⟨run, rfl⟩ := map_nat?_eq_some_iff.mp found
      exact .unsigned run
  · intro numeral
    cases numeral with
    | unsigned run =>
      rw [int?_of_digits run.2]
      exact map_nat?_eq_some_iff.mpr ⟨run, rfl⟩
    | plus run => exact map_nat?_eq_some_iff.mpr ⟨run, rfl⟩
    | minus run => exact map_nat?_eq_some_iff.mpr ⟨run, rfl⟩

end Text.Decimal

theorem Word.read?_eq_some_iff {text : List Char} {w : Word} :
    read? text = some w ↔
      ∃ n, Numeral text n ∧ (-2147483648 ≤ n ∧ n ≤ 2147483647) ∧ Int32.ofInt n = w := by
  constructor
  · intro found
    rw [read?] at found
    split at found
    · rename_i n numeral
      split at found
      · rename_i bounds
        cases found
        exact ⟨n, Decimal.int?_eq_some_iff.mp numeral, bounds, rfl⟩
      · cases found
    · cases found
  · rintro ⟨n, numeral, bounds, rfl⟩
    rw [read?, Decimal.int?_eq_some_iff.mpr numeral]
    exact if_pos bounds

theorem Register.find?_eq_some_iff {name : List Char} {r : Register} :
    find? name = some r ↔ upper name = r.name.toList := by
  constructor
  · intro found
    have same := List.find?_some found
    rw [decide_eq_true_eq] at same
    rw [same, String.toList_ofList]
    rfl
  · intro same
    have named : String.ofList (name.map Char.toUpper) = r.name := by
      rw [← upper, same, String.ofList_toList]
    rw [find?, named]
    cases r <;> rfl

theorem Register.isAlpha_of_upper {r : Register} {name : List Char}
    (same : upper name = r.name.toList) : ∀ c ∈ name, c.isAlpha = true := by
  have letters : ∀ c ∈ r.name.toList, c.isAlpha = true := List.all_eq_true.mp (by cases r <;> rfl)
  intro c mem
  rw [← Char.isAlpha_toUpper_eq_isAlpha]
  refine letters _ ?_
  rw [← same]
  exact List.mem_map_of_mem mem

namespace Term

variable {piece : List Char} {t : Term}

theorem Spelled.isAlphanum (term : Spelled piece t) : ∀ c ∈ piece, c.isAlphanum = true := by
  intro c mem
  cases term with
  | literal run => simp [Char.isAlphanum, run.2 c mem]
  | register same => exact isAlphanum_of_isAlpha (Register.isAlpha_of_upper same c mem)

theorem Spelled.ne_nil (term : Spelled piece t) : piece ≠ [] := by
  cases term with
  | literal run => exact run.1
  | @register r same =>
    rintro rfl
    cases r <;> cases same

theorem spelled_of_read? {w : Word} (found : Word.read? piece = some w)
    (plain : ∀ c ∈ piece, Sign.ofChar? c = none) : Spelled piece (.literal w) := by
  obtain ⟨n, numeral, ⟨-, high⟩, rfl⟩ := Word.read?_eq_some_iff.mp found
  cases numeral with
  | unsigned run =>
    rw [Int32.ofInt_eq_ofNat]
    exact .literal run (by omega)
  | plus run => cases plain '+' List.mem_cons_self
  | minus run => cases plain '-' List.mem_cons_self

theorem read_of_spelled (term : Spelled piece t) : Term.read piece = .ok t := by
  cases term with
  | literal run bound =>
    have found : Word.read? piece = some (Int32.ofNat (Nat.ofDigitChars 10 piece 0)) :=
      Word.read?_eq_some_iff.mpr ⟨_, .unsigned run, by omega, Int32.ofInt_eq_ofNat⟩
    rw [Term.read, found]
  | @register r same =>
    have number : Word.read? piece = none := by
      cases found : Word.read? piece with
      | none => rfl
      | some w =>
        have others := Word.isAlpha_of_read? found
        have letters := Register.isAlpha_of_upper same
        obtain ⟨c, rest, rfl⟩ := List.exists_cons_of_ne_nil (Spelled.register same).ne_nil
        have letter := letters c List.mem_cons_self
        rw [others c List.mem_cons_self] at letter
        cases letter
    rw [Term.read, number, Register.find?_eq_some_iff.mpr same]

theorem read_eq_ok_iff (plain : ∀ c ∈ piece, Sign.ofChar? c = none) :
    Term.read piece = .ok t ↔ Spelled piece t := by
  refine ⟨fun found => ?_, read_of_spelled⟩
  unfold Term.read at found
  split at found
  · rename_i w number
    cases found
    exact spelled_of_read? number plain
  · split at found
    · rename_i r name
      cases found
      exact .register (Register.find?_eq_some_iff.mp name)
    · split at found <;> cases found

theorem read_eq_error_iff (plain : ∀ c ∈ piece, Sign.ofChar? c = none) {e : DecodeError} :
    Term.read piece = .error e ↔ (¬∃ t, Spelled piece t) ∧ Offence piece e := by
  constructor
  · intro refused
    have strange : ¬∃ t, Spelled piece t := by
      rintro ⟨t, term⟩
      rw [read_of_spelled term] at refused
      cases refused
    refine ⟨strange, ?_⟩
    unfold Term.read at refused
    split at refused
    · cases refused
    · split at refused
      · cases refused
      · split at refused
        · rename_i digits
          cases refused
          exact .number (List.all_eq_true.mp digits)
        · rename_i other
          cases refused
          exact .register (by simpa using other)
  · rintro ⟨strange, offence⟩
    have number : Word.read? piece = none :=
      Option.eq_none_iff_forall_ne_some.mpr fun w found => strange ⟨_, spelled_of_read? found plain⟩
    have name : Register.find? piece = none :=
      Option.eq_none_iff_forall_ne_some.mpr fun r found =>
        strange ⟨_, .register (Register.find?_eq_some_iff.mp found)⟩
    rw [Term.read, number, name]
    cases offence with
    | number digits => exact if_pos (List.all_eq_true.mpr digits)
    | register other => exact if_neg (by simpa using other)

end Term

namespace Text

variable {before text after whole : List Char}

theorem padded_trim (text : List Char) : Padded (trim text) text := by
  have front : ∀ c ∈ text.takeWhile isBlank, isBlank c = true := fun c => List.mem_takeWhile_imp
  have back : ∀ c ∈ ((text.dropWhile isBlank).reverse.takeWhile isBlank).reverse,
      isBlank c = true := fun c mem => List.mem_takeWhile_imp (List.mem_reverse.mp mem)
  have padded := @Padded.blanks (trim text) _ _ front back
  rwa [trim, ← List.reverse_append, List.takeWhile_append_dropWhile, List.reverse_reverse,
    List.takeWhile_append_dropWhile] at padded

theorem dropWhile_blanks (front : ∀ c ∈ before, isBlank c = true)
    (next : ∀ c, text.head? = some c → isBlank c = false) :
    (before ++ text).dropWhile isBlank = text := by
  rw [List.dropWhile_append_of_pos front]
  cases text with
  | nil => rfl
  | cons c text => exact List.dropWhile_cons_of_neg (by simp [next c rfl])

theorem Padded.trim_eq (padded : Padded text whole) (solid : ∀ c ∈ text, isBlank c = false)
    (nonempty : text ≠ []) : trim whole = text := by
  obtain ⟨front, back⟩ := padded
  rename_i before after
  have first (c : Char) (head : (text ++ after).head? = some c) : isBlank c = false := by
    rw [List.head?_append_of_ne_nil _ nonempty] at head
    exact solid c (List.mem_of_mem_head? head)
  have last (c : Char) (head : text.reverse.head? = some c) : isBlank c = false :=
    solid c (List.mem_reverse.mp (List.mem_of_mem_head? head))
  have back : ∀ c ∈ after.reverse, isBlank c = true := fun c mem => back c (List.mem_reverse.mp mem)
  rw [trim, dropWhile_blanks front first, List.reverse_append, dropWhile_blanks back last,
    List.reverse_reverse]

end Text

theorem Sign.char_of_ofChar? {c : Char} {s : Sign} (found : Sign.ofChar? c = some s) : s.char = c := by
  unfold ofChar? at found
  split at found <;> cases found <;> rfl

theorem Sign.ofChar?_eq_none_of_isBlank {c : Char} (blank : isBlank c = true) :
    Sign.ofChar? c = none := by
  unfold ofChar?
  split
  · cases blank
  · cases blank
  · rfl

theorem Term.Spelled.plain {text piece : List Char} {t : Term} (term : Spelled text t)
    (padded : Padded text piece) : ∀ c ∈ piece, Sign.ofChar? c = none := by
  obtain ⟨front, back⟩ := padded
  intro c mem
  simp only [List.mem_append] at mem
  rcases mem with mem | mem | mem
  · exact Sign.ofChar?_eq_none_of_isBlank (front c mem)
  · exact Sign.ofChar?_eq_none (term.isAlphanum c mem)
  · exact Sign.ofChar?_eq_none_of_isBlank (back c mem)

theorem Term.Spelled.trim_eq {text piece : List Char} {t : Term} (term : Spelled text t)
    (padded : Padded text piece) : trim piece = text :=
  padded.trim_eq (fun c mem => Instruction.isBlank_of_isSolid
    (isSolid_of_isAlphanum (term.isAlphanum c mem))) term.ne_nil

end RegisterMachine
