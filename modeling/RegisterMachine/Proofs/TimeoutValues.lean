import RegisterMachine.Command.Session
import RegisterMachine.Proofs.CommandLines

/-! The timeout of a run may go without its value, so that the argument after it is either the value or
the file. Which of them it is depends on nothing but whether it is a number, in whatever order the
arguments come and wherever the window is set between them. -/

namespace RegisterMachine

namespace Text

inductive Unsigned : List Char → Nat → Prop where
  | digits {digits : List Char} (run : IsDigits digits) :
      Unsigned digits (Nat.ofDigitChars 10 digits 0)
  | plus {digits : List Char} (run : IsDigits digits) :
      Unsigned ('+' :: digits) (Nat.ofDigitChars 10 digits 0)

theorem Decimal.nat?_eq_some_iff_isDigits {text : List Char} {n : Nat} :
    nat? text = some n ↔ IsDigits text ∧ Nat.ofDigitChars 10 text 0 = n := by
  rw [nat?_eq_some_iff, IsDigits, and_assoc]
  rfl

theorem Unsigned.head?_ne {text : List Char} {n : Nat} (number : Unsigned text n) :
    text.head? ≠ some '-' := by
  cases number with
  | digits run =>
    intro dash
    have digit := run.2 '-' (List.mem_of_mem_head? dash)
    cases digit
  | plus run => simp

theorem Decimal.natUpTo?_eq_some_iff {bound n : Nat} {text : List Char} :
    natUpTo? bound text = some n ↔ Unsigned text n ∧ n ≤ bound := by
  unfold natUpTo?
  rw [Option.filter_eq_some_iff, decide_eq_true_eq, nat?_eq_some_iff_isDigits]
  refine and_congr_left fun _ => ?_
  split
  · rename_i rest
    constructor
    · rintro ⟨run, rfl⟩
      exact .plus run
    · intro number
      cases number with
      | digits run => cases run.2 '+' List.mem_cons_self
      | plus run => exact ⟨run, rfl⟩
  · rename_i unsigned
    constructor
    · rintro ⟨run, rfl⟩
      exact .digits run
    · intro number
      cases number with
      | digits run => exact ⟨run, rfl⟩
      | plus run => exact (unsigned _ rfl).elim

end Text

namespace Command

open Text

/-- An argument that can be the name of a file: it is not empty and does not begin with a dash. -/
def IsName (arg : String) : Prop :=
  arg ≠ "" ∧ arg.toList.head? ≠ some '-'

instance (arg : String) : Decidable (IsName arg) :=
  inferInstanceAs (Decidable (_ ∧ _))

namespace RunOptions

section Orders

variable {flag file value : String} (named : flag = "-t" ∨ flag = "--timeout") (name : IsName file)
  (given : IsValue value)

theorem setFile_of_isName {o : RunOptions} (name : IsName file) (absent : o.file = none) :
    o.setFile file = .ok { o with file := some file } := by
  have added : addFile o.file file = .ok file := by rw [absent]; exact if_neg name.1
  exact setFile_eq_ok_iff.mpr ⟨file, added, rfl⟩

include named given in
theorem reads_value : Reads {} none [flag, value] { timeout := some (some value) } :=
  .timeout named rfl (.value given rfl (.done rfl))

include name in
theorem reads_file_bare :
    Reads {} none [file, "-t"] { file := some file, timeout := some none } :=
  .file (.inr name.2) (setFile_of_isName name rfl) (.timeout (.inl rfl) rfl (.done rfl))

include name in
theorem reads_bare_escape_file :
    Reads {} none ["-t", "--", file] { file := some file, timeout := some none } := by
  refine .timeout (.inl rfl) rfl (.escape rfl ?_)
  rw [List.foldlM_cons, setFile_of_isName name rfl]
  rfl

include name given in
theorem reads_value_file :
    Reads {} none ["-t", value, file] { file := some file, timeout := some (some value) } :=
  .timeout (.inl rfl) rfl
    (.value given rfl (.file (.inr name.2) (setFile_of_isName name rfl) (.done rfl)))

include name given in
theorem reads_file_value :
    Reads {} none [file, "-t", value] { file := some file, timeout := some (some value) } :=
  .file (.inr name.2) (setFile_of_isName name rfl)
    (.timeout (.inl rfl) rfl (.value given rfl (.done rfl)))

include name in
theorem reads_assignment_file (value : String) :
    Reads {} none ["--timeout=" ++ value, file]
      { file := some file, timeout := some (some value) } :=
  show Reads {} none [Valued.timeout.assignment value, file] _ from
    .assignment rfl rfl (.file (.inr name.2) (setFile_of_isName name rfl) (.done rfl))

end Orders

end RunOptions

/-- The command line asks for a run of this file, for this long, in the window that is set or else from
800 to 1000. -/
def Resolves (args : List String) (file : String) (milliseconds : Nat)
    (edges : Edge → Option Word) : Prop :=
  ∃ options, Request.read ("run" :: args) = .ok (.run options) ∧
    options.job = .ok {
      file, budget := some (.ofMilliseconds milliseconds)
      base := (edges .base).getD 800
      top := (edges .top).getD 1000 }

/-- Whatever the files, the command line is answered with this error. -/
def Rejected (args : List String) (message : String) : Prop :=
  ∃ request, Request.read ("run" :: args) = .ok request ∧
    ∀ read clock fuel, request.report read clock fuel =
      some ⟨1, .empty, ("error: " ++ message ++ "\n").toUTF8⟩

theorem read_run {args : List String} {o : RunOptions} (reads : RunOptions.Reads {} none args o) :
    Request.read ("run" :: args) = .ok (.run o) := by
  have form : Argument.ofString "run" = .word "run" := by rfl
  unfold Request.read readArguments
  simp only [form, reads.read_eq]
  rfl

section Answers

variable {plain args : List String} {edges : Edge → Option Word} {o : RunOptions}
  (reads : RunOptions.Reads {} none plain o) (unset : ∀ e, o.edge e = none)
  (widened : Widened plain edges args)
include reads unset widened

theorem resolves_of_target {file : String} {milliseconds : Nat}
    (target : o.target = .ok (file, some (.ofMilliseconds milliseconds))) :
    Resolves args file milliseconds edges := by
  refine ⟨_, read_run (reads.widened unset widened), ?_⟩
  have same : RunOptions.target { o with base := edges .base, top := edges .top } = o.target := rfl
  rw [RunOptions.job, same, target]
  rfl

theorem rejected_of_target {error : JobError} (target : o.target = .error error) :
    Rejected args error.message := by
  refine ⟨_, read_run (reads.widened unset widened), fun read clock fuel => ?_⟩
  have same : RunOptions.target { o with base := edges .base, top := edges .top } = o.target := rfl
  rw [Request.report, RunOptions.job, same, target]
  rfl

end Answers

namespace RunOptions

variable {file value : String} {n : Nat}

theorem target_of_number (number : Unsigned value.toList n) (bound : n ≤ 18446744073709551615)
    (file : Option String) :
    target { file, timeout := some (some value) } =
      target.withFile file (some (.ofMilliseconds n)) := by
  have read : Decimal.natUpTo? maxMilliseconds value.toList = some n :=
    Decimal.natUpTo?_eq_some_iff.mpr ⟨number, bound⟩
  simp only [target, read]

theorem target_of_no_number
    (noNumber : ∀ k, Unsigned value.toList k → 18446744073709551615 < k) (file : Option String) :
    target { file, timeout := some (some value) } =
      match file with
      | none => .ok (value, some (.ofMilliseconds 5000))
      | some _ => .error (.invalidTimeout value) := by
  have unread : Decimal.natUpTo? maxMilliseconds value.toList = none := by
    refine Option.eq_none_iff_forall_ne_some.mpr fun k read => ?_
    obtain ⟨number, bound⟩ := Decimal.natUpTo?_eq_some_iff.mp read
    exact Nat.not_lt.mpr bound (noNumber k number)
  simp only [target, unread]
  cases file <;> rfl

end RunOptions

/-- The value of a timeout never changes which file is run. A file that is no number is run with the
time of 5000 milliseconds wherever the timeout stands, also in the place of its value; with a number
it is run for that time. No number and another file are refused, and so is a number without a file. In
all of these, the ends of the window may be set in any gap between the arguments. -/
theorem timeout_value_keeps_file {p q m : String} {n : Nat} (name : IsName p)
    (noNumber : ∀ k, Unsigned p.toList k → 18446744073709551615 < k) (other : IsName q)
    (number : Unsigned m.toList n) (bound : n ≤ 18446744073709551615)
    (edges : Edge → Option Word) (args : List String) :
    (∀ plain ∈ [["-t", p], ["--timeout", p], [p, "-t"], ["-t", "--", p]],
      Widened plain edges args → Resolves args p 5000 edges) ∧
    (∀ plain ∈ [["-t", m, p], [p, "-t", m], ["--timeout=" ++ m, p]],
      Widened plain edges args → Resolves args p n edges) ∧
    (∀ plain ∈ [["-t", p, q], [q, "-t", p]],
      Widened plain edges args → Rejected args ("invalid timeout '" ++ p ++ "'")) ∧
    (Widened ["-t", m] edges args → Rejected args "run requires an input file") := by
  have pValue : IsValue p := .inr name.2
  have mValue : IsValue m := .inr number.head?_ne
  have unset (file : Option String) (timeout : Option (Option String)) (e : Edge) :
      RunOptions.edge { file, timeout } e = none := by
    cases e <;> rfl
  have invalid : "invalid timeout '" ++ p ++ "'" = (JobError.invalidTimeout p).message := by rfl
  have missing : "run requires an input file" = JobError.missingFile.message := by rfl
  rw [invalid, missing]
  simp only [List.forall_mem_cons, List.not_mem_nil, false_imp_iff, implies_true, and_true]
  refine ⟨⟨fun widened => ?_, fun widened => ?_, fun widened => ?_, fun widened => ?_⟩,
    ⟨fun widened => ?_, fun widened => ?_, fun widened => ?_⟩,
    ⟨fun widened => ?_, fun widened => ?_⟩, fun widened => ?_⟩
  · exact resolves_of_target (RunOptions.reads_value (.inl rfl) pValue) (unset _ _) widened
      (RunOptions.target_of_no_number noNumber none)
  · exact resolves_of_target (RunOptions.reads_value (.inr rfl) pValue) (unset _ _) widened
      (RunOptions.target_of_no_number noNumber none)
  · exact resolves_of_target (RunOptions.reads_file_bare name) (unset _ _) widened rfl
  · exact resolves_of_target (RunOptions.reads_bare_escape_file name) (unset _ _) widened rfl
  · exact resolves_of_target (RunOptions.reads_value_file name mValue) (unset _ _) widened
      (RunOptions.target_of_number number bound (some p))
  · exact resolves_of_target (RunOptions.reads_file_value name mValue) (unset _ _) widened
      (RunOptions.target_of_number number bound (some p))
  · exact resolves_of_target (RunOptions.reads_assignment_file name m) (unset _ _) widened
      (RunOptions.target_of_number number bound (some p))
  · exact rejected_of_target (RunOptions.reads_value_file other pValue) (unset _ _) widened
      (RunOptions.target_of_no_number noNumber (some q))
  · exact rejected_of_target (RunOptions.reads_file_value other pValue) (unset _ _) widened
      (RunOptions.target_of_no_number noNumber (some q))
  · exact rejected_of_target (RunOptions.reads_value (.inl rfl) mValue) (unset _ _) widened
      (RunOptions.target_of_number number bound none)

theorem timeout_value_keeps_file_of_overflow :
    (∀ k, Unsigned "18446744073709551616".toList k → 18446744073709551615 < k) ∧
    Unsigned "+18446744073709551615".toList 18446744073709551615 ∧
    (∃ options,
      Request.read ["run", "--max-address=+9", "-t", "18446744073709551616", "--base=-5"] =
        .ok (.run options) ∧
      options.job = .ok ⟨"18446744073709551616", some (.ofMilliseconds 5000), -5, 9⟩) ∧
    (∃ options,
      Request.read ["run", "18446744073709551616", "-t", "+18446744073709551615"] =
        .ok (.run options) ∧
      options.job =
        .ok ⟨"18446744073709551616", some (.ofMilliseconds 18446744073709551615), 800, 1000⟩) ∧
    Rejected ["7", "-t", "18446744073709551616"] "invalid timeout '18446744073709551616'" ∧
    Rejected ["-t", "+18446744073709551615"] "run requires an input file" := by
  have large : ∀ k, Unsigned "18446744073709551616".toList k → 18446744073709551615 < k := by
    intro k number
    have unread : Decimal.natUpTo? 18446744073709551615 "18446744073709551616".toList = none := by rfl
    refine Nat.lt_of_not_le fun bound => ?_
    rw [Decimal.natUpTo?_eq_some_iff.mpr ⟨number, bound⟩] at unread
    cases unread
  have largest : Unsigned "+18446744073709551615".toList 18446744073709551615 :=
    (Decimal.natUpTo?_eq_some_iff.mp (by rfl : Decimal.natUpTo? 18446744073709551615 _ = _)).1
  have name : IsName "18446744073709551616" := by decide
  have keeps := timeout_value_keeps_file name large (by decide : IsName "7") largest (Nat.le_refl _)
  have nine : Numeral "+9".toList (9 : Word).toInt := Decimal.int?_eq_some_iff.mp (by rfl)
  have minusFive : Numeral "-5".toList (-5 : Word).toInt := Decimal.int?_eq_some_iff.mp (by rfl)
  have high : Widened ["-t", "18446744073709551616"] _
      ([] ++ Edge.top.option.assignment "+9" :: ["-t", "18446744073709551616"]) :=
    .insert .same rfl ⟨by decide, by simp⟩ nine
  have both : Widened ["-t", "18446744073709551616"] _
      (["--max-address=+9", "-t", "18446744073709551616"] ++ Edge.base.option.assignment "-5" :: []) :=
    .insert high rfl ⟨by decide, by simp⟩ minusFive
  have fallback := (keeps _ _).1 _ List.mem_cons_self both
  have timed := (keeps _ _).2.1 ["18446744073709551616", "-t", "+18446744073709551615"] (by simp) .same
  have refused := (keeps _ _).2.2.1 ["7", "-t", "18446744073709551616"] (by simp) .same
  have fileless := (keeps _ _).2.2.2 .same
  exact ⟨large, largest, fallback, timed, refused, fileless⟩

end Command

end RegisterMachine
