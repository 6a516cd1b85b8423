import Mathlib.Data.List.Forall2
import RegisterMachine.Proofs.Simulation
import RegisterMachine.Proofs.StaticCheck
import RegisterMachine.Proofs.Wrapping

/-! Programs that differ in wrappers which play no part. They pass the same check and run alike: the
dump of a line is all that shows them. Only a malformed expression is reported by its own text. -/

namespace RegisterMachine

def Cause.through (view : DecodeError → DecodeError) : Cause → Cause
  | .undecodable e => .undecodable (view e)
  | cause => cause

def Defect.through (view : DecodeError → DecodeError) : Defect → Defect
  | .undecodable e => .undecodable (view e)
  | defect => defect

def Finding.through (view : DecodeError → DecodeError) (f : Finding) : Finding :=
  { f with defect := f.defect.through view }

theorem Cause.through_id : Cause.through id = id := by
  funext cause
  cases cause <;> rfl

theorem Finding.through_id (f : Finding) : f.through id = f := by
  obtain ⟨line, defect⟩ := f
  cases defect <;> rfl

/-- What is seen of a run: how it ended, the state it left, and its output. -/
def Ending.observed (view : Cause → Cause) (e : Ending) : Except Failure Nat × State × Sink :=
  (e.outcome.mapError (·.through view), e.scene.state, e.scene.streams.out)

theorem Scene.Like.state_eq {a b : Scene} (like : a.Like Eq b) : a.state = b.state := by
  obtain ⟨⟨store, pc, steps⟩, streams⟩ := a
  obtain ⟨⟨store', pc', steps'⟩, streams'⟩ := b
  obtain ⟨rfl, rfl, rfl, -, -, -⟩ := like
  rfl

namespace Instruction

variable {view : DecodeError → DecodeError} {line line' : String}

theorem decode_of_decodeStripped (same : decodeStripped view line = decodeStripped view line') :
    (∃ e e', decode line = .error e ∧ decode line' = .error e' ∧ view e = view e') ∨
    (decode line = .ok none ∧ decode line' = .ok none) ∨
    ∃ i j, decode line = .ok (some i) ∧ decode line' = .ok (some j) ∧ i.strip = j.strip := by
  unfold decodeStripped at same
  cases decoded : decode line with
  | error e =>
    cases decoded' : decode line' with
    | error e' =>
      simp only [decoded, decoded', Except.error.injEq] at same
      exact .inl ⟨e, e', rfl, rfl, same⟩
    | ok j => simp [decoded, decoded'] at same
  | ok i =>
    cases decoded' : decode line' with
    | error e' => simp [decoded, decoded'] at same
    | ok j =>
      simp only [decoded, decoded', Except.ok.injEq] at same
      cases i with
      | none =>
        cases j with
        | none => exact .inr (.inl ⟨rfl, rfl⟩)
        | some j => cases same
      | some i =>
        cases j with
        | none => cases same
        | some j => exact .inr (.inr ⟨i, j, rfl, rfl, Option.some.inj same⟩)

end Instruction

namespace Program

variable {view : DecodeError → DecodeError} {p p' : Program}

/-- The lines of the second program are those of the first with the wrapper put around, or taken from,
any of the allowed tokens. -/
def Rewrapped (allowed : List Char → Prop) (p p' : Program) : Prop :=
  List.Forall₂ (Instruction.Rewraps allowed) p.lines.toList p'.lines.toList

def strippedLines (view : DecodeError → DecodeError) (p : Program) :
    List (Except DecodeError (Option Instruction)) :=
  p.lines.toList.map (Instruction.decodeStripped view)

theorem Rewrapped.strippedLines_eq {allowed : List Char → Prop} (rewrapped : p.Rewrapped allowed p')
    (quoted : ∀ token, allowed token → ∀ e, Operand.read token = .error e →
      view (e.requote (Operand.wrap token)) = view e) :
    p.strippedLines view = p'.strippedLines view := by
  unfold Rewrapped at rewrapped
  unfold strippedLines
  generalize p.lines.toList = lines, p'.lines.toList = lines' at rewrapped ⊢
  induction rewrapped with
  | nil => rfl
  | cons first _ ih => rw [List.map_cons, List.map_cons, first.decodeStripped_eq quoted, ih]

theorem jumpDefect?_strip (p : Program) (i : Instruction) :
    p.jumpDefect? i.strip = p.jumpDefect? i := by
  cases i with
  | unary op o => cases op <;> rfl
  | load dst src => rfl
  | store value address => rfl
  | pop dst => rfl
  | nullary op => rfl

def defectOf (p : Program) : Except DecodeError (Option Instruction) → Option Defect
  | .error error => some (.undecodable error)
  | .ok none => none
  | .ok (some i) => p.jumpDefect? i

theorem defect?_through (p : Program) (line : String) :
    (p.defect? line).map (·.through view) = p.defectOf (Instruction.decodeStripped view line) := by
  rw [defect?, Instruction.decodeStripped]
  cases Instruction.decode line with
  | error e => rfl
  | ok i =>
    cases i with
    | none => rfl
    | some i =>
      dsimp only [defectOf, Option.map_some]
      rw [jumpDefect?_strip]
      cases found : p.jumpDefect? i with
      | none => rfl
      | some defect =>
        obtain ⟨o, target, -, -, -, rfl⟩ := jumpDefect?_eq_some_iff.mp found
        rfl

theorem findings_through (p : Program) :
    p.findings.map (·.through view) =
      ((p.strippedLines view).zipIdx 1).filterMap fun (line, n) =>
        (p.defectOf line).map fun defect => { line := n, defect } := by
  rw [findings, List.map_filterMap, strippedLines, List.zipIdx_map, List.filterMap_map]
  refine congrArg (List.filterMap · _) (funext fun numbered => ?_)
  obtain ⟨line, n⟩ := numbered
  dsimp only [Function.comp_apply, Prod.map_apply]
  rw [← defect?_through]
  cases p.defect? line <;> rfl

theorem instructionCount_stripped (p : Program) (view : DecodeError → DecodeError) :
    p.instructionCount = (p.strippedLines view).countP Instruction.isPresent := by
  rw [instructionCount, strippedLines, List.countP_map]
  refine List.countP_congr fun line _ => ?_
  rw [Function.comp_apply, Instruction.decodeStripped]
  cases Instruction.decode line with
  | error e => rfl
  | ok i => cases i <;> rfl

section Alike

variable (alike : p.strippedLines view = p'.strippedLines view)
include alike

theorem size_eq : p.size = p'.size := by
  have lengths := congrArg List.length alike
  simpa [strippedLines, size] using lengths

theorem target?_eq (w : Word) : p.target? w = p'.target? w := by
  rw [target?, target?, size_eq alike]

theorem decodeStripped_eq (n : Nat) :
    (p.line? n).map (Instruction.decodeStripped view) =
      (p'.line? n).map (Instruction.decodeStripped view) := by
  rw [line?, line?]
  split
  · rfl
  · have here := congrArg (·[n - 1]?) alike
    simpa [strippedLines] using here

theorem defectOf_eq : p.defectOf = p'.defectOf := by
  funext line
  unfold defectOf
  split
  · rfl
  · rfl
  · simp only [jumpDefect?, target?_eq alike, size_eq alike]

theorem check_eq :
    p.check.mapError (·.map (·.through view)) = p'.check.mapError (·.map (·.through view)) := by
  have found : p.findings.map (·.through view) = p'.findings.map (·.through view) := by
    rw [findings_through, findings_through, alike, defectOf_eq alike]
  have count : p.instructionCount = p'.instructionCount := by
    rw [instructionCount_stripped p view, instructionCount_stripped p' view, alike]
  rw [check, check]
  cases findings : p.findings with
  | nil =>
    rw [findings, List.map_nil] at found
    rw [List.map_eq_nil_iff.mp found.symm, count]
  | cons first rest =>
    cases findings' : p'.findings with
    | nil => rw [findings, findings'] at found; cases found
    | cons first' rest' =>
      rw [findings, findings'] at found
      exact congrArg Except.error found

end Alike

end Program

namespace Machine

variable {view : DecodeError → DecodeError} {p p' : Program} {w : Window}

theorem source_strip {src : Operand} (chain : src.expr.tail.isEmpty = false) :
    Action.source src.strip = Action.source src := by
  have wrapped : src.strip.isBare = false := by simp [Operand.isBare, Operand.strip, chain]
  have plain : src.isBare = false := by simp [Operand.isBare, chain]
  unfold Action.source
  rw [wrapped, plain]
  rfl

theorem perform_strip (m : Machine) (pc : Nat) (i : Instruction) :
    m.perform pc i.strip = m.perform pc i := by
  cases i with
  | load dst src =>
    cases chain : src.expr.tail.isEmpty with
    | true => rw [Instruction.strip, chain, if_pos rfl]
    | false =>
      rw [Instruction.strip, chain, perform, perform]
      simp [source_strip chain]
  | store value address => rfl
  | pop dst => rfl
  | unary op o => cases op <;> rfl
  | nullary op => rfl

section Alike

variable (alike : p.strippedLines view = p'.strippedLines view)
include alike

theorem perform_alike (pc : Nat) {i j : Instruction} (same : i.strip = j.strip) (s : Store)
    (excused : Cause → Prop) :
    Action.Matches Eq Flow.Like excused ((⟨p, ⟨w, none⟩⟩ : Machine).perform pc i)
      ((⟨p', ⟨w, none⟩⟩ : Machine).perform pc j) s s := by
  rw [← perform_strip, ← perform_strip _ _ j, same, perform_strip, perform_strip]
  by_cases dump : j = .nullary .debug
  · subst dump
    exact ⟨_, s, rfl, trivial, rfl⟩
  · rw [perform_of_size (Program.size_eq alike) _ pc dump]
    exact .refl Flow.Like.refl _ s

theorem simulates_alike :
    Simulates ⟨p, ⟨w, none⟩⟩ ⟨p', ⟨w, none⟩⟩ (Scene.Like Eq) (Cause.through view)
      fun _ => False := by
  refine simulates_of_lines rfl rfl fun n => ?_
  have same := Program.decodeStripped_eq alike n
  cases here : p.line? n with
  | none =>
    rw [here, Option.map_none, eq_comm, Option.map_eq_none_iff] at same
    refine .missing ?_ ?_
    · rw [Program.decoded?, here, Option.map_none]
    · rw [Program.decoded?, same, Option.map_none]
  | some line =>
    cases there : p'.line? n with
    | none => rw [here, there] at same; cases same
    | some line' =>
      rw [here, there] at same
      have decoded : p.decoded? n = some (Instruction.decode line) := by
        rw [Program.decoded?, here, Option.map_some]
      have decoded' : p'.decoded? n = some (Instruction.decode line') := by
        rw [Program.decoded?, there, Option.map_some]
      obtain ⟨e, e', first, second, viewed⟩ | ⟨first, second⟩ | ⟨i, j, first, second, stripped⟩ :=
        Instruction.decode_of_decodeStripped (Option.some.inj same)
      · rw [first] at decoded
        rw [second] at decoded'
        exact .undecodable e e' decoded decoded' (congrArg Cause.undecodable viewed.symm)
      · rw [first] at decoded
        rw [second] at decoded'
        exact .empty decoded decoded'
      · rw [first] at decoded
        rw [second] at decoded'
        refine .instruction i j decoded decoded' fun s t related => ?_
        subst related
        exact perform_alike alike n stripped s _

theorem exists_observed (clock clock' : Clock) {fuel : Nat} {s : State} {out diag diag' : Sink}
    (unlimited : diag.limit = none) (unlimited' : diag'.limit = none) {ending : Ending}
    (run : (⟨p, ⟨w, none⟩⟩ : Machine).execute clock fuel s ⟨out, diag⟩ = some ending) :
    ∃ ending', (⟨p', ⟨w, none⟩⟩ : Machine).execute clock' fuel s ⟨out, diag'⟩ = some ending' ∧
      ending'.observed (Cause.through view) = ending.observed (Cause.through view) := by
  have start : Scene.Like Eq ⟨s, ⟨out, diag⟩⟩ ⟨s, ⟨out, diag'⟩⟩ :=
    ⟨rfl, rfl, rfl, rfl, unlimited, unlimited'⟩
  obtain ⟨ending', run', failure, like⟩ :=
    (simulates_alike alike).execute start run (fun _ _ => id) clock'
  have outcome : ending'.outcome.mapError (·.through (Cause.through view)) =
      ending.outcome.mapError (·.through (Cause.through view)) := by
    rw [outcome_of_execute run, outcome_of_execute run', like.steps]
    cases first : ending.failure? with
    | none =>
      rw [first, Option.map_none, Option.map_eq_none_iff] at failure
      rw [failure]
    | some f =>
      rw [first, Option.map_some, Option.map_eq_some_iff] at failure
      obtain ⟨f', second, viewed⟩ := failure
      rw [second]
      exact congrArg Except.error viewed
  refine ⟨ending', run', ?_⟩
  rw [Ending.observed, Ending.observed, outcome, like.state_eq, like.out]

theorem execute_alike (clock clock' : Clock) (fuel : Nat) (s : State) (out : Sink) {diag diag' : Sink}
    (unlimited : diag.limit = none) (unlimited' : diag'.limit = none) :
    ((⟨p, ⟨w, none⟩⟩ : Machine).execute clock fuel s ⟨out, diag⟩).map
        (·.observed (Cause.through view)) =
      ((⟨p', ⟨w, none⟩⟩ : Machine).execute clock' fuel s ⟨out, diag'⟩).map
        (·.observed (Cause.through view)) := by
  cases run : (⟨p, ⟨w, none⟩⟩ : Machine).execute clock fuel s ⟨out, diag⟩ with
  | some ending =>
    obtain ⟨ending', run', seen⟩ := exists_observed alike clock clock' unlimited unlimited' run
    rw [run', Option.map_some, Option.map_some, seen]
  | none =>
    cases run' : (⟨p', ⟨w, none⟩⟩ : Machine).execute clock' fuel s ⟨out, diag'⟩ with
    | none => rfl
    | some ending' =>
      -- An end of the second run would be an end of the first one too.
      obtain ⟨ending, ends, -⟩ := exists_observed alike.symm clock' clock unlimited' unlimited run'
      rw [run] at ends
      cases ends

end Alike

end Machine

/-- No run tells the programs apart: in any window, from any state and with any output, they leave the
same state and the same output, and the same failure through the view. -/
def Program.RunsAlike (view : Cause → Cause) (p p' : Program) : Prop :=
  ∀ (w : Window) (clock clock' : Clock) (fuel : Nat) (s : State) (out diag diag' : Sink),
    diag.limit = none → diag'.limit = none →
    ((⟨p, ⟨w, none⟩⟩ : Machine).execute clock fuel s ⟨out, diag⟩).map (·.observed view) =
      ((⟨p', ⟨w, none⟩⟩ : Machine).execute clock' fuel s ⟨out, diag'⟩).map (·.observed view)

namespace Operand

/-- The token has an operator with no term on one of its sides. -/
def IsMalformed (token : List Char) : Prop :=
  ∃ text, read token = .error (.malformedExpression text)

theorem requote_of_read {token : List Char} (wellFormed : ¬IsMalformed token) {e : DecodeError}
    (refused : read token = .error e) (other : List Char) : e.requote other = e := by
  cases e with
  | malformedExpression text => exact (wellFormed ⟨text, refused⟩).elim
  | _ => rfl

end Operand

theorem DecodeError.requote_requote (e : DecodeError) (token other : List Char) :
    (e.requote token).requote other = e.requote other := by
  cases e <;> rfl

namespace Program

variable {p p' : Program}

theorem same_of_strippedLines (alike : p.strippedLines id = p'.strippedLines id) :
    p.check = p'.check ∧ p.RunsAlike id p' := by
  refine ⟨?_, fun w clock clock' fuel s out diag diag' unlimited unlimited' => ?_⟩
  · have unchanged (q : Program) : q.check.mapError (·.map (·.through id)) = q.check :=
      mapError_eq_self fun findings _ => List.map_id'' Finding.through_id findings
    rw [← unchanged p, ← unchanged p']
    exact check_eq alike
  · rw [← Cause.through_id]
    exact Machine.execute_alike alike clock clock' fuel s out unlimited unlimited'

theorem Rewrapped.same (rewrapped : p.Rewrapped (¬Operand.IsMalformed ·) p') :
    p.check = p'.check ∧ p.RunsAlike id p' :=
  same_of_strippedLines <| rewrapped.strippedLines_eq fun _ wellFormed _ refused =>
    Operand.requote_of_read wellFormed refused _

theorem Rewrapped.same_but_quotation (rewrapped : p.Rewrapped (fun _ => True) p') :
    p.check.mapError (·.map (·.through (.requote []))) =
        p'.check.mapError (·.map (·.through (.requote []))) ∧
      p.RunsAlike (.through (.requote [])) p' := by
  have alike : p.strippedLines (.requote []) = p'.strippedLines (.requote []) :=
    rewrapped.strippedLines_eq fun token _ e _ => e.requote_requote _ _
  exact ⟨check_eq alike, fun w clock clock' fuel s out diag diag' unlimited unlimited' =>
    Machine.execute_alike alike clock clock' fuel s out unlimited unlimited'⟩

/-- The wrapper is read as such, around an operand that can be read. Where it plays no part it can be
put around operands and taken from them, and neither the check nor a run shows it; except that a
malformed expression is reported as it is written. -/
theorem wrapper_changes_quotation_only :
    (∀ token, ¬Operand.IsWrapped token →
      ((∃ o, Operand.read (Operand.wrap token) = .ok o) ↔ ∃ o, Operand.read token = .ok o) ∧
      (∀ o, Operand.read token = .ok o →
        o.indirect = false ∧ Operand.read (Operand.wrap token) = .ok { o with indirect := true }) ∧
      ∀ text, Operand.read token = .error (.malformedExpression text) →
        text = String.ofList (Text.trim token) ∧
        Operand.read (Operand.wrap token) =
          .error (.malformedExpression (String.ofList (Operand.wrap token)))) ∧
    (∀ p p' : Program, p.Rewrapped (¬Operand.IsMalformed ·) p' →
      p.check = p'.check ∧ p.RunsAlike id p') ∧
    ∀ p p' : Program, p.Rewrapped (fun _ => True) p' →
      p.check.mapError (·.map (·.through (.requote []))) =
        p'.check.mapError (·.map (·.through (.requote []))) ∧
      p.RunsAlike (.through (.requote [])) p' := by
  refine ⟨fun token plain => ⟨?_, fun o found => ?_, fun text refused => ?_⟩, fun p p' => ?_,
    fun p p' => ?_⟩
  · exact Operand.exists_read_wrap_iff plain
  · exact Operand.read_wrap_of_ok plain found
  · exact Operand.read_wrap_of_malformed plain refused
  · exact Rewrapped.same
  · exact Rewrapped.same_but_quotation

theorem wrapper_changes_quotation_only_of_chain :
    Operand.read "#(-3)".toList = .ok ⟨⟨.literal (-3), []⟩, true⟩ ∧
    Rewrapped (¬Operand.IsMalformed ·) ⟨#["LOAD A, SP-1", "PRINT #(A)", "END"]⟩
      ⟨#["LOAD A, #(SP-1)", "PRINT A", "END"]⟩ ∧
    ((Machine.ofLines #["LOAD A, #(SP-1)", "PRINT A", "END"] ⟨⟨4, 8⟩, none⟩).execute (fun _ => ⟨0⟩) 9
        ⟨⟨⟨0, 0, 0, 8, 7⟩, ⟨4, #[0, 0, 5, 0]⟩⟩, 1, 0⟩ {}).map (·.observed id) =
      some (.ok 3, ⟨⟨⟨5, 0, 0, 8, 7⟩, ⟨4, #[0, 0, 5, 0]⟩⟩, 3, 3⟩, ⟨none, "5".toUTF8⟩) := by
  have chain : Operand.read "SP-1".toList =
      .ok ⟨⟨.register .sp, [(.minus, .literal 1)]⟩, false⟩ := rfl
  have register : Operand.read "A".toList = .ok ⟨⟨.register .a, []⟩, false⟩ := rfl
  have load : Instruction.Wraps "SP-1".toList "LOAD A, SP-1" "LOAD A, #(SP-1)" := by
    have alone : Instruction.Alone "LOAD A, ".toList [] :=
      ⟨by decide, ⟨"LOAD A,".toList, ' ', rfl, rfl⟩, by simp⟩
    have found : Opcode.find? "LOAD".toList = some .load := rfl
    refine .operand alone (List.all_eq_true.mp rfl) (List.cons_ne_nil _ _) ?_ rfl found ⟨rfl, fun o read => ?_⟩
    · rintro ⟨inner, same⟩
      cases same
    · rw [chain] at read
      cases read
      exact List.cons_ne_nil _ _
  have print : Instruction.Wraps "A".toList "PRINT A" "PRINT #(A)" := by
    have alone : Instruction.Alone "PRINT ".toList [] :=
      ⟨by decide, ⟨"PRINT".toList, ' ', rfl, rfl⟩, by simp⟩
    have found : Opcode.find? "PRINT".toList = some (.unary .print) := rfl
    refine .operand alone (List.all_eq_true.mp rfl) (List.cons_ne_nil _ _) ?_ rfl found trivial
    rintro ⟨inner, same⟩
    cases same
  have wellFormed {token : List Char} {o : Operand} (found : Operand.read token = .ok o) :
      ¬Operand.IsMalformed token := by
    rintro ⟨text, refused⟩
    rw [found] at refused
    cases refused
  have rewrapped : Rewrapped (¬Operand.IsMalformed ·) ⟨#["LOAD A, SP-1", "PRINT #(A)", "END"]⟩
      ⟨#["LOAD A, #(SP-1)", "PRINT A", "END"]⟩ :=
    .cons (.rel _ _ ⟨_, wellFormed chain, load⟩)
      (.cons (.symm _ _ (.rel _ _ ⟨_, wellFormed register, print⟩)) (.cons (.refl _) .nil))
  obtain ⟨reads, same, -⟩ := wrapper_changes_quotation_only
  have literal : Operand.read "-3".toList = .ok ⟨⟨.literal (-3), []⟩, false⟩ := rfl
  have plain : ¬Operand.IsWrapped "-3".toList := by
    rintro ⟨inner, same⟩
    cases same
  refine ⟨((reads _ plain).2.1 _ literal).2, rewrapped, ?_⟩
  exact ((same _ _ rewrapped).2 ⟨4, 8⟩ (fun _ => ⟨0⟩) (fun _ => ⟨0⟩) 9 _ {} {} {} rfl rfl).symm

/-- The wrapper shows around a malformed expression, around another wrapper and around nothing. -/
theorem wrapper_shows_if_malformed_nested_or_empty :
    (Rewrapped (fun _ => True) ⟨#["PUSH -A"]⟩ ⟨#["PUSH #(-A)"]⟩ ∧
      check ⟨#["PUSH -A"]⟩ = .error [⟨1, .undecodable (.malformedExpression "-A")⟩] ∧
      check ⟨#["PUSH #(-A)"]⟩ = .error [⟨1, .undecodable (.malformedExpression "#(-A)")⟩]) ∧
    (check ⟨#["PUSH #(A)"]⟩ = .ok 1 ∧
      check ⟨#["PUSH #(#(A))"]⟩ = .error [⟨1, .undecodable (.unknownRegister "#(A)")⟩]) ∧
    check ⟨#["PUSH "]⟩ = .error [⟨1, .undecodable (.operandCount (.unary .push) 0)⟩] ∧
      check ⟨#["PUSH #()"]⟩ = .error [⟨1, .undecodable (.malformedExpression "#()")⟩] := by
  have wraps : Instruction.Wraps "-A".toList "PUSH -A" "PUSH #(-A)" := by
    have alone : Instruction.Alone "PUSH ".toList [] :=
      ⟨by decide, ⟨"PUSH".toList, ' ', rfl, rfl⟩, by simp⟩
    have found : Opcode.find? "PUSH".toList = some (.unary .push) := rfl
    refine .operand alone (List.all_eq_true.mp rfl) (List.cons_ne_nil _ _) ?_ rfl found trivial
    rintro ⟨inner, same⟩
    cases same
  have rewrapped : Rewrapped (fun _ => True) ⟨#["PUSH -A"]⟩ ⟨#["PUSH #(-A)"]⟩ :=
    .cons (.rel _ _ ⟨_, trivial, wraps⟩) .nil
  exact ⟨⟨rewrapped, rfl, rfl⟩, ⟨rfl, rfl⟩, rfl, rfl⟩

end Program

end RegisterMachine
