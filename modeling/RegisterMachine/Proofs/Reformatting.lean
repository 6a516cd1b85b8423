import RegisterMachine.Proofs.Emission
import RegisterMachine.Proofs.Printing
import RegisterMachine.Proofs.WrapperTransparency

/-! Programs written anew. Every line that can be decoded is replaced by the text of what it decodes
to. The new program passes the same check and runs alike; its dumps show the new text of the line they
are taken on, and are the same in all else. -/

namespace RegisterMachine

namespace Instruction

def reformat (line : String) : String :=
  match decode line with
  | .ok (some i) => i.text
  | .ok none => ""
  | .error _ => line

theorem decode_reformat (line : String) : decode (reformat line) = decode line := by
  unfold reformat
  cases decoded : decode line with
  | error e => exact decoded
  | ok i =>
    cases i with
    | none => rfl
    | some i => exact (decode_text_iff i).mpr (isCanonical_of_decode decoded)

end Instruction

namespace Snapshot

def retold (p : Program) (s : Snapshot) : Snapshot :=
  { s with text := currentText p s.line }

theorem render_retold (s : Snapshot) :
    let line := Text.Decimal.ofNat s.line
    ∃ rest, ∀ p, (s.retold p).render =
      String.join ["--- machine state at line ", line, " ---\n", "  line ", line, ": "] ++
        currentText p s.line ++ rest := by
  refine ⟨"\n" ++ s.registers ++ s.stack, fun p => ?_⟩
  change opening s.line ++ currentText p s.line ++ "\n" ++ s.registers ++ s.stack =
    opening s.line ++ currentText p s.line ++ ("\n" ++ s.registers ++ s.stack)
  simp only [String.append_assoc]

theorem retold_take (p p' : Program) (w : Window) (line : Nat) (s : Store) :
    (take p w line s).retold p' = take p' w line s := rfl

end Snapshot

namespace Program

def reformat (p : Program) : Program :=
  { lines := p.lines.map Instruction.reformat }

def transcript (p : Program) (dumps : List Snapshot) : String :=
  String.join (dumps.map fun s => (s.retold p).render)

theorem transcript_append (p : Program) (dumps more : List Snapshot) :
    p.transcript (dumps ++ more) = p.transcript dumps ++ p.transcript more := by
  simp [transcript, String.join_append]

theorem decoded?_reformat (p : Program) (n : Nat) : p.reformat.decoded? n = p.decoded? n := by
  rw [decoded?, decoded?, line?, line?]
  split
  · rfl
  · simp [reformat, Function.comp_def, Instruction.decode_reformat]

theorem strippedLines_reformat (p : Program) (view : DecodeError → DecodeError) :
    p.reformat.strippedLines view = p.strippedLines view := by
  simp [strippedLines, reformat, Function.comp_def, Instruction.decodeStripped,
    Instruction.decode_reformat]

end Program

namespace Machine

variable {m : Machine} {scene : Scene} {p p' : Program} {w : Window}

def dumped (m : Machine) (s : State) : List Snapshot :=
  match m.program.decoded? s.pc with
  | some (.ok (some (.nullary .debug))) => [m.snapshot s]
  | _ => []

theorem diag_of_turn (unlimited : scene.streams.diag.limit = none) :
    (m.turn scene).scene.streams.diag.bytes =
      scene.streams.diag.bytes ++ (m.program.transcript (m.dumped scene.state)).toUTF8 := by
  have nothing (bytes : ByteArray) : bytes = bytes ++ (m.program.transcript []).toUTF8 :=
    ByteArray.append_empty.symm
  rw [streams_of_turn, emits?, dumped]
  cases decoded : m.program.decoded? scene.state.pc with
  | none => exact nothing _
  | some line =>
    cases line with
    | error e => exact nothing _
    | ok i =>
      cases i with
      | none => exact nothing _
      | some i =>
        cases i with
        | unary op o => cases op <;> exact nothing _
        | nullary op =>
          cases op with
          | debug =>
            have dump : m.program.transcript [m.snapshot scene.state] =
                (m.snapshot scene.state).render := by
              simp [Program.transcript, snapshot, Snapshot.retold_take]
            rw [dump]
            exact Sink.bytes_write unlimited _
          | _ => exact nothing _
        | _ => exact nothing _

theorem transcript_dumped (settings : Settings) {s : State}
    (decodes : p'.decoded? s.pc = p.decoded? s.pc) :
    p'.transcript (dumped ⟨p', settings⟩ s) = p'.transcript (dumped ⟨p, settings⟩ s) := by
  unfold dumped
  dsimp only
  rw [decodes]
  split
  · simp [Program.transcript, snapshot, Snapshot.retold_take, window]
  · rfl

/-- The same snapshots have been dumped, each with the line as it stands in its program. -/
def SameDumps (p p' : Program) (old : ByteArray) (a b : Scene) : Prop :=
  ∃ dumps, a.streams.diag.bytes = old ++ (p.transcript dumps).toUTF8 ∧
    b.streams.diag.bytes = old ++ (p'.transcript dumps).toUTF8

theorem turn_sameDumps (decodes : ∀ n, p'.decoded? n = p.decoded? n) {old : ByteArray} {a b : Scene}
    (like : a.Like Eq b) (same : SameDumps p p' old a b) :
    SameDumps p p' old (turn ⟨p, ⟨w, none⟩⟩ a).scene (turn ⟨p', ⟨w, none⟩⟩ b).scene := by
  obtain ⟨dumps, first, second⟩ := same
  refine ⟨dumps ++ dumped ⟨p, ⟨w, none⟩⟩ a.state, ?_, ?_⟩
  · rw [diag_of_turn like.diag, first, Program.transcript_append, String.toUTF8, String.toUTF8,
      String.toUTF8, String.toByteArray_append, ByteArray.append_assoc]
  · rw [diag_of_turn like.diag', second, Program.transcript_append, String.toUTF8, String.toUTF8,
      String.toUTF8, String.toByteArray_append, ByteArray.append_assoc, ← like.state_eq,
      transcript_dumped ⟨w, none⟩ (decodes _)]

end Machine

namespace Program

/-- A program that is written anew means the same. It passes the same check, and no run tells it from
the old one but by the dumps; and these are the dumps of the same snapshots, which differ in nothing but
the text of the line that they are taken on. -/
theorem reformat_keeps_meaning (p : Program) :
    p.reformat.check = p.check ∧ p.RunsAlike id p.reformat ∧
    (∀ (w : Window) (clock clock' : Clock) (fuel : Nat) (s : State) (out diag : Sink)
        (ending ending' : Ending), diag.limit = none →
      (⟨p, ⟨w, none⟩⟩ : Machine).execute clock fuel s ⟨out, diag⟩ = some ending →
      (⟨p.reformat, ⟨w, none⟩⟩ : Machine).execute clock' fuel s ⟨out, diag⟩ = some ending' →
      ∃ dumps,
        ending.scene.streams.diag.bytes = diag.bytes ++ (p.transcript dumps).toUTF8 ∧
        ending'.scene.streams.diag.bytes = diag.bytes ++ (p.reformat.transcript dumps).toUTF8) ∧
    ∀ s : Snapshot,
      let line := Text.Decimal.ofNat s.line
      ∃ rest, ∀ q, (s.retold q).render =
        String.join ["--- machine state at line ", line, " ---\n", "  line ", line, ": "] ++
          Snapshot.currentText q s.line ++ rest := by
  have alike : p.strippedLines id = p.reformat.strippedLines id := (p.strippedLines_reformat id).symm
  obtain ⟨check, runs⟩ := same_of_strippedLines alike
  refine ⟨check.symm, runs, ?_, Snapshot.render_retold⟩
  intro w clock clock' fuel s out diag ending ending' unlimited run run'
  have sim := (Machine.simulates_alike (w := w) alike).and (D := Machine.SameDumps p p.reformat diag.bytes)
    fun a b => Machine.turn_sameDumps p.decoded?_reformat
  have start : Scene.Like Eq ⟨s, ⟨out, diag⟩⟩ ⟨s, ⟨out, diag⟩⟩ :=
    ⟨rfl, rfl, rfl, rfl, unlimited, unlimited⟩
  have before : Machine.SameDumps p p.reformat diag.bytes ⟨s, ⟨out, diag⟩⟩ ⟨s, ⟨out, diag⟩⟩ :=
    ⟨[], ByteArray.append_empty.symm, ByteArray.append_empty.symm⟩
  obtain ⟨_, ends, -, -, dumps⟩ := sim.execute ⟨start, before⟩ run (fun _ _ => id) clock'
  rw [run'] at ends
  cases ends
  exact dumps

def scribbled : Program :=
  ⟨#["  print #(+07) ; seven", "; nothing", "@here", "push 7/"]⟩

theorem reformat_keeps_meaning_of_scribbled :
    scribbled.reformat = ⟨#["PRINT #(7)", "", "DEBUG", "push 7/"]⟩ ∧
      scribbled.reformat.check = .error [⟨4, .undecodable (.unknownRegister "7/")⟩] ∧
      ∃ ending dumps,
        (⟨scribbled.reformat, ⟨⟨4, 8⟩, none⟩⟩ : Machine).execute (fun _ => ⟨0⟩) 9
            ⟨Store.initial ⟨4, 8⟩, 1, 0⟩ {} = some ending ∧
          ending.observed id = (.error ⟨4, .undecodable (.unknownRegister "7/")⟩,
            ⟨Store.initial ⟨4, 8⟩, 4, 2⟩, ⟨none, "7".toUTF8⟩) ∧
          ending.scene.streams.diag.bytes =
            ByteArray.empty ++ (scribbled.reformat.transcript dumps).toUTF8 := by
  have shape : scribbled.reformat = ⟨#["PRINT #(7)", "", "DEBUG", "push 7/"]⟩ :=
    congrArg Program.mk List.map_toArray
  have seen : ((⟨scribbled, ⟨⟨4, 8⟩, none⟩⟩ : Machine).execute (fun _ => ⟨0⟩) 9
      ⟨Store.initial ⟨4, 8⟩, 1, 0⟩ {}).map (·.observed id) =
        some (.error ⟨4, .undecodable (.unknownRegister "7/")⟩, ⟨Store.initial ⟨4, 8⟩, 4, 2⟩,
          ⟨none, "7".toUTF8⟩) := rfl
  obtain ⟨check, runs, dumps, -⟩ := reformat_keeps_meaning scribbled
  have seen' := runs ⟨4, 8⟩ (fun _ => ⟨0⟩) (fun _ => ⟨0⟩) 9 ⟨Store.initial ⟨4, 8⟩, 1, 0⟩ {} {} {} rfl rfl
  rw [seen, eq_comm] at seen'
  obtain ⟨_, run, -⟩ := Option.map_eq_some_iff.mp seen
  obtain ⟨ending, run', observed⟩ := Option.map_eq_some_iff.mp seen'
  obtain ⟨shown, -, written⟩ := dumps _ _ _ _ _ _ _ _ _ rfl run run'
  exact ⟨shape, check, ending, shown, run', observed, written⟩

end Program

end RegisterMachine
