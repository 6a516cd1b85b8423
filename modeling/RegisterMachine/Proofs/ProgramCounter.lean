import RegisterMachine.Proofs.Turns

/-! Where the machine stands. Its line is always one of the program or the one past the last, and a
failure names the line the machine is left on, which is the line that its snapshot shows. -/

namespace RegisterMachine

open Text

theorem Snapshot.render_header (s : Snapshot) :
    ∃ rest, s.render =
      "--- machine state at line " ++ Decimal.ofNat s.line ++ " ---\n" ++ rest := by
  unfold render heading opening
  simp only [String.join_cons, String.append_assoc]
  exact ⟨_, rfl⟩

namespace Machine

variable {m : Machine} {scene : Scene} {failure : Failure}

def OnProgram (m : Machine) (s : State) : Prop :=
  1 ≤ s.pc ∧ s.pc ≤ m.program.size + 1

theorem follow_onProgram {store : Store} {pc steps : Nat} {streams : Streams} {flow : Flow}
    (inside : 1 ≤ pc ∧ pc ≤ m.program.size)
    (jumps : ∀ line, flow = .jump line → 1 ≤ line ∧ line ≤ m.program.size) :
    m.OnProgram (follow store pc steps streams flow).scene.state := by
  have stays : 1 ≤ pc ∧ pc ≤ m.program.size + 1 := by omega
  have moves : 1 ≤ pc + 1 ∧ pc + 1 ≤ m.program.size + 1 := by omega
  cases flow with
  | next => exact moves
  | jump line =>
    have target := jumps line rfl
    have lands : 1 ≤ line ∧ line ≤ m.program.size + 1 := by omega
    exact lands
  | halt => exact stays
  | emit channel text =>
    rw [follow]
    split
    · exact moves
    · exact stays

theorem carryOut_onProgram (i : Instruction)
    (inside : 1 ≤ scene.state.pc ∧ scene.state.pc ≤ m.program.size) :
    m.OnProgram (m.carryOut i scene).scene.state := by
  have jumps := m.perform_jump scene.state.pc i scene.state.store
  rw [carryOut]
  cases performed : m.perform scene.state.pc i scene.state.store with
  | error cause store =>
    have stays : 1 ≤ scene.state.pc ∧ scene.state.pc ≤ m.program.size + 1 := by omega
    exact stays
  | ok flow store => exact follow_onProgram inside (jumps.of_ok performed)

theorem turn_onProgram (scene : Scene) (on : m.OnProgram scene.state) :
    m.OnProgram (m.turn scene).scene.state := by
  rw [turn_eq]
  split
  · exact on
  · exact on
  · rename_i found
    have inside := Program.bounds_of_decoded? found
    have moves : 1 ≤ scene.state.pc + 1 ∧ scene.state.pc + 1 ≤ m.program.size + 1 := by omega
    exact moves
  · rename_i i found
    exact carryOut_onProgram i (Program.bounds_of_decoded? found)

theorem initial_onProgram (m : Machine) : m.OnProgram m.initial := by
  have bounds : 1 ≤ 1 ∧ 1 ≤ m.program.size + 1 := by omega
  exact bounds

theorem CanFail.line_spec (can : m.CanFail failure)
    (on : 1 ≤ failure.line ∧ failure.line ≤ m.program.size + 1) :
    (failure.line = m.program.size + 1 ↔ failure.cause = .endOfProgram) ∧
      (∀ error, failure.cause = .undecodable error →
        m.program.decoded? failure.line = some (.error error)) ∧
      (failure.cause ≠ .endOfProgram → (∀ error, failure.cause ≠ .undecodable error) →
        ∃ i, m.program.decoded? failure.line = some (.ok (some i))) := by
  cases can with
  | @endOfProgram line missing =>
    rw [Program.decoded?_eq_none_iff] at missing
    have past : line = m.program.size + 1 := by
      simp only at on
      omega
    simp [past]
  | @undecodable line error found =>
    have inside := Program.bounds_of_decoded? found
    have before : line ≠ m.program.size + 1 := by omega
    simp [before, found]
  | @operation line i cause store left found performed =>
    have inside := Program.bounds_of_decoded? found
    have before : line ≠ m.program.size + 1 := by omega
    have own := (perform_cause m line i store).of_error performed
    refine ⟨⟨fun past => (before past).elim, ?_⟩, ?_, fun _ _ => ⟨i, found⟩⟩
    · rintro rfl
      cases own
    · rintro error rfl
      cases own
  | @output line i found =>
    have inside := Program.bounds_of_decoded? found
    have before : line ≠ m.program.size + 1 := by omega
    simp [before, found]

/-- Over any number of executions the machine stays on its program, at every loop head and after
every return. An execution that fails names the line it is left on, which the snapshot taken then
shows; unless its time was over, that line is past the last one exactly if the program has come to
its end, and else does not decode, or decodes to an instruction, as the cause says. -/
theorem stays_on_program (m : Machine) (s : State) (reached : Reachable m s) :
    m.OnProgram s ∧
    ∀ clock streams,
      (∀ n scene, LoopHead m clock ⟨s, streams⟩ n scene → m.OnProgram scene.state) ∧
      ∀ fuel failure left, m.execute clock fuel s streams = some ⟨.error failure, left⟩ →
        m.OnProgram left.state ∧ failure.line = left.state.pc ∧
        (∃ rest, (m.snapshot left.state).render =
          "--- machine state at line " ++ Decimal.ofNat failure.line ++ " ---\n" ++ rest) ∧
        ((∀ budget, failure.cause ≠ .timeout budget) →
          (failure.line = m.program.size + 1 ↔ failure.cause = .endOfProgram) ∧
          (∀ error, failure.cause = .undecodable error →
            m.program.decoded? failure.line = some (.error error)) ∧
          (failure.cause ≠ .endOfProgram → (∀ error, failure.cause ≠ .undecodable error) →
            ∃ i, m.program.decoded? failure.line = some (.ok (some i)))) := by
  have on {t : State} (reached : Reachable m t) : m.OnProgram t :=
    reached.invariant turn_onProgram m.initial_onProgram
  refine ⟨on reached, fun clock streams => ⟨?_, ?_⟩⟩
  · intro n scene head
    exact head.invariant turn_onProgram (on reached)
  · intro fuel failure left run
    have after := on (reached.execute run)
    obtain ⟨line, cause⟩ := execute_fails run
    have header := Snapshot.render_header (m.snapshot left.state)
    refine ⟨after, line, ?_, ?_⟩
    · rw [line]
      exact header
    · intro inTime
      obtain ⟨budget, late⟩ | can := cause
      · exact (inTime budget late).elim
      · have bounds : 1 ≤ failure.line ∧ failure.line ≤ m.program.size + 1 := by
          rw [line]
          exact after
        exact can.line_spec bounds

def commentThenDiv : Machine :=
  ofLines #["; comment", "DIV"]

theorem stays_on_program_at_division :
    ∃ s, Reachable commentThenDiv s ∧ s.pc = 2 ∧
      ∃ left, commentThenDiv.execute (fun _ => ⟨0⟩) 9 s {} =
          some ⟨.error ⟨2, .divisionByZero⟩, left⟩ ∧
        left.state.pc = 2 ∧ ∃ i, commentThenDiv.program.decoded? 2 = some (.ok (some i)) := by
  have first : commentThenDiv.execute (fun _ => ⟨0⟩) 9 commentThenDiv.initial {} =
      some ⟨.error ⟨2, .divisionByZero⟩, ⟨⟨commentThenDiv.initial.store, 2, 1⟩, {}⟩⟩ := rfl
  have second : commentThenDiv.execute (fun _ => ⟨0⟩) 9 ⟨commentThenDiv.initial.store, 2, 1⟩ {} =
      some ⟨.error ⟨2, .divisionByZero⟩, ⟨⟨commentThenDiv.initial.store, 2, 2⟩, {}⟩⟩ := rfl
  have reached := Reachable.initial.execute first
  obtain ⟨-, line, -, located⟩ := ((stays_on_program _ _ reached).2 _ _).2 _ _ _ second
  have decodes := (located (by simp)).2.2 (by simp) (by simp)
  exact ⟨_, reached, rfl, _, second, line.symm, decodes⟩

end Machine

end RegisterMachine
