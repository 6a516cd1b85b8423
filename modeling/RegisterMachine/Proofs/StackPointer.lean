import RegisterMachine.Proofs.Numerals
import RegisterMachine.Proofs.Writes

/-! Where the stack pointer stands. As long as no instruction of the program sets it to a value of its
own, it stays between the base and the top of the window, also where an instruction has failed halfway,
and the stack is full exactly at the base and empty exactly at the top. -/

namespace RegisterMachine

namespace Word

theorem toInt_sub_one {x y : Word} (above : y < x) : (x - 1).toInt = x.toInt - 1 := by
  have low := (toInt_bounds y).1
  have high := (toInt_bounds x).2
  rw [Int32.lt_iff_toInt_lt] at above
  rw [Int32.toInt_sub, Int32.toInt_one]
  exact Int.bmod_eq_of_le (by omega) (by omega)

theorem toInt_add_one {x y : Word} (below : x < y) : (x + 1).toInt = x.toInt + 1 := by
  have low := (toInt_bounds x).1
  have high := (toInt_bounds y).2
  rw [Int32.lt_iff_toInt_lt] at below
  rw [Int32.toInt_add, Int32.toInt_one]
  exact Int.bmod_eq_of_le (by omega) (by omega)

end Word

theorem Bank.sp_set (bank : Bank) {r : Register} (other : r ≠ .sp) (x : Word) :
    (bank.set r x).sp = bank.sp := by
  cases r with
  | sp => exact (other rfl).elim
  | _ => rfl

/-- Memory covers the window, and the stack pointer is in it or just past its end. -/
structure Store.InStack (w : Window) (s : Store) : Prop where
  covers : s.memory.Covers w
  base_le : w.base ≤ s.bank.sp
  le_top : s.bank.sp ≤ w.top

namespace Action

open Store

variable {w : Window} {s : Store}

theorem setRegister_inStack (inside : s.InStack w) {r : Register} (other : r ≠ .sp) (x : Word) :
    InStack w { s with bank := s.bank.set r x } := by
  have same := s.bank.sp_set other x
  exact ⟨inside.covers, same ▸ inside.base_le, same ▸ inside.le_top⟩

theorem reserve_inStack (inside : s.InStack w) :
    (reserve w).Leads s (fun _ t => t.InStack w ∧ t.bank.sp < w.top)
      (fun cause t => t.InStack w ∧ cause = .stackOverflow w.base) := by
  have base := inside.base_le
  have top := inside.le_top
  rw [Int32.le_iff_toInt_le] at base top
  rw [leads_reserve]
  refine ⟨fun full => ⟨inside, ?_⟩, fun room => ?_⟩
  · have same : s.bank.sp = w.base := by
      rw [Int32.le_iff_toInt_le, Int32.lt_iff_toInt_lt] at full
      exact Int32.toInt_inj.mp (by omega)
    rw [same]
  · have above : w.base < s.bank.sp := Int32.not_le.mp fun low => room (.inl low)
    have moved := Word.toInt_sub_one above
    rw [Int32.lt_iff_toInt_lt] at above
    refine ⟨⟨inside.covers, ?_, ?_⟩, ?_⟩
    · rw [Int32.le_iff_toInt_le, moved]
      omega
    · rw [Int32.le_iff_toInt_le, moved]
      omega
    · rw [Int32.lt_iff_toInt_lt, moved]
      omega

theorem push_inStack (inside : s.InStack w) (x : Word) :
    (push w x).Leads s (fun _ t => t.InStack w)
      (fun cause t => t.InStack w ∧ cause = .stackOverflow w.base) := by
  rw [push, leads_bind]
  refine (reserve_inStack inside).mono (fun _ t reserved => ?_) fun _ _ full => full
  obtain ⟨within, below⟩ := reserved
  have contained := within.covers.contains_iff.mpr ⟨within.base_le, below⟩
  have covers := within.covers.writeAll [⟨t.bank.sp, x⟩]
  simp only [leads_bind, leads_get, leads_write, contained]
  exact ⟨fun _ => ⟨covers, within.base_le, within.le_top⟩, fun outside => by cases outside⟩

theorem pop_inStack (inside : s.InStack w) :
    (pop w).Leads s (fun _ t => t.InStack w)
      (fun cause t => t.InStack w ∧ cause = .stackUnderflow w.top) := by
  have base := inside.base_le
  have top := inside.le_top
  rw [Int32.le_iff_toInt_le] at base top
  rw [leads_pop]
  refine ⟨fun empty => ⟨inside, ?_⟩, fun filled => ?_⟩
  · have same : s.bank.sp = w.top := by
      rw [Int32.le_iff_toInt_le] at empty
      exact Int32.toInt_inj.mp (by omega)
    rw [same]
  · have below : s.bank.sp < w.top := Int32.not_le.mp filled
    have moved := Word.toInt_add_one below
    obtain ⟨y, held⟩ := inside.covers.exists_read? ⟨inside.base_le, below⟩
    rw [Int32.lt_iff_toInt_lt] at below
    refine ⟨fun x _ => ⟨inside.covers, ?_, ?_⟩, fun outside => ?_⟩
    · rw [Int32.le_iff_toInt_le, moved]
      omega
    · rw [Int32.le_iff_toInt_le, moved]
      omega
    · rw [held] at outside
      cases outside

theorem discard_inStack (inside : s.InStack w) (count : Word) :
    (discard w count).Leads s (fun _ t => t.InStack w)
      (fun cause t => t.InStack w ∧ (∀ address, cause ≠ .addressOutOfRange address)) := by
  rw [leads_discard]
  refine ⟨fun _ => ⟨inside, by simp⟩, fun below => ⟨fun _ => ⟨inside, by simp⟩, fun above => ?_⟩⟩
  have low := (Word.toInt_bounds w.base).1
  have high := (Word.toInt_bounds w.top).2
  have moved : (Int32.ofInt (s.bank.sp.toInt + count.toInt)).toInt =
      s.bank.sp.toInt + count.toInt := Int32.toInt_ofInt_of_le (by omega) (by omega)
  refine ⟨inside.covers, ?_, ?_⟩
  · rw [Int32.le_iff_toInt_le, moved]
    omega
  · rw [Int32.le_iff_toInt_le, moved]
    omega

end Action

namespace Instruction

def setsSp : Instruction → Bool
  | .load .sp _ | .pop .sp => true
  | _ => false

def growsStack : Instruction → Bool
  | .unary .push _ | .nullary .pushUp | .unary .call _ => true
  | _ => false

def usesStack : Instruction → Bool
  | .pop _ | .unary .ret _ => true
  | i => i.growsStack

/-- The cause is one by which the instruction can fail while the stack pointer is inside. -/
structure StackCause (w : Window) (i : Instruction) (cause : Cause) : Prop where
  on_cells : i.usesStack = true → ∀ address, cause ≠ .addressOutOfRange address
  full : i.growsStack = true → ∀ sp, cause = .stackOverflow sp → sp = w.base
  empty : ∀ dst, i = .pop dst → ∀ sp, cause = .stackUnderflow sp → sp = w.top

variable {w : Window} {i : Instruction}

theorem stackCause_overflow : i.StackCause w (.stackOverflow w.base) :=
  ⟨by simp, fun _ _ same => (Cause.stackOverflow.inj same).symm, by simp⟩

theorem stackCause_jumpOutside (target : Word) : i.StackCause w (.jumpOutside target) :=
  ⟨by simp, by simp, by simp⟩

theorem stackCause_underflow : i.StackCause w (.stackUnderflow w.top) :=
  ⟨by simp, by simp, fun _ _ _ same => (Cause.stackUnderflow.inj same).symm⟩

theorem stackCause_ret {o : Operand} {cause : Cause}
    (elsewhere : ∀ address, cause ≠ .addressOutOfRange address) :
    (unary .ret o).StackCause w cause :=
  ⟨fun _ => elsewhere, by simp [growsStack], by simp⟩

theorem stackCause_of_unused (unused : i.usesStack = false) (cause : Cause) :
    i.StackCause w cause := by
  have room : i.growsStack = false := by
    cases i with
    | pop dst => rfl
    | unary op o => cases op <;> first | rfl | exact unused
    | _ => exact unused
  refine ⟨by simp [unused], by simp [room], ?_⟩
  rintro dst rfl
  cases unused

end Instruction

namespace Program

variable {p : Program}

def sparesSp (p : Program) : Bool :=
  p.lines.toList.all fun line =>
    match Instruction.decode line with
    | .ok (some i) => !i.setsSp
    | _ => true

theorem setsSp_of_decoded? (spares : p.sparesSp = true) {n : Nat} {i : Instruction}
    (found : p.decoded? n = some (.ok (some i))) : i.setsSp = false := by
  obtain ⟨line, here, decodes⟩ := Option.map_eq_some_iff.mp found
  have kept := List.all_eq_true.mp spares line (mem_of_line? here).val
  rw [decodes] at kept
  simpa using kept

end Program

namespace Machine

open RegisterMachine.Action Instruction

variable {m : Machine} {i : Instruction} {s : Store}

theorem performUnary_inStack (inside : s.InStack m.window) (pc : Nat) (o : Operand) (op : Unary) :
    (m.performUnary pc o op).Leads s (fun _ t => t.InStack m.window)
      (fun cause t => t.InStack m.window ∧ (unary op o).StackCause m.window cause) := by
  cases op with
  | push =>
    simp only [performUnary, leads_bind, leads_value, leads_pure]
    refine (push_inStack inside _).mono (fun _ _ pushed => pushed) ?_
    rintro cause t ⟨within, rfl⟩
    exact ⟨within, stackCause_overflow⟩
  | jmp => simp [performUnary, inside, stackCause_jumpOutside]
  | jpc => simp [performUnary, inside, stackCause_jumpOutside]
  | call =>
    simp only [performUnary, leads_bind, leads_value, leads_target, leads_pure]
    refine ⟨fun line _ => ?_, fun _ => ⟨inside, stackCause_jumpOutside _⟩⟩
    refine (push_inStack inside _).mono (fun _ _ pushed => pushed) ?_
    rintro cause t ⟨within, rfl⟩
    exact ⟨within, stackCause_overflow⟩
  | ret =>
    simp only [performUnary, leads_bind, leads_value, leads_target, leads_pure]
    refine (pop_inStack inside).mono (fun x t popped => ?_) ?_
    · refine ⟨fun line _ => ?_, fun _ => ⟨popped, stackCause_jumpOutside x⟩⟩
      refine (discard_inStack popped _).mono (fun _ _ moved => moved) ?_
      intro cause t stopped
      exact ⟨stopped.1, stackCause_ret stopped.2⟩
    · rintro cause t ⟨within, rfl⟩
      exact ⟨within, stackCause_ret (by simp)⟩
  | print => simpa [performUnary] using inside

theorem performNullary_inStack (inside : s.InStack m.window) (pc : Nat) (op : Nullary) :
    (m.performNullary pc op).Leads s (fun _ t => t.InStack m.window)
      (fun cause t => t.InStack m.window ∧ (nullary op).StackCause m.window cause) := by
  have result (x : Word) := setRegister_inStack inside (r := .c) (by simp) x
  cases op with
  | pushUp =>
    simp only [performNullary, leads_bind, leads_pure]
    refine (reserve_inStack inside).mono (fun _ _ reserved => reserved.1) ?_
    rintro cause t ⟨within, rfl⟩
    exact ⟨within, stackCause_overflow⟩
  | arith op =>
    simp only [performNullary, leads_bind, leads_get]
    split
    · exact result _
    · exact ⟨inside, stackCause_of_unused rfl _⟩
  | cmpOdd => exact result _
  | cmp op => exact result _
  | println => exact inside
  | debug => exact inside
  | halt => exact inside

theorem perform_inStack (inside : s.InStack m.window) (pc : Nat) (spares : i.setsSp = false) :
    (m.perform pc i).Leads s (fun _ t => t.InStack m.window)
      (fun cause t => t.InStack m.window ∧ i.StackCause m.window cause) := by
  cases i with
  | load dst src =>
    have other : dst ≠ .sp := by
      rintro rfl
      cases spares
    have loaded (x : Word) := setRegister_inStack inside other x
    simp [perform, loaded, inside, stackCause_of_unused (i := load dst src) rfl]
  | store value address =>
    have covers (e : Write) := inside.covers.writeAll [e]
    have stored (e : Write) : Store.InStack m.window
        { s with memory := s.memory.write e.address e.value } :=
      ⟨covers e, inside.base_le, inside.le_top⟩
    simpa [perform, inside, stackCause_of_unused (i := store value address) rfl] using
      fun _ => stored ⟨_, _⟩
  | pop dst =>
    have other : dst ≠ .sp := by
      rintro rfl
      cases spares
    simp only [perform, leads_bind, leads_setRegister, leads_pure]
    refine (pop_inStack inside).mono (fun x t popped => setRegister_inStack popped other x) ?_
    rintro cause t ⟨within, rfl⟩
    exact ⟨within, stackCause_underflow⟩
  | unary op o => exact performUnary_inStack inside pc o op
  | nullary op => exact performNullary_inStack inside pc op

theorem turn_inStack (spares : m.program.sparesSp = true) (scene : Scene)
    (inside : scene.state.store.InStack m.window) :
    (m.turn scene).scene.state.store.InStack m.window := by
  refine turn_keeps (fun pc i s found within => ?_) scene inside
  have kept := perform_inStack within pc (Program.setsSp_of_decoded? spares found)
  exact kept.mono (fun _ _ after => after) (fun _ _ after => after.1)

theorem turn_stackCause {scene left : Scene} {failure : Failure}
    (spares : m.program.sparesSp = true) (inside : scene.state.store.InStack m.window)
    (fails : m.turn scene = .fails failure left)
    (found : m.program.decoded? failure.line = some (.ok (some i))) :
    i.StackCause m.window failure.cause := by
  rw [(turn_eq_fails fails).1] at found
  rw [turn_of_instruction found] at fails
  obtain ⟨store, performed, -⟩ | refused := carryOut_eq_fails fails
  · have failed := perform_inStack inside scene.state.pc (Program.setsSp_of_decoded? spares found)
    exact (failed.of_error performed).2
  · rw [refused]
    exact ⟨by simp, by simp, by simp⟩

theorem initial_inStack (m : Machine) (ordered : m.window.base ≤ m.window.top) :
    m.initial.store.InStack m.window :=
  ⟨Memory.covers_zeros m.window, ordered, Int32.le_refl m.window.top⟩

def SpInside (m : Machine) (s : State) : Prop :=
  m.window.base ≤ s.store.bank.sp ∧ s.store.bank.sp ≤ m.window.top

/-- In a program that does not set the stack pointer, it is inside at every loop head and after every
return of any number of executions. So no instruction on the stack fails on an address, one that
needs room fails with the pointer at the base, and a pop of the empty stack with the pointer at the
top. -/
theorem stack_pointer_stays_inside (m : Machine) (base top : Word)
    (accepted : Window.checked base top = .ok m.window) (spares : m.program.sparesSp = true)
    (s : State) (reached : Reachable m s) :
    m.SpInside s ∧
    ∀ clock streams,
      (∀ n scene, LoopHead m clock ⟨s, streams⟩ n scene → m.SpInside scene.state) ∧
      ∀ fuel failure left, m.execute clock fuel s streams = some ⟨.error failure, left⟩ →
        m.SpInside left.state ∧
        ∀ i, m.program.decoded? failure.line = some (.ok (some i)) →
          (i.usesStack = true → ∀ address, failure.cause ≠ .addressOutOfRange address) ∧
          (i.growsStack = true → ∀ sp, failure.cause = .stackOverflow sp → sp = m.window.base) ∧
          (∀ dst, i = .pop dst → ∀ sp, failure.cause = .stackUnderflow sp → sp = m.window.top) := by
  have initially := m.initial_inStack (Window.base_le_top_of_checked accepted)
  have inside {t : State} (reached : Reachable m t) : t.store.InStack m.window :=
    reached.invariant (P := fun t => t.store.InStack m.window) (turn_inStack spares) initially
  have within {clock : Clock} {streams : Streams} {n : Nat} {scene : Scene}
      (head : LoopHead m clock ⟨s, streams⟩ n scene) : scene.state.store.InStack m.window :=
    head.invariant (P := fun t => t.store.InStack m.window) (turn_inStack spares) (inside reached)
  have bounds {t : Store} (stands : t.InStack m.window) := And.intro stands.base_le stands.le_top
  refine ⟨bounds (inside reached), fun clock streams => ⟨?_, ?_⟩⟩
  · intro n scene head
    exact bounds (within head)
  · intro fuel failure left run
    refine ⟨bounds (inside (reached.execute run)), fun i found => ?_⟩
    have cause : i.StackCause m.window failure.cause := by
      obtain ⟨n, head, -, passed, ⟨budget, -, rfl, -⟩ | ⟨-, fails⟩⟩ := execute_eq_error run
      · exact ⟨by simp, by simp, by simp⟩
      · exact turn_stackCause spares (within passed) fails found
    exact ⟨cause.on_cells, cause.full, cause.empty⟩

def overfull : Machine :=
  ofLines #["PUSH 7", "PUSHUP"] { window := ⟨5, 6⟩ }

theorem stack_pointer_stays_inside_when_full :
    ∃ s, Reachable overfull s ∧ overfull.SpInside s ∧ s.store.bank.sp = 5 ∧
      ∃ left sp, overfull.execute (fun _ => ⟨0⟩) 9 s {} =
          some ⟨.error ⟨2, .stackOverflow sp⟩, left⟩ ∧
        sp = overfull.window.base := by
  have first : overfull.execute (fun _ => ⟨0⟩) 9 overfull.initial {} =
      some ⟨.error ⟨2, .stackOverflow 5⟩,
        ⟨⟨⟨⟨0, 0, 0, 6, 5⟩, ⟨5, #[7]⟩⟩, 2, 2⟩, {}⟩⟩ := rfl
  have second : overfull.execute (fun _ => ⟨0⟩) 9 ⟨⟨⟨0, 0, 0, 6, 5⟩, ⟨5, #[7]⟩⟩, 2, 2⟩ {} =
      some ⟨.error ⟨2, .stackOverflow 5⟩,
        ⟨⟨⟨⟨0, 0, 0, 6, 5⟩, ⟨5, #[7]⟩⟩, 2, 3⟩, {}⟩⟩ := rfl
  have reached := Reachable.initial.execute first
  obtain ⟨inside, runs⟩ := stack_pointer_stays_inside overfull 5 6 rfl rfl _ reached
  obtain ⟨-, causes⟩ := (runs (fun _ => ⟨0⟩) {}).2 9 _ _ second
  exact ⟨_, reached, inside, rfl, _, _, second, (causes (.nullary .pushUp) rfl).2.1 rfl _ rfl⟩

end Machine

end RegisterMachine
