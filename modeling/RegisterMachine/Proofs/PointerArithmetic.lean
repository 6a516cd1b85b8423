import RegisterMachine.Proofs.StackPointer

/-! Addresses and the stack pointer in any window, also an empty one, one that is upside down, or one
that reaches the ends of the range of words. Memory covers the window throughout; what is checked of an
address or of the stack pointer is enough for the sums that follow to be those of the integers. -/

namespace RegisterMachine

/-- The word is this integer, with nothing lost to wrapping around. -/
structure Word.Represents (x : Word) (n : Int) : Prop where
  toInt_eq : x.toInt = n
  lower : -2147483648 ≤ n
  upper : n ≤ 2147483647

theorem Word.represents {x : Word} {n : Int} (same : x.toInt = n) : x.Represents n := by
  have bounds := toInt_bounds x
  exact ⟨same, by omega, by omega⟩

namespace Window

variable {w : Window} {x : Word}

def Contains (w : Window) (address : Word) : Prop :=
  w.base.toInt ≤ address.toInt ∧ address.toInt < w.top.toInt

def Room (w : Window) (sp : Word) : Prop :=
  w.base.toInt < sp.toInt ∧ sp.toInt ≤ w.top.toInt

instance (w : Window) (address : Word) : Decidable (w.Contains address) :=
  inferInstanceAs (Decidable (_ ∧ _))

theorem contains_iff : w.Contains x ↔ w.base ≤ x ∧ x < w.top := by
  rw [Contains, Int32.le_iff_toInt_le, Int32.lt_iff_toInt_lt]

theorem not_room_iff : ¬w.Room x ↔ x ≤ w.base ∨ w.top < x := by
  rw [Room, Int32.le_iff_toInt_le, Int32.lt_iff_toInt_lt]
  omega

theorem Room.sub_one (room : w.Room x) : (x - 1).toInt = x.toInt - 1 ∧ w.Contains (x - 1) := by
  obtain ⟨above, below⟩ := room
  have moved := Word.toInt_sub_one (Int32.lt_iff_toInt_lt.mpr above)
  refine ⟨moved, ?_⟩
  rw [Contains, moved]
  omega

end Window

namespace Memory.Covers

variable {m : Memory} {w : Window} {address : Word}

theorem contains_eq (covers : m.Covers w) : m.contains address = true ↔ w.Contains address := by
  rw [covers.contains_iff, Window.contains_iff]

theorem isSome_read?_iff (covers : m.Covers w) :
    (m.read? address).isSome = true ↔ w.Contains address := by
  rw [isSome_read?, covers.contains_eq]

theorem size_eq (covers : m.Covers w) : (m.size : Int) = max 0 (w.top.toInt - w.base.toInt) := by
  rw [covers.2, Window.cells]
  omega

theorem index_eq (covers : m.Covers w) (inside : w.Contains address) :
    m.index address < m.size ∧ (m.index address : Int) = address.toInt - w.base.toInt := by
  refine ⟨index_lt_size (covers.contains_eq.mpr inside), ?_⟩
  have low := inside.1
  rw [index, covers.1]
  omega

end Memory.Covers

namespace Action

variable {w : Window} {s : Store}

theorem reserve_exact (w : Window) (s : Store) :
    (reserve w).Leads s
      (fun _ t => w.Room s.bank.sp ∧ t = { s with bank.sp := s.bank.sp - 1 } ∧
        t.bank.sp.Represents (s.bank.sp.toInt - 1))
      (fun cause t => ¬w.Room s.bank.sp ∧ cause = .stackOverflow s.bank.sp ∧ t = s) := by
  rw [leads_reserve]
  refine ⟨fun full => ⟨Window.not_room_iff.mpr full, rfl, rfl⟩, fun free => ?_⟩
  have room : w.Room s.bank.sp := by
    rw [← Window.not_room_iff] at free
    exact Classical.not_not.mp free
  exact ⟨room, rfl, Word.represents room.sub_one.1⟩

theorem pop_exact (w : Window) (s : Store) :
    (pop w).Leads s
      (fun _ t => t = { s with bank.sp := s.bank.sp + 1 } ∧
        t.bank.sp.Represents (s.bank.sp.toInt + 1))
      (fun _ t => t = s) := by
  rw [leads_pop]
  refine ⟨fun _ => rfl, fun filled => ⟨fun x _ => ⟨rfl, ?_⟩, fun _ => rfl⟩⟩
  exact Word.represents (Word.toInt_add_one (Int32.not_le.mp filled))

theorem discard_exact (w : Window) (count : Word) (s : Store) :
    (discard w count).Leads s
      (fun _ t => t.bank.sp.Represents (s.bank.sp.toInt + count.toInt)) (fun _ t => t = s) := by
  rw [leads_discard]
  refine ⟨fun _ => rfl, fun below => ⟨fun _ => rfl, fun above => ?_⟩⟩
  have low := (Word.toInt_bounds w.base).1
  have high := (Word.toInt_bounds w.top).2
  exact Word.represents (Int32.toInt_ofInt_of_le (by omega) (by omega))

theorem push_exact (covers : s.memory.Covers w) (x : Word) :
    (push w x).Leads s
      (fun _ t => w.Room s.bank.sp ∧ t.bank.sp.Represents (s.bank.sp.toInt - 1) ∧
        t.memory.read? t.bank.sp = some x)
      (fun cause _ => ¬w.Room s.bank.sp ∧ cause = .stackOverflow s.bank.sp) := by
  rw [push, leads_bind]
  refine (reserve_exact w s).mono (fun _ t reserved => ?_) fun _ _ full => ⟨full.1, full.2.1⟩
  obtain ⟨room, rfl, moved⟩ := reserved
  have contained := covers.contains_eq.mpr room.sub_one.2
  simp only [leads_bind, leads_get, leads_write, contained]
  refine ⟨fun _ => ⟨room, moved, ?_⟩, fun outside => by cases outside⟩
  rw [Memory.read?_write, if_pos ⟨rfl, contained⟩]

end Action

namespace Instruction

/-- The integer that the stack pointer is moved to by an instruction of the stack that is carried out.
A return moves it twice, and its operand sees the first move; a pop into the stack pointer overwrites
it. -/
def spAfter? (bank : Bank) : Instruction → Option Int
  | .unary .push _ | .unary .call _ | .nullary .pushUp => some (bank.sp.toInt - 1)
  | .pop dst => if dst = .sp then none else some (bank.sp.toInt + 1)
  | .unary .ret o =>
      some (bank.sp.toInt + 1 + (o.expr.eval { bank with sp := bank.sp + 1 }).toInt)
  | _ => none

def isPush : Instruction → Bool
  | .unary .push _ | .unary .call _ => true
  | _ => false

def cell? (bank : Bank) : Instruction → Option Word
  | .load _ src => if src.isBare then none else some (src.expr.eval bank)
  | .store _ address => some (address.expr.eval bank)
  | _ => none

end Instruction

namespace Machine

open RegisterMachine.Action

variable {m : Machine} {s : Store} {scene : Scene} {i : Instruction}

def HasRoom (m : Machine) (i : Instruction) (bank : Bank) : Prop :=
  m.window.Room bank.sp ∧
    ∀ o, i.jumpTarget? = some o → (m.program.target? (o.expr.eval bank)).isSome = true

theorem turn_covers (m : Machine) (scene : Scene)
    (covers : scene.state.store.memory.Covers m.window) :
    (m.turn scene).scene.state.store.memory.Covers m.window := by
  refine turn_keeps (P := fun s => s.memory.Covers m.window) (fun pc i s _ before => ?_) scene covers
  refine (m.perform_memory pc i s).mono (fun _ t after => ?_) fun _ t after => ?_
  · rw [after.1]
    exact before.writeAll _
  · rw [after]
    exact before

section Instructions

variable (covers : s.memory.Covers m.window) (pc : Nat)
include covers

theorem perform_cell {address : Word} (cell : i.cell? s.bank = some address) :
    (m.perform pc i).Leads s (fun flow _ => flow = .next ∧ m.window.Contains address)
      (fun cause _ => ¬m.window.Contains address ∧ cause = .addressOutOfRange address) := by
  cases i with
  | load dst src =>
    cases bare : src.isBare with
    | true =>
      rw [Instruction.cell?, if_pos bare] at cell
      cases cell
    | false =>
      rw [Instruction.cell?, if_neg (by simp [bare])] at cell
      cases cell
      simp only [← covers.isSome_read?_iff, perform, leads_bind, leads_source, bare, leads_read]
      simp +contextual
  | store value address =>
    cases cell
    simp only [← covers.contains_eq, perform, leads_bind, leads_value, leads_write]
    simp +contextual
  | _ => cases cell

theorem perform_push (push : i.isPush = true) :
    (m.perform pc i).Leads s
      (fun flow t => (flow = .next ∨ ∃ line, flow = .jump line) ∧ m.HasRoom i s.bank ∧
        t.memory.read? t.bank.sp = (i.write? pc s.bank).map (·.value))
      (fun cause _ => ¬m.HasRoom i s.bank ∧ ∀ address, cause ≠ .addressOutOfRange address) := by
  cases i with
  | unary op o =>
    cases op with
    | push =>
      simp only [perform, performUnary, leads_bind, leads_value, leads_pure]
      refine (push_exact covers _).mono (fun _ t pushed => ?_) fun cause _ full => ?_
      · exact ⟨.inl trivial, ⟨pushed.1, by simp [Instruction.jumpTarget?]⟩, pushed.2.2⟩
      · exact ⟨fun room => full.1 room.1, by simp [full.2]⟩
    | call =>
      simp only [perform, performUnary, leads_bind, leads_value, leads_target, leads_pure]
      refine ⟨fun line found => ?_, fun outside => ⟨fun room => ?_, by simp⟩⟩
      · refine (push_exact covers _).mono (fun _ t pushed => ?_) fun cause _ full => ?_
        · refine ⟨.inr ⟨line, rfl⟩, ⟨pushed.1, ?_⟩, pushed.2.2⟩
          rintro o ⟨⟩
          rw [found]
          rfl
        · exact ⟨fun room => full.1 room.1, by simp [full.2]⟩
      · have inside := room.2 o rfl
        rw [outside] at inside
        cases inside
    | _ => cases push
  | _ => cases push

theorem perform_sp {n : Int} (moves : i.spAfter? s.bank = some n) :
    (m.perform pc i).Leads s (fun _ t => t.bank.sp.Represents n) (fun _ _ => True) := by
  have pushed (x : Word) : (push m.window x).Leads s
      (fun _ t => t.bank.sp.Represents (s.bank.sp.toInt - 1)) (fun _ _ => True) :=
    (push_exact covers x).mono (fun _ _ after => after.2.1) fun _ _ _ => trivial
  cases i with
  | pop dst =>
    by_cases same : dst = .sp
    · rw [Instruction.spAfter?, if_pos same] at moves
      cases moves
    · rw [Instruction.spAfter?, if_neg same] at moves
      cases moves
      simp only [perform, leads_bind, leads_setRegister, leads_pure]
      refine (pop_exact _ s).mono (fun x t popped => ?_) fun _ _ _ => trivial
      rw [t.bank.sp_set same x]
      exact popped.2
  | unary op o =>
    cases op with
    | push =>
      cases moves
      simp only [perform, performUnary, leads_bind, leads_value, leads_pure]
      exact pushed _
    | call =>
      cases moves
      simp only [perform, performUnary, leads_bind, leads_value, leads_target, leads_pure]
      exact ⟨fun line _ => pushed _, fun _ => trivial⟩
    | ret =>
      cases moves
      simp only [perform, performUnary, leads_bind, leads_value, leads_target, leads_pure]
      refine (pop_exact _ s).mono (fun x t popped => ?_) fun _ _ _ => trivial
      refine ⟨fun line _ => ?_, fun _ => trivial⟩
      obtain ⟨rfl, moved⟩ := popped
      rw [← moved.toInt_eq]
      exact (discard_exact _ _ _).mono (fun _ _ after => after) fun _ _ _ => trivial
    | _ => cases moves
  | nullary op =>
    cases op with
    | pushUp =>
      cases moves
      simp only [perform, performNullary, leads_bind, leads_pure]
      exact (reserve_exact _ s).mono (fun _ _ reserved => reserved.2.2) fun _ _ _ => trivial
    | _ => cases moves
  | _ => cases moves

end Instructions

section Turns

variable (found : m.program.decoded? scene.state.pc = some (.ok (some i)))
include found

theorem goes_iff {c : Prop}
    (leads : (m.perform scene.state.pc i).Leads scene.state.store
      (fun flow _ => (flow = .next ∨ ∃ line, flow = .jump line) ∧ c) (fun _ _ => ¬c)) :
    (∃ next, m.turn scene = .goes next) ↔ c := by
  rw [turn_of_instruction found, carryOut]
  cases performed : m.perform scene.state.pc i scene.state.store with
  | error cause store =>
    have refused := leads.of_error performed
    refine ⟨?_, fun holds => (refused holds).elim⟩
    rintro ⟨next, goes⟩
    cases goes
  | ok flow store =>
    obtain ⟨rfl | ⟨line, rfl⟩, holds⟩ := leads.of_ok performed
    · exact ⟨fun _ => holds, fun _ => ⟨_, rfl⟩⟩
    · exact ⟨fun _ => holds, fun _ => ⟨_, rfl⟩⟩

theorem leads_of_goes {next : Scene} (goes : m.turn scene = .goes next)
    {done : Flow → Store → Prop} {failed : Cause → Store → Prop}
    (leads : (m.perform scene.state.pc i).Leads scene.state.store done failed) :
    ∃ flow, done flow next.state.store := by
  rw [turn_of_instruction found] at goes
  obtain ⟨flow, performed, -⟩ := carryOut_eq_goes goes
  exact ⟨flow, leads.of_ok performed⟩

theorem leads_of_fails {failure : Failure} {left : Scene} (fails : m.turn scene = .fails failure left)
    {done : Flow → Store → Prop} {failed : Cause → Store → Prop}
    (leads : (m.perform scene.state.pc i).Leads scene.state.store done failed) :
    (∃ store, failed failure.cause store) ∨ failure.cause = .output Sink.refusal := by
  rw [turn_of_instruction found] at fails
  obtain ⟨store, performed, -⟩ | refused := carryOut_eq_fails fails
  · exact .inl ⟨store, leads.of_error performed⟩
  · exact .inr refused

end Turns

theorem LoopHead.covers {s : State} {clock : Clock} {streams : Streams} {n : Nat}
    (head : LoopHead m clock ⟨s, streams⟩ n scene) (reached : Reachable m s) :
    scene.state.store.memory.Covers m.window := by
  have before : s.store.memory.Covers m.window :=
    reached.invariant (P := fun t => t.store.memory.Covers m.window) m.turn_covers
      (Memory.covers_zeros m.window)
  exact head.invariant (P := fun t => t.store.memory.Covers m.window) m.turn_covers before

/-- Whatever the window, memory covers it at every loop head of every execution, and cells are found
by their distance from its base. A load, a store or a look at a cell succeeds exactly on an address of
the window. Wherever the stack pointer is moved by a push, a pop or a discard, also in an instruction
that goes on to fail, it moves to the integer that is meant. A push or a call that has room writes its
cell, and none of them fails on an address. -/
theorem pointer_arithmetic_is_exact (m : Machine) (s : State) (reached : Reachable m s)
    (clock : Clock) (streams : Streams) (n : Nat) (scene : Scene)
    (head : LoopHead m clock ⟨s, streams⟩ n scene) :
    let store := scene.state.store
    (store.memory.base = m.window.base ∧
      (store.memory.size : Int) = max 0 (m.window.top.toInt - m.window.base.toInt)) ∧
    (∀ address,
      ((store.memory.read? address).isSome = true ↔ m.window.Contains address) ∧
      (m.window.Contains address → store.memory.index address < store.memory.size ∧
        (store.memory.index address : Int) = address.toInt - m.window.base.toInt)) ∧
    (∀ i, m.program.decoded? scene.state.pc = some (.ok (some i)) →
      (∀ address, i.cell? store.bank = some address →
        ((∃ next, m.turn scene = .goes next) ↔ m.window.Contains address)) ∧
      (i.isPush = true →
        ((∃ next, m.turn scene = .goes next) ↔ m.HasRoom i store.bank) ∧
        (∀ next, m.turn scene = .goes next → next.state.store.memory.read? next.state.store.bank.sp =
          (i.write? scene.state.pc store.bank).map (·.value)) ∧
        ∀ failure left, m.turn scene = .fails failure left →
          ∀ address, failure.cause ≠ .addressOutOfRange address) ∧
      ∀ k, i.spAfter? store.bank = some k → ∀ next, m.turn scene = .goes next →
        next.state.store.bank.sp.Represents k) ∧
    ∀ t : Store,
      (Action.reserve m.window).Leads t
        (fun _ u => u.bank.sp.Represents (t.bank.sp.toInt - 1)) (fun _ u => u = t) ∧
      (Action.pop m.window).Leads t
        (fun _ u => u.bank.sp.Represents (t.bank.sp.toInt + 1)) (fun _ u => u = t) ∧
      ∀ count, (Action.discard m.window count).Leads t
        (fun _ u => u.bank.sp.Represents (t.bank.sp.toInt + count.toInt)) (fun _ u => u = t) := by
  have covers := head.covers reached
  refine ⟨⟨covers.1, covers.size_eq⟩, fun address => ⟨covers.isSome_read?_iff, covers.index_eq⟩,
    fun i found => ⟨fun address cell => ?_, fun push => ?_, fun k moves next goes => ?_⟩,
    fun t => ⟨?_, ?_, fun count => ?_⟩⟩
  · refine goes_iff found ((perform_cell covers _ cell).mono (fun _ _ after => ?_) ?_)
    · exact ⟨.inl after.1, after.2⟩
    · exact fun _ _ failed => failed.1
  · have pushed := perform_push covers scene.state.pc push
    refine ⟨goes_iff found ?_, fun next goes => ?_, fun failure left fails => ?_⟩
    · exact pushed.mono (fun _ _ after => ⟨after.1, after.2.1⟩) fun _ _ failed => failed.1
    · obtain ⟨flow, -, -, written⟩ := leads_of_goes found goes pushed
      exact written
    · obtain ⟨store, -, elsewhere⟩ | refused := leads_of_fails found fails pushed
      · exact elsewhere
      · simp [refused]
  · obtain ⟨flow, moved⟩ := leads_of_goes found goes (perform_sp covers scene.state.pc moves)
    exact moved
  · exact (Action.reserve_exact _ t).mono (fun _ _ after => after.2.2) fun _ _ failed => failed.2.2
  · exact (Action.pop_exact _ t).mono (fun _ _ after => after.2) fun _ _ failed => failed
  · exact Action.discard_exact _ count t

def lastCell : Machine :=
  ofLines #["PUSH 7", "POP A"] { window := ⟨2147483646, 2147483647⟩ }

theorem pointer_arithmetic_is_exact_at_last_cell :
    ∃ scene next, LoopHead lastCell (fun _ => ⟨0⟩) ⟨lastCell.initial, {}⟩ 1 scene ∧
      (scene.state.store.memory.read? 2147483646).isSome = true ∧
      (scene.state.store.memory.read? 2147483647).isSome = false ∧
      lastCell.turn scene = .goes next ∧ next.state.store.bank.sp.Represents 2147483647 := by
  let pushed : Scene :=
    ⟨⟨⟨⟨0, 0, 0, 2147483647, 2147483646⟩, ⟨2147483646, #[7]⟩⟩, 2, 1⟩, {}⟩
  let popped : Scene :=
    ⟨⟨⟨⟨7, 0, 0, 2147483647, 2147483647⟩, ⟨2147483646, #[7]⟩⟩, 3, 2⟩, {}⟩
  have head : LoopHead lastCell (fun _ => ⟨0⟩) ⟨lastCell.initial, {}⟩ 1 pushed :=
    LoopHead.start.goes rfl
  have found : lastCell.program.decoded? 2 = some (.ok (some (.pop .a))) := rfl
  have goes : lastCell.turn pushed = .goes popped := rfl
  obtain ⟨-, cells, instructions, -⟩ :=
    pointer_arithmetic_is_exact lastCell _ .initial _ {} 1 pushed head
  refine ⟨pushed, popped, head, (cells _).1.mpr (by decide), ?_, goes, ?_⟩
  · rw [← Bool.not_eq_true, (cells _).1]
    decide
  · exact (instructions _ found).2.2 _ rfl popped goes

end Machine

end RegisterMachine
