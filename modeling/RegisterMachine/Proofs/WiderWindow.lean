import RegisterMachine.Proofs.Simulation
import RegisterMachine.Proofs.Writes

/-! A window with more cells below. The checks that a machine makes are on the stack pointer and on
addresses, and a check that passes in a window passes in every window that reaches further down. So a
run that does not run out of memory is the same run there, and the cells it did not have stay zero. -/

namespace RegisterMachine

def Cause.OutOfMemory : Cause → Prop
  | .addressOutOfRange _ | .stackOverflow _ => True
  | _ => False

/-- The second store has the registers and the cells of the first, and zeros below them. -/
structure Store.Wider (w w' : Window) (s t : Store) : Prop where
  bank : s.bank = t.bank
  covers : s.memory.Covers w
  covers' : t.memory.Covers w'
  same : ∀ address, w.base ≤ address → address < w.top →
    s.memory.read? address = t.memory.read? address
  zero : ∀ address, w'.base ≤ address → address < w.base → t.memory.read? address = some 0

namespace Store.Wider

variable {w w' : Window} {s t : Store}

theorem withBank (wider : Wider w w' s t) {bank bank' : Bank} (same : bank = bank') :
    Wider w w' { s with bank } { t with bank := bank' } :=
  ⟨same, wider.covers, wider.covers', wider.same, wider.zero⟩

theorem read? (wider : Wider w w' s t) {address x : Word}
    (found : s.memory.read? address = some x) : t.memory.read? address = some x := by
  obtain ⟨low, high⟩ := wider.covers.inside_of_read? found
  rw [← wider.same address low high, found]

theorem contains (wider : Wider w w' s t) {address : Word}
    (inside : s.memory.contains address = true) : t.memory.contains address = true := by
  rw [← Memory.isSome_read?, Option.isSome_iff_exists] at inside ⊢
  obtain ⟨x, found⟩ := inside
  exact ⟨x, wider.read? found⟩

theorem write (wider : Wider w w' s t) {address : Word}
    (inside : s.memory.contains address = true) (x : Word) :
    Wider w w' { s with memory := s.memory.write address x }
      { t with memory := t.memory.write address x } := by
  have bounds := wider.covers.contains_iff.mp inside
  refine ⟨wider.bank, wider.covers.writeAll [⟨address, x⟩], wider.covers'.writeAll [⟨address, x⟩],
    fun other low high => ?_, fun other low below => ?_⟩
  · simp only [Memory.read?_write, inside, wider.contains inside, wider.same other low high]
  · -- A written address is one of the narrow window, and so none of the new ones.
    have apart : other ≠ address := by
      rintro rfl
      exact Int32.not_lt.mpr bounds.1 below
    simp [Memory.read?_write, apart, wider.zero other low below]

end Store.Wider

theorem Store.wider_initial {w w' : Window} (lower : w'.base ≤ w.base) (top : w.top = w'.top)
    (ordered : w.base ≤ w.top) : Wider w w' (Store.initial w) (Store.initial w') where
  bank := congrArg Bank.initial top
  covers := Memory.covers_zeros w
  covers' := Memory.covers_zeros w'
  same _ low high := by
    have zero := Memory.read?_zeros low high
    have zero' := Memory.read?_zeros (Int32.le_trans lower low) (top ▸ high)
    exact zero.trans zero'.symm
  zero _ low below := Memory.read?_zeros low (top ▸ Int32.lt_of_lt_of_le below ordered)

namespace Action

open Store

variable {w w' : Window} {s t : Store} (wider : Wider w w' s t)
include wider

theorem value_wider (o : Operand) :
    Matches (Wider w w') Eq Cause.OutOfMemory (value o) (value o) s t :=
  ⟨_, t, rfl, congrArg o.expr.eval wider.bank, wider⟩

theorem setRegister_wider (r : Register) (x : Word) :
    Matches (Wider w w') Eq Cause.OutOfMemory (setRegister r x) (setRegister r x) s t :=
  ⟨(), _, rfl, rfl, wider.withBank (congrArg (·.set r x) wider.bank)⟩

theorem read_wider (address : Word) :
    Matches (Wider w w') Eq Cause.OutOfMemory (read address) (read address) s t := by
  rw [Matches, leads_read]
  refine ⟨fun x found => ⟨x, t, ?_, rfl, wider⟩, fun _ => .inl trivial⟩
  rw [read, wider.read? found]

theorem write_wider (address x : Word) :
    Matches (Wider w w') Eq Cause.OutOfMemory (write address x) (write address x) s t := by
  rw [Matches, leads_write]
  refine ⟨fun inside => ⟨(), _, ?_, rfl, wider.write inside x⟩, fun _ => .inl trivial⟩
  rw [write, if_pos (wider.contains inside)]

theorem source_wider (o : Operand) :
    Matches (Wider w w') Eq Cause.OutOfMemory (source o) (source o) s t := by
  refine (value_wider wider o).bind_same fun x s t wider => ?_
  exact .ite Iff.rfl (fun _ => .pure rfl wider) (fun _ => read_wider wider x)

theorem target_wider (p : Program) (x : Word) :
    Matches (Wider w w') Eq Cause.OutOfMemory (target p x) (target p x) s t := by
  rw [Matches, leads_target]
  refine ⟨fun line found => ⟨line, t, ?_, rfl, wider⟩, fun outside => .inr ⟨t, ?_, wider⟩⟩
  · rw [target, found]
  · rw [target, outside]

theorem jump_wider (p : Program) (o : Operand) :
    Matches (Wider w w') Flow.Like Cause.OutOfMemory
      (do return .jump (← target p (← value o))) (do return .jump (← target p (← value o))) s t := by
  refine (value_wider wider o).bind_same fun x s t wider => ?_
  refine (target_wider wider p x).bind_same fun line s t wider => ?_
  exact .pure (.refl _) wider

section Stack

variable (top : w.top = w'.top)
include top

theorem pop_wider :
    Matches (Wider w w') Eq Cause.OutOfMemory (pop w) (pop w') s t := by
  refine (Matches.get wider).bind fun a b s t same wider => ?_
  rw [same.bank, top]
  refine .ite Iff.rfl (fun _ => .throw _ wider) fun _ => ?_
  refine (read_wider wider b.bank.sp).bind_same fun x s t wider => ?_
  refine (setRegister_wider wider .sp (b.bank.sp + 1)).bind_same fun _ s t wider => ?_
  exact .pure rfl wider

variable (lower : w'.base ≤ w.base)
include lower

theorem reserve_wider :
    Matches (Wider w w') Eq Cause.OutOfMemory (reserve w) (reserve w') s t := by
  rw [Matches, leads_reserve]
  refine ⟨fun _ => .inl trivial, fun room => ?_⟩
  have room' : ¬(t.bank.sp ≤ w'.base ∨ w'.top < t.bank.sp) := by
    rw [← wider.bank, ← top]
    rintro (full | above)
    · exact room (.inl (Int32.le_trans full lower))
    · exact room (.inr above)
  refine ⟨(), _, if_neg room', rfl, wider.withBank ?_⟩
  rw [wider.bank]

theorem push_wider (x : Word) :
    Matches (Wider w w') Eq Cause.OutOfMemory (push w x) (push w' x) s t := by
  refine (reserve_wider wider top lower).bind_same fun _ s t wider => ?_
  refine (Matches.get wider).bind fun a b s t same wider => ?_
  rw [same.bank]
  exact write_wider wider b.bank.sp x

theorem discard_wider (count : Word) :
    Matches (Wider w w') Eq Cause.OutOfMemory (discard w count) (discard w' count) s t := by
  rw [Matches, leads_discard, wider.bank, top]
  refine ⟨fun past => .inr ⟨t, if_pos past, wider⟩,
    fun below => ⟨fun _ => .inl trivial, fun above => ?_⟩⟩
  rw [Int32.le_iff_toInt_le] at lower
  have above' : ¬t.bank.sp.toInt + count.toInt < w'.base.toInt := by omega
  exact ⟨(), _, (if_neg below).trans (if_neg above'), rfl, wider.withBank rfl⟩

end Stack

end Action

namespace Machine

open Store RegisterMachine.Action

variable {p : Program} {w w' : Window} {budget budget' : Option Duration} {s t : Store}
  (top : w.top = w'.top) (lower : w'.base ≤ w.base)
include top lower

theorem performNullary_wider (pc : Nat) (op : Nullary) (wider : Wider w w' s t) :
    Action.Matches (Wider w w') Flow.Like Cause.OutOfMemory
      ((⟨p, ⟨w, budget⟩⟩ : Machine).performNullary pc op)
      ((⟨p, ⟨w', budget'⟩⟩ : Machine).performNullary pc op) s t := by
  cases op with
  | pushUp =>
    exact (reserve_wider wider top lower).bind_same fun _ _ _ wider => .pure (.refl _) wider
  | arith op =>
    refine (Matches.get wider).bind fun a b s t same wider => ?_
    rw [same.bank]
    dsimp only
    split
    · exact (setRegister_wider wider .c _).bind_same fun _ _ _ wider => .pure (.refl _) wider
    · exact .throw _ wider
  | cmpOdd =>
    refine (Matches.get wider).bind fun a b s t same wider => ?_
    rw [same.bank]
    exact (setRegister_wider wider .c _).bind_same fun _ _ _ wider => .pure (.refl _) wider
  | cmp op =>
    refine (Matches.get wider).bind fun a b s t same wider => ?_
    rw [same.bank]
    exact (setRegister_wider wider .c _).bind_same fun _ _ _ wider => .pure (.refl _) wider
  | println => exact .pure (.refl _) wider
  | debug => exact (Matches.get wider).bind fun _ _ _ _ _ wider => .pure trivial wider
  | halt => exact .pure (.refl _) wider

theorem performUnary_wider (pc : Nat) (o : Operand) (op : Unary) (wider : Wider w w' s t) :
    Action.Matches (Wider w w') Flow.Like Cause.OutOfMemory
      ((⟨p, ⟨w, budget⟩⟩ : Machine).performUnary pc o op)
      ((⟨p, ⟨w', budget'⟩⟩ : Machine).performUnary pc o op) s t := by
  cases op with
  | push =>
    refine (value_wider wider o).bind_same fun x s t wider => ?_
    exact (push_wider wider top lower x).bind_same fun _ _ _ wider => .pure (.refl _) wider
  | jmp => exact jump_wider wider p o
  | jpc =>
    refine (Matches.get wider).bind fun a b s t same wider => ?_
    rw [same.bank]
    exact .ite Iff.rfl (fun _ => jump_wider wider p o) (fun _ => .pure (.refl _) wider)
  | call =>
    refine (value_wider wider o).bind_same fun x s t wider => ?_
    refine (target_wider wider p x).bind_same fun line s t wider => ?_
    exact (push_wider wider top lower _).bind_same fun _ _ _ wider => .pure (.refl _) wider
  | ret =>
    refine (pop_wider wider top).bind_same fun x s t wider => ?_
    refine (target_wider wider p x).bind_same fun line s t wider => ?_
    refine (value_wider wider o).bind_same fun count s t wider => ?_
    exact (discard_wider wider top lower count).bind_same fun _ _ _ wider => .pure (.refl _) wider
  | print =>
    refine (value_wider wider o).bind_same fun x s t wider => ?_
    exact .pure (.refl _) wider

theorem perform_wider (pc : Nat) (i : Instruction) (wider : Wider w w' s t) :
    Action.Matches (Wider w w') Flow.Like Cause.OutOfMemory
      ((⟨p, ⟨w, budget⟩⟩ : Machine).perform pc i)
      ((⟨p, ⟨w', budget'⟩⟩ : Machine).perform pc i) s t := by
  cases i with
  | load dst src =>
    refine (source_wider wider src).bind_same fun x s t wider => ?_
    exact (setRegister_wider wider dst x).bind_same fun _ _ _ wider => .pure (.refl _) wider
  | store o address =>
    refine (value_wider wider address).bind_same fun cell s t wider => ?_
    refine (value_wider wider o).bind_same fun x s t wider => ?_
    exact (write_wider wider cell x).bind_same fun _ _ _ wider => .pure (.refl _) wider
  | pop dst =>
    refine (pop_wider wider top).bind_same fun x s t wider => ?_
    exact (setRegister_wider wider dst x).bind_same fun _ _ _ wider => .pure (.refl _) wider
  | unary op o => exact performUnary_wider top lower pc o op wider
  | nullary op => exact performNullary_wider top lower pc op wider

theorem simulates_wider :
    Simulates ⟨p, ⟨w, none⟩⟩ ⟨p, ⟨w', none⟩⟩ (Scene.Like (Wider w w')) id Cause.OutOfMemory := by
  refine simulates_of_lines rfl rfl fun n => ?_
  cases found : p.decoded? n with
  | none => exact .missing found found
  | some line =>
    cases line with
    | error e => exact .undecodable e e found found rfl
    | ok i =>
      cases i with
      | none => exact .empty found found
      | some i => exact .instruction i i found found fun _ _ => perform_wider top lower n i

omit top lower

/-- A run that ends for another reason than a lack of memory ends in the same way in a window that
reaches further down. It leaves the same registers and the same cells, and zeros in the cells that are
new. -/
theorem more_memory_keeps_run (p : Program) {base base' max : Word} (lower : base' ≤ base)
    (accepted : Window.checked base max = .ok w) (accepted' : Window.checked base' max = .ok w')
    (out diag diag' : Sink) (unlimited : diag.limit = none) (unlimited' : diag'.limit = none)
    (clock clock' : Clock) {fuel : Nat} {ending : Ending}
    (run : (⟨p, ⟨w, none⟩⟩ : Machine).execute clock fuel (initial ⟨p, ⟨w, none⟩⟩) ⟨out, diag⟩ =
      some ending)
    (enough : ∀ failure, ending.outcome = .error failure → ¬failure.cause.OutOfMemory) :
    ∃ ending',
      (⟨p, ⟨w', none⟩⟩ : Machine).execute clock' fuel (initial ⟨p, ⟨w', none⟩⟩) ⟨out, diag'⟩ =
        some ending' ∧
      ending'.outcome = ending.outcome ∧
      ending'.scene.streams.out = ending.scene.streams.out ∧
      ending'.scene.state.pc = ending.scene.state.pc ∧
      ending'.scene.state.steps = ending.scene.state.steps ∧
      ending'.scene.state.store.bank = ending.scene.state.store.bank ∧
      (∀ address, base ≤ address → address < max →
        ∃ x, ending.scene.state.store.memory.read? address = some x ∧
          ending'.scene.state.store.memory.read? address = some x) ∧
      ∀ address, base' ≤ address → address < base →
        ending'.scene.state.store.memory.read? address = some 0 := by
  obtain ⟨rfl, below, -⟩ := Window.checked_eq_ok accepted
  obtain ⟨rfl, -, -⟩ := Window.checked_eq_ok accepted'
  have start : Scene.Like (Wider ⟨base, max⟩ ⟨base', max⟩)
      ⟨initial ⟨p, ⟨⟨base, max⟩, none⟩⟩, ⟨out, diag⟩⟩
      ⟨initial ⟨p, ⟨⟨base', max⟩, none⟩⟩, ⟨out, diag'⟩⟩ :=
    ⟨wider_initial lower rfl (Int32.le_of_lt below), rfl, rfl, rfl, unlimited, unlimited'⟩
  have outcome := outcome_of_execute run
  have told : ∀ failure, ending.failure? = some failure → ¬failure.cause.OutOfMemory := by
    intro failure failed
    rw [failed] at outcome
    exact enough failure outcome
  have sim : Simulates ⟨p, ⟨⟨base, max⟩, none⟩⟩ ⟨p, ⟨⟨base', max⟩, none⟩⟩
      (Scene.Like (Wider ⟨base, max⟩ ⟨base', max⟩)) id Cause.OutOfMemory := simulates_wider rfl lower
  obtain ⟨ending', run', failure, like⟩ := sim.execute start run told clock'
  rw [Failure.map_through_id, Failure.map_through_id] at failure
  have outcome' := outcome_of_execute run'
  rw [failure, ← like.steps, ← outcome] at outcome'
  refine ⟨ending', run', outcome', like.out.symm, like.pc.symm, like.steps.symm,
    like.store.bank.symm, fun address low high => ?_, like.store.zero⟩
  obtain ⟨x, held⟩ := like.store.covers.exists_read? ⟨low, high⟩
  exact ⟨x, held, like.store.read? held⟩

theorem more_memory_keeps_run_to_underflow :
    ∃ ending,
      (ofLines #["PUSH 7", "STORE 5, 4", "PRINT 3", "POP A", "POP B"] ⟨⟨2, 8⟩, none⟩).execute
          (fun _ => ⟨0⟩) 9 ⟨Store.initial ⟨2, 8⟩, 1, 0⟩ {} = some ending ∧
        ending.outcome = .error ⟨5, .stackUnderflow 8⟩ ∧
        ending.scene.state.store.bank.a = 7 ∧
        ending.scene.state.store.memory.read? 4 = some 5 ∧
        ending.scene.state.store.memory.read? 3 = some 0 := by
  have run : (ofLines #["PUSH 7", "STORE 5, 4", "PRINT 3", "POP A", "POP B"] ⟨⟨4, 8⟩, none⟩).execute
      (fun _ => ⟨0⟩) 9 ⟨Store.initial ⟨4, 8⟩, 1, 0⟩ {} = some ⟨.error ⟨5, .stackUnderflow 8⟩,
        ⟨⟨⟨⟨7, 0, 0, 8, 8⟩, ⟨4, #[5, 0, 0, 7]⟩⟩, 5, 5⟩, { out := ⟨none, "3".toUTF8⟩ }⟩⟩ := rfl
  have lower : (2 : Word) ≤ 4 := by decide
  have accepted : Window.checked 4 8 = .ok ⟨4, 8⟩ := rfl
  have accepted' : Window.checked 2 8 = .ok ⟨2, 8⟩ := rfl
  obtain ⟨ending, ends, outcome, -, -, -, bank, cells, zeros⟩ :=
    more_memory_keeps_run _ lower accepted accepted' {} {} {} rfl rfl _ (fun _ => ⟨0⟩) run
      (by rintro _ ⟨⟩; exact id)
  refine ⟨ending, ends, outcome, congrArg Bank.a bank, ?_, zeros 3 (by decide) (by decide)⟩
  obtain ⟨x, held, held'⟩ := cells 4 (by decide) (by decide)
  rw [held', ← held]
  rfl

end Machine

end RegisterMachine
