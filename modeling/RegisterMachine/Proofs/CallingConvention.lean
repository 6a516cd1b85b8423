import RegisterMachine.Proofs.StackDiscipline

/-! Calls and returns. A call leaves the line to return to in the cell below the stack pointer. A
callee that begins by saving the frame pointer leaves it in the next cell, and lets the frame
pointer stand there. From the frame pointer and these two cells its last three lines bring back the
caller's line and pointers, wherever the stack pointer has been left. -/

namespace RegisterMachine

def Operand.ofRegister (r : Register) : Operand :=
  ⟨⟨.register r, []⟩, false⟩

theorem Window.Allows.toInt_ofInt {w : Window} {x : Int} (allowed : w.Allows x) :
    (Int32.ofInt x).toInt = x := by
  obtain ⟨low, high⟩ := allowed
  have bottom := (Word.toInt_bounds w.base).1
  have top := (Word.toInt_bounds w.top).2
  exact Int32.toInt_ofInt_of_le (by omega) (by omega)

namespace Action

variable {s : Store} {failed : Cause → Store → Prop}

theorem leads_target_of_eq_some {p : Program} {x : Word} {line : Nat}
    (target : p.target? x = some line) {done : Nat → Store → Prop} :
    Leads (Action.target p x) s done failed ↔ done line s := by
  simp [leads_target, target]

theorem leads_discard_of_allows {w : Window} {count : Word}
    (allowed : w.Allows (s.bank.sp.toInt + count.toInt)) {done : Unit → Store → Prop} :
    Leads (discard w count) s done failed ↔
      done () { s with bank.sp := Int32.ofInt (s.bank.sp.toInt + count.toInt) } := by
  simp only [leads_discard, Int.not_lt.mpr allowed.1, Int.not_lt.mpr allowed.2, false_imp_iff,
    not_false_iff, true_imp_iff, true_and]

end Action

namespace Program

variable {p : Program}

/-- The lines from `n` on save the frame pointer and set it to the stack pointer. -/
structure HasPrologue (p : Program) (n : Nat) : Prop where
  saves : p.decoded? n = some (.ok (some (.unary .push (.ofRegister .fp))))
  sets : p.decoded? (n + 1) = some (.ok (some (.load .fp (.ofRegister .sp))))

/-- The lines from `n` on set the stack pointer to the frame pointer, restore the frame pointer and
return, discarding as many cells as `o` says. -/
structure HasEpilogue (p : Program) (n : Nat) (o : Operand) : Prop where
  sets : p.decoded? n = some (.ok (some (.load .sp (.ofRegister .fp))))
  restores : p.decoded? (n + 1) = some (.ok (some (.pop .fp)))
  returns : p.decoded? (n + 2) = some (.ok (some (.unary .ret o)))

theorem target?_ofNat (short : p.size ≤ 2147483647) {line : Nat} (low : 1 ≤ line)
    (high : line ≤ p.size) : p.target? (Int32.ofNat line) = some line := by
  have value : (Int32.ofNat line).toInt = line := Int32.toInt_ofNat_of_lt (by omega)
  rw [target?, value, if_pos (by omega), Int.toNat_natCast]

end Program

namespace Machine

open RegisterMachine.Action

variable {m : Machine} {s : Store} {pc t steps : Nat} {streams : Streams}

/-- The scene after this many turns, if the run goes on with each of them. -/
def proceed? (m : Machine) : Nat → Scene → Option Scene
  | 0, scene => some scene
  | turns + 1, scene =>
    match m.turn scene with
    | .goes next => m.proceed? turns next
    | _ => none

theorem proceed?_append {turns : Nat} {scene next : Scene}
    (first : m.proceed? turns scene = some next) (more : Nat) :
    m.proceed? (turns + more) scene = m.proceed? more next := by
  induction turns generalizing scene with
  | zero => cases first; rw [Nat.zero_add]
  | succ turns ih =>
    rw [proceed?] at first
    rw [Nat.add_right_comm, proceed?]
    split at first
    · exact ih first
    · cases first

theorem loopHead_of_proceed? (untimed : m.settings.budget = none) {clock : Clock}
    {start scene last : Scene} {n turns : Nat} (head : LoopHead m clock start n scene)
    (proceeds : m.proceed? turns scene = some last) : LoopHead m clock start (n + turns) last := by
  induction turns generalizing n scene with
  | zero => cases proceeds; exact head
  | succ turns ih =>
    rw [proceed?] at proceeds
    split at proceeds
    · rename_i next goes
      have later := ih (head.goes ((advance_of_no_budget untimed _ _).trans goes)) proceeds
      rwa [Nat.add_right_comm] at later
    · cases proceeds

theorem proceed?_of_goes {i : Instruction} {flow : Flow} {store : Store} {next : Scene}
    (found : m.program.decoded? pc = some (.ok (some i)))
    (performed : m.perform pc i s = .ok flow store)
    (goes : follow store pc (steps + 1) streams flow = .goes next) (turns : Nat) :
    m.proceed? (turns + 1) ⟨⟨s, pc, steps⟩, streams⟩ = m.proceed? turns next := by
  rw [proceed?, turn_eq, found]
  simp only [carryOut, performed, goes]

theorem perform_load_register (m : Machine) (pc : Nat) (dst src : Register) (s : Store) :
    m.perform pc (.load dst (.ofRegister src)) s =
      .ok .next { s with bank := s.bank.set dst (s.bank.get src) } := rfl

theorem perform_call (covers : s.memory.Covers m.window) (room : m.window.Room s.bank.sp)
    {o : Operand} (target : m.program.target? (o.expr.eval s.bank) = some t) :
    m.perform pc (.unary .call o) s =
      .ok (.jump t) ((Growth.word (Int32.ofNat (pc + 1))).apply s) := by
  apply Leads.eq_ok
  simp only [perform, performUnary, leads_bind, leads_value, leads_target_of_eq_some target,
    leads_push_of_room covers room, leads_pure]
  exact ⟨trivial, trivial⟩

theorem perform_return {o : Operand} {line sp n : Word} (filled : s.bank.sp < m.window.top)
    (held : s.memory.read? s.bank.sp = some line) (target : m.program.target? line = some t)
    (popped : s.bank.sp + 1 = sp) (value : o.expr.eval { s.bank with sp } = n)
    (allowed : m.window.Allows (sp.toInt + n.toInt)) :
    m.perform pc (.unary .ret o) s =
      .ok (.jump t) { s with bank.sp := Int32.ofInt (sp.toInt + n.toInt) } := by
  apply Leads.eq_ok
  simp only [perform, performUnary, leads_bind, leads_pop_of_read? filled held, popped,
    leads_target_of_eq_some target, leads_value, value,
    leads_discard_of_allows (s := { s with bank.sp := sp }) allowed, leads_pure]
  exact ⟨trivial, trivial⟩

theorem proceed?_prologue (covers : s.memory.Covers m.window) (fits : m.window.Fits s.bank.sp 2)
    {o : Operand} (calls : m.program.decoded? pc = some (.ok (some (.unary .call o))))
    (target : m.program.target? (o.expr.eval s.bank) = some t)
    (prologue : m.program.HasPrologue t) (steps : Nat) (streams : Streams) :
    ∃ entered : State, m.proceed? 3 ⟨⟨s, pc, steps⟩, streams⟩ = some ⟨entered, streams⟩ ∧
      entered.store.bank.fp = s.bank.sp - 2 ∧
      entered.store.memory.read? (s.bank.sp - 2) = some s.bank.fp ∧
      entered.store.memory.read? (s.bank.sp - 1) = some (Int32.ofNat (pc + 1)) := by
  let growths : List Growth := [.word (Int32.ofNat (pc + 1)), .push (.ofRegister .fp)]
  let called := (Growth.word (Int32.ofNat (pc + 1))).apply s
  let saved := Growth.applyAll s growths
  have both : m.window.Fits s.bank.sp growths.length := fits
  have room : m.window.Room called.bank.sp := by
    rw [Growth.bank_apply]
    exact fits.sub_one.room
  have save : m.perform t (.unary .push (.ofRegister .fp)) called = .ok .next saved :=
    perform_growth (Growth.covers_apply covers _) room t (.push (.ofRegister .fp))
  have entry : m.proceed? 3 ⟨⟨s, pc, steps⟩, streams⟩ = some
      ⟨⟨{ saved with bank := saved.bank.set .fp saved.bank.sp }, t + 2, steps + 3⟩, streams⟩ := by
    rw [proceed?_of_goes calls (perform_call covers fits.room target) rfl,
      proceed?_of_goes prologue.saves save rfl,
      proceed?_of_goes prologue.sets (m.perform_load_register _ _ _ _) rfl]
    rfl
  have down : saved.bank.sp = s.bank.sp - 2 := by
    rw [Growth.bank_applyAll]
    rfl
  exact ⟨_, entry, down, Growth.read?_applyAll_cell covers both (k := 1) Nat.one_lt_two,
    Growth.read?_applyAll_cell covers both (k := 0) Nat.zero_lt_two⟩

theorem proceed?_epilogue {sp fp line n : Word} {o : Operand} (fits : m.window.Fits sp 2)
    (epilogue : m.program.HasEpilogue pc o) (stands : s.bank.fp = sp - 2)
    (saved : s.memory.read? (sp - 2) = some fp) (pushed : s.memory.read? (sp - 1) = some line)
    (target : m.program.target? line = some t)
    (value : o.expr.eval { s.bank with fp, sp } = n)
    (allowed : m.window.Allows (sp.toInt + n.toInt)) (steps : Nat) (streams : Streams) :
    m.proceed? 3 ⟨⟨s, pc, steps⟩, streams⟩ = some
      ⟨⟨{ s with bank := { s.bank with fp, sp := Int32.ofInt (sp.toInt + n.toInt) } }, t,
        steps + 3⟩, streams⟩ := by
  have up : sp - 2 + 1 = sp - 1 := by grind
  have two : (sp - 2).toInt = sp.toInt - 2 := Word.toInt_sub_ofNat (k := 2) fits.lower
  have one : (sp - 1).toInt = sp.toInt - 1 := fits.room.sub_one.1
  have high := fits.2
  have above : sp - 2 < m.window.top := Int32.lt_iff_toInt_lt.mpr (by omega)
  have above' : sp - 1 < m.window.top := Int32.lt_iff_toInt_lt.mpr (by omega)
  -- The pop overwrites the frame pointer after the stack pointer has moved, and the operand of the
  -- return is evaluated after that: it sees the caller's frame pointer, and `sp` itself.
  let set : Store := { s with bank.sp := sp - 2 }
  let restored : Store := { s with bank := { s.bank with fp, sp := sp - 1 } }
  have sets : m.perform pc (.load .sp (.ofRegister .fp)) s = .ok .next set := by
    rw [perform_load_register, Bank.get, stands]
    rfl
  have restores : m.perform (pc + 1) (.pop .fp) set = .ok .next restored := by
    rw [perform_pop_of_read? (s := set) above saved]
    simp only [set, restored, up, Bank.set]
  have returns : m.perform (pc + 2) (.unary .ret o) restored =
      .ok (.jump t) { restored with bank.sp := Int32.ofInt (sp.toInt + n.toInt) } :=
    perform_return (s := restored) above' pushed target (Int32.sub_add_cancel sp 1) value allowed
  rw [proceed?_of_goes epilogue.sets sets rfl, proceed?_of_goes epilogue.restores restores rfl,
    proceed?_of_goes epilogue.returns returns rfl]
  rfl

/-- Where a run stands at a call of a callee with a prologue, and there is room for two cells, the
call and the prologue are carried out. From any scene at an epilogue that has the frame pointer where
the prologue has put it and the two cells as they were then, whatever its stack pointer and however
the run has come to it, the epilogue brings back the line after the call and the pointers of the
caller, the stack pointer moved by what the return discards, and changes nothing else but the count
of steps. -/
theorem calling_convention_restores_caller (m : Machine) (short : m.program.size ≤ 2147483647)
    (s : State) (reached : Reachable m s) (clock : Clock) (streams : Streams) (n : Nat)
    (scene : Scene) (head : LoopHead m clock ⟨s, streams⟩ n scene)
    (before : scene.state.pc < m.program.size) (o : Operand)
    (calls : m.program.decoded? scene.state.pc = some (.ok (some (.unary .call o)))) (t : Nat)
    (target : m.program.target? (o.expr.eval scene.state.store.bank) = some t)
    (prologue : m.program.HasPrologue t)
    (fits : m.window.Fits scene.state.store.bank.sp 2) :
    let sp := scene.state.store.bank.sp
    let fp := scene.state.store.bank.fp
    ∃ entered, m.proceed? 3 scene = some ⟨entered, scene.streams⟩ ∧
      (sp - 2).toInt = sp.toInt - 2 ∧ entered.store.bank.fp = sp - 2 ∧
      entered.store.memory.read? (sp - 2) = some fp ∧
      entered.store.memory.read? (sp - 1) = some (Int32.ofNat (scene.state.pc + 1)) ∧
      ∀ (arrival : Scene) (e : Operand), m.program.HasEpilogue arrival.state.pc e →
        let store := arrival.state.store
        let discarded := e.expr.eval { store.bank with fp, sp }
        store.bank.fp = sp - 2 →
        store.memory.read? (sp - 2) = entered.store.memory.read? (sp - 2) →
        store.memory.read? (sp - 1) = entered.store.memory.read? (sp - 1) →
        m.window.Allows (sp.toInt + discarded.toInt) →
        ∃ sp' : Word, sp'.toInt = sp.toInt + discarded.toInt ∧
          let restored : Scene := ⟨⟨{ store with bank := { store.bank with fp, sp := sp' } },
            scene.state.pc + 1, arrival.state.steps + 3⟩, arrival.streams⟩
          m.proceed? 3 arrival = some restored ∧
          ∀ turns, m.proceed? turns ⟨entered, scene.streams⟩ = some arrival →
            m.proceed? (turns + 6) scene = some restored := by
  intro sp fp
  obtain ⟨entered, entry, stands, saved, pushed⟩ := proceed?_prologue (head.covers reached) fits
    calls target prologue scene.state.steps scene.streams
  have two : (sp - 2).toInt = sp.toInt - 2 := Word.toInt_sub_ofNat (k := 2) fits.lower
  refine ⟨entered, entry, two, stands, saved, pushed, ?_⟩
  intro arrival e epilogue store discarded returned saved_kept pushed_kept allowed
  have line := Program.target?_ofNat short (Nat.le_add_left 1 scene.state.pc) before
  have exit := proceed?_epilogue fits epilogue returned (saved_kept.trans saved)
    (pushed_kept.trans pushed) line rfl allowed arrival.state.steps arrival.streams
  refine ⟨_, allowed.toInt_ofInt, exit, fun turns came => ?_⟩
  calc
    m.proceed? (turns + 6) scene = m.proceed? (3 + (turns + 3)) scene := by rw [Nat.add_comm 3]
    _ = m.proceed? (turns + 3) ⟨entered, scene.streams⟩ := proceed?_append entry (turns + 3)
    _ = m.proceed? 3 arrival := proceed?_append came 3
    _ = _ := exit

def recursing : Machine :=
  ofLines #["LOAD C, 1", "CALL 4", "END",
    "PUSH FP", "LOAD FP, SP", "JPC 9", "LOAD C, 0", "CALL 4", "PUSHUP", "LOAD SP, FP", "POP FP",
    "RET FP-SP"] { window := ⟨4, 9⟩ }

theorem calling_convention_restores_caller_of_recursion :
    ∃ scene restored,
      LoopHead recursing (fun _ => ⟨0⟩) ⟨recursing.initial, {}⟩ 1 scene ∧
      recursing.program.decoded? scene.state.pc =
        some (.ok (some (.unary .call ⟨⟨.literal 4, []⟩, false⟩))) ∧
      LoopHead recursing (fun _ => ⟨0⟩) ⟨recursing.initial, {}⟩ 18 restored ∧
      restored.state.pc = scene.state.pc + 1 ∧
      restored.state.store.bank.fp = scene.state.store.bank.fp ∧
      restored.state.store.bank.sp.toInt = scene.state.store.bank.sp.toInt := by
  let scene : Scene := ⟨⟨⟨⟨0, 0, 1, 9, 9⟩, ⟨4, #[0, 0, 0, 0, 0]⟩⟩, 2, 1⟩, {}⟩
  let arrival : Scene := ⟨⟨⟨⟨0, 0, 0, 7, 6⟩, ⟨4, #[0, 7, 9, 9, 3]⟩⟩, 10, 15⟩, {}⟩
  have head : LoopHead recursing (fun _ => ⟨0⟩) ⟨recursing.initial, {}⟩ 1 scene :=
    LoopHead.start.goes rfl
  have calls : recursing.program.decoded? 2 =
      some (.ok (some (.unary .call ⟨⟨.literal 4, []⟩, false⟩))) := by rfl
  obtain ⟨entered, entry, -, -, saved, pushed, returns⟩ :=
    calling_convention_restores_caller recursing (by decide) _ .initial _ {} 1 scene head
      (by decide) _ calls 4 rfl ⟨rfl, rfl⟩ ⟨by decide, by decide⟩
  have epilogue : recursing.program.HasEpilogue 10
      ⟨⟨.register .fp, [(.minus, .register .sp)]⟩, false⟩ := ⟨by rfl, by rfl, by rfl⟩
  have fp_cell : arrival.state.store.memory.read? (9 - 2) = some 9 := by decide
  have line_cell : arrival.state.store.memory.read? (9 - 1) = some 3 := by decide
  obtain ⟨sp, up, -, whole⟩ := returns arrival _ epilogue (by decide) (fp_cell.trans saved.symm)
    (line_cell.trans pushed.symm) ⟨by decide, by decide⟩
  have came : recursing.proceed? (3 + 11) scene = some arrival := by rfl
  rw [proceed?_append entry] at came
  exact ⟨scene, _, head, calls, loopHead_of_proceed? rfl head (whole 11 came), rfl, rfl,
    up.trans (by decide)⟩

end Machine

end RegisterMachine
