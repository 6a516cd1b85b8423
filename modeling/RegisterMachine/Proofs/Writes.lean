import RegisterMachine.Proofs.Turns

/-! What a turn does to memory. Three instructions write a cell each; no other instruction writes,
and neither does one that fails. Writes leave the window that memory covers as it is. -/

namespace RegisterMachine

structure Write where
  address : Word
  value : Word
  deriving DecidableEq, Repr

namespace Window

variable {base top : Word} {w : Window}

theorem checked_eq_ok (accepted : checked base top = .ok w) :
    w = ⟨base, top⟩ ∧ base < top ∧ w.cells ≤ maxCells := by
  rw [checked] at accepted
  split at accepted
  · cases accepted
  · rename_i ordered
    split at accepted
    · cases accepted
    · rename_i fits
      cases accepted
      exact ⟨rfl, Int32.not_le.mp ordered, Nat.not_lt.mp fits⟩

theorem base_le_top_of_checked (accepted : checked base top = .ok w) : w.base ≤ w.top := by
  obtain ⟨rfl, below, -⟩ := checked_eq_ok accepted
  exact Int32.le_of_lt below

end Window

namespace Memory

variable {m : Memory} {w : Window}

def writeAll (m : Memory) (log : List Write) : Memory :=
  log.foldl (fun m e => m.write e.address e.value) m

@[simp]
theorem writeAll_nil (m : Memory) : m.writeAll [] = m := rfl

/-- The addresses of the memory are those of the window. -/
def Covers (m : Memory) (w : Window) : Prop :=
  m.base = w.base ∧ m.size = w.cells

theorem covers_zeros (w : Window) : (zeros w.base w.cells).Covers w :=
  ⟨rfl, size_zeros w.base w.cells⟩

theorem Covers.writeAll (covers : m.Covers w) (log : List Write) : (m.writeAll log).Covers w := by
  induction log generalizing m with
  | nil => exact covers
  | cons e log ih =>
    have written : (m.write e.address e.value).Covers w := by simpa [Covers] using covers
    exact ih written

theorem Covers.contains_iff (covers : m.Covers w) {address : Word} :
    m.contains address = true ↔ w.base ≤ address ∧ address < w.top := by
  rw [Memory.contains_iff, covers.1, covers.2, Window.cells, Int32.le_iff_toInt_le,
    Int32.lt_iff_toInt_lt]
  omega

theorem Covers.exists_read? (covers : m.Covers w) {address : Word}
    (inside : w.base ≤ address ∧ address < w.top) : ∃ x, m.read? address = some x := by
  have contained := covers.contains_iff.mpr inside
  rw [← Option.isSome_iff_exists, isSome_read?, contained]

theorem Covers.inside_of_read? (covers : m.Covers w) {address x : Word}
    (found : m.read? address = some x) : w.base ≤ address ∧ address < w.top := by
  rw [← covers.contains_iff, ← isSome_read?, found]
  rfl

theorem read?_zeros {w : Window} {address : Word} (low : w.base ≤ address)
    (high : address < w.top) : (zeros w.base w.cells).read? address = some 0 := by
  have inside := (covers_zeros w).contains_iff.mpr ⟨low, high⟩
  have bound := index_lt_size inside
  rw [size_zeros] at bound
  rw [read?, if_pos inside]
  simp [zeros, Array.getElem?_replicate] at bound ⊢
  exact bound

end Memory

/-- What the instruction on the line `pc` writes, with these values in the registers: the stored
value, the pushed value, or the line after a call. -/
def Instruction.write? (pc : Nat) (bank : Bank) : Instruction → Option Write
  | .store value address => some ⟨address.expr.eval bank, value.expr.eval bank⟩
  | .unary .push o => some ⟨bank.sp - 1, o.expr.eval bank⟩
  | .unary .call _ => some ⟨bank.sp - 1, Int32.ofNat (pc + 1)⟩
  | _ => none

namespace Machine

variable {m : Machine} {scene : Scene}

def write? (m : Machine) (s : State) : Option Write :=
  match m.program.decoded? s.pc with
  | some (.ok (some i)) => i.write? s.pc s.store.bank
  | _ => none

theorem write?_of_instruction {s : State} {i : Instruction}
    (found : m.program.decoded? s.pc = some (.ok (some i))) :
    m.write? s = i.write? s.pc s.store.bank := by
  rw [write?, found]

theorem perform_memory (m : Machine) (pc : Nat) (i : Instruction) (s : Store) :
    (m.perform pc i).Leads s
      (fun flow t => t.memory = s.memory.writeAll (i.write? pc s.bank).toList ∧
        (flow = .halt ∨ (∃ channel text, flow = .emit channel text) → i.write? pc s.bank = none))
      (fun _ t => t.memory = s.memory) := by
  cases i with
  | load dst src => simp [perform, Instruction.write?]
  | store value address => simp [perform, Instruction.write?, Memory.writeAll]
  | pop dst => simp [perform, Instruction.write?]
  | unary op o =>
    cases op <;> simp [perform, performUnary, Instruction.write?, Memory.writeAll]
  | nullary op =>
    cases op with
    | arith op =>
      simp only [perform, performNullary, Action.leads_bind, Action.leads_get]
      split <;> simp [Instruction.write?]
    | _ => simp [perform, performNullary, Instruction.write?]

theorem follow_ends {store : Store} {pc steps : Nat} {streams : Streams} {flow : Flow}
    (ends : ∀ next, follow store pc steps streams flow ≠ .goes next) :
    flow = .halt ∨ ∃ channel text, flow = .emit channel text := by
  cases flow with
  | next => exact (ends _ rfl).elim
  | jump line => exact (ends _ rfl).elim
  | halt => exact .inl rfl
  | emit channel text => exact .inr ⟨channel, text, rfl⟩

theorem memory_of_goes {next : Scene} (goes : m.turn scene = .goes next) :
    next.state.store.memory =
      scene.state.store.memory.writeAll (m.write? scene.state).toList := by
  rw [turn_eq] at goes
  split at goes
  · cases goes
  · cases goes
  · rename_i found
    cases goes
    rw [write?, found]
    rfl
  · rename_i i found
    obtain ⟨flow, performed, -⟩ := carryOut_eq_goes goes
    have effect := (m.perform_memory scene.state.pc i scene.state.store).of_ok performed
    rw [write?_of_instruction found, effect.1]

theorem memory_of_ends (ends : ∀ next, m.turn scene ≠ .goes next) :
    (m.turn scene).scene.state.store.memory = scene.state.store.memory := by
  rw [turn_eq] at ends ⊢
  split at ends
  · rfl
  · rfl
  · exact (ends _ rfl).elim
  · rename_i i found
    have effect := m.perform_memory scene.state.pc i scene.state.store
    rw [carryOut] at ends ⊢
    cases performed : m.perform scene.state.pc i scene.state.store with
    | error cause store => exact effect.of_error performed
    | ok flow store =>
      rw [performed] at ends
      obtain ⟨written, silent⟩ := effect.of_ok performed
      dsimp only at ends ⊢
      rw [follow_store, written, silent (follow_ends ends)]
      rfl

theorem memory_of_silent (silent : m.write? scene.state = none) :
    (m.turn scene).scene.state.store.memory = scene.state.store.memory := by
  by_cases goes : ∃ next, m.turn scene = .goes next
  · obtain ⟨next, goes⟩ := goes
    have after := memory_of_goes goes
    rw [silent] at after
    rw [goes]
    exact after
  · exact memory_of_ends (not_exists.mp goes)

end Machine

end RegisterMachine
