import RegisterMachine.Proofs.Aftermath

/-! The stack as a list. Pushes and reservations take one cell each, down to the base of the window
and no further; pops give back what is in the cells, the last one first. A push leaves its value in
its cell and a reservation what was there before, and neither touches any other cell. -/

namespace RegisterMachine

namespace Word

theorem toInt_sub_ofNat {x : Word} {k : Nat} (low : -2147483648 ≤ x.toInt - k) :
    (x - Int32.ofNat k).toInt = x.toInt - k := by
  have high := (toInt_bounds x).2
  have size : (Int32.size : Int) = 4294967296 := rfl
  rw [Int32.toInt_sub, Int32.toInt_ofNat', Int.sub_bmod_bmod]
  exact Int.bmod_eq_of_le (by omega) (by omega)

theorem sub_ofNat_succ (x : Word) (k : Nat) : x - Int32.ofNat (k + 1) = x - 1 - Int32.ofNat k := by
  rw [Int32.ofNat_add]
  grind

theorem sub_ofNat_add (x : Word) {j k : Nat} (below : j ≤ k) :
    x - Int32.ofNat k + Int32.ofNat j = x - Int32.ofNat (k - j) := by
  obtain ⟨d, rfl⟩ : ∃ d, k = j + d := ⟨k - j, by omega⟩
  rw [Int32.ofNat_add, Nat.add_sub_cancel_left]
  grind

end Word

/-- There is room for `n` cells below the stack pointer, over the integers. -/
def Window.Fits (w : Window) (sp : Word) (n : Nat) : Prop :=
  w.base.toInt + n ≤ sp.toInt ∧ sp.toInt ≤ w.top.toInt

namespace Window.Fits

variable {w : Window} {sp : Word} {n : Nat}

theorem room (fits : w.Fits sp (n + 1)) : w.Room sp := by
  obtain ⟨low, high⟩ := fits
  exact ⟨by omega, high⟩

theorem sub_one (fits : w.Fits sp (n + 1)) : w.Fits (sp - 1) n := by
  have moved := fits.room.sub_one.1
  obtain ⟨low, high⟩ := fits
  exact ⟨by omega, by omega⟩

theorem lower (fits : w.Fits sp n) : -2147483648 ≤ sp.toInt - n := by
  have bound := (Word.toInt_bounds w.base).1
  have low := fits.1
  omega

end Window.Fits

/-- An instruction that takes one cell of the stack, to leave a value in it or as it is. -/
inductive Growth where
  | push (o : Operand)
  | reserve
  deriving DecidableEq, Repr

namespace Growth

variable {w : Window} {s : Store}

def instruction : Growth → Instruction
  | .push o => .unary .push o
  | .reserve => .nullary .pushUp

def word (x : Word) : Growth :=
  .push ⟨⟨.literal x, []⟩, false⟩

/-- What the growth leaves in its cell, after `k` others have started from the store `s`: the value
of the operand, with the stack pointer `k` cells down, or what `s` has in that cell. -/
def leaves (s : Store) (k : Nat) : Growth → Option Word
  | .push o => some (o.expr.eval { s.bank with sp := s.bank.sp - Int32.ofNat k })
  | .reserve => s.memory.read? (s.bank.sp - Int32.ofNat (k + 1))

def apply (s : Store) : Growth → Store
  | .push o =>
      { bank := { s.bank with sp := s.bank.sp - 1 }
        memory := s.memory.write (s.bank.sp - 1) (o.expr.eval s.bank) }
  | .reserve => { s with bank := { s.bank with sp := s.bank.sp - 1 } }

theorem bank_apply (s : Store) (g : Growth) :
    (g.apply s).bank = { s.bank with sp := s.bank.sp - 1 } := by
  cases g <;> rfl

theorem covers_apply (covers : s.memory.Covers w) (g : Growth) : (g.apply s).memory.Covers w := by
  cases g with
  | push o => exact covers.writeAll [⟨_, _⟩]
  | reserve => exact covers

theorem read?_apply {address : Word} (other : address ≠ s.bank.sp - 1) (g : Growth) :
    (g.apply s).memory.read? address = s.memory.read? address := by
  cases g with
  | push o => rw [apply, Memory.read?_write, if_neg (by simp [other])]
  | reserve => rfl

theorem read?_apply_sp (covers : s.memory.Covers w) (room : w.Room s.bank.sp) (g : Growth) :
    (g.apply s).memory.read? (s.bank.sp - 1) = g.leaves s 0 := by
  have contained := covers.contains_eq.mpr room.sub_one.2
  cases g with
  | push o =>
    rw [apply, Memory.read?_write, if_pos ⟨rfl, contained⟩, leaves]
    simp
  | reserve => rfl

theorem leaves_apply {k : Nat} (low : -2147483648 ≤ s.bank.sp.toInt - (k + 2)) (g next : Growth) :
    next.leaves (g.apply s) k = next.leaves s (k + 1) := by
  cases next with
  | push o => rw [leaves, leaves, bank_apply, Word.sub_ofNat_succ]
  | reserve =>
    have other : s.bank.sp - Int32.ofNat (k + 2) ≠ s.bank.sp - 1 := by
      intro same
      have far := Word.toInt_sub_ofNat (x := s.bank.sp) (k := k + 2) (by omega)
      have near := Word.toInt_sub_ofNat (x := s.bank.sp) (k := 1) (by omega)
      have one : Int32.ofNat 1 = 1 := rfl
      rw [one, ← same, far] at near
      omega
    rw [leaves, leaves, bank_apply, ← Word.sub_ofNat_succ, read?_apply other]

def applyAll (s : Store) (growths : List Growth) : Store :=
  growths.foldl apply s

theorem covers_applyAll (covers : s.memory.Covers w) (growths : List Growth) :
    (applyAll s growths).memory.Covers w := by
  induction growths generalizing s with
  | nil => exact covers
  | cons g rest ih => exact ih (covers_apply covers g)

theorem bank_applyAll (s : Store) (growths : List Growth) :
    (applyAll s growths).bank =
      { s.bank with sp := s.bank.sp - Int32.ofNat growths.length } := by
  induction growths generalizing s with
  | nil => simp [applyAll]
  | cons g rest ih =>
    have later := ih (g.apply s)
    rw [bank_apply] at later
    rw [List.length_cons, Word.sub_ofNat_succ]
    exact later

theorem sp_applyAll {growths : List Growth} (fits : w.Fits s.bank.sp growths.length) :
    (applyAll s growths).bank.sp.toInt = s.bank.sp.toInt - growths.length := by
  rw [bank_applyAll]
  exact Word.toInt_sub_ofNat fits.lower

theorem read?_applyAll {growths : List Growth} (fits : w.Fits s.bank.sp growths.length)
    {address : Word} (outside : ¬(s.bank.sp.toInt - growths.length ≤ address.toInt ∧
      address.toInt < s.bank.sp.toInt)) :
    (applyAll s growths).memory.read? address = s.memory.read? address := by
  induction growths generalizing s with
  | nil => rfl
  | cons g rest ih =>
    have moved := fits.room.sub_one.1
    rw [List.length_cons] at outside
    have other : address ≠ s.bank.sp - 1 := by
      rintro rfl
      omega
    have later := ih (s := g.apply s) (by rw [bank_apply]; exact fits.sub_one) (by
      simp only [bank_apply, moved]
      omega)
    exact later.trans (read?_apply other g)

theorem read?_applyAll_cell (covers : s.memory.Covers w) {growths : List Growth}
    (fits : w.Fits s.bank.sp growths.length) {k : Nat} (bound : k < growths.length) :
    (applyAll s growths).memory.read? (s.bank.sp - Int32.ofNat (k + 1)) =
      growths[k].leaves s k := by
  induction growths generalizing s k with
  | nil => cases bound
  | cons g rest ih =>
    have moved := fits.room.sub_one.1
    have restFits : w.Fits (g.apply s).bank.sp rest.length := by
      rw [bank_apply]
      exact fits.sub_one
    cases k with
    | zero =>
      have kept : (applyAll (g.apply s) rest).memory.read? (s.bank.sp - 1) =
          (g.apply s).memory.read? (s.bank.sp - 1) := by
        refine read?_applyAll restFits ?_
        simp only [bank_apply]
        omega
      exact kept.trans (read?_apply_sp covers fits.room g)
    | succ k =>
      have later := ih (covers_apply covers g) restFits (Nat.lt_of_succ_lt_succ bound)
      have lower := fits.lower
      rw [List.length_cons] at bound lower
      rw [bank_apply, leaves_apply (by omega), ← Word.sub_ofNat_succ] at later
      exact later

end Growth

namespace Action

variable {w : Window} {s : Store} {failed : Cause → Store → Prop}

theorem leads_push_of_room (covers : s.memory.Covers w) (room : w.Room s.bank.sp) (x : Word)
    {done : Unit → Store → Prop} :
    Leads (push w x) s done failed ↔ done () ((Growth.word x).apply s) := by
  have free := fun full => Window.not_room_iff.mpr full room
  have contained := covers.contains_eq.mpr room.sub_one.2
  simp only [leads_push, leads_write, contained]
  constructor
  · rintro ⟨-, pushes⟩
    exact (pushes free).1 trivial
  · intro pushed
    refine ⟨fun full => (free full).elim, fun _ => ⟨fun _ => pushed, ?_⟩⟩
    rintro ⟨⟩

theorem leads_pop_of_read? {x : Word} (filled : s.bank.sp < w.top)
    (held : s.memory.read? s.bank.sp = some x) {done : Word → Store → Prop} :
    Leads (pop w) s done failed ↔ done x { s with bank.sp := s.bank.sp + 1 } := by
  have some_cell : ¬w.top ≤ s.bank.sp := Int32.not_le.mpr filled
  simp only [leads_pop, held, some_cell]
  constructor
  · rintro ⟨-, pops⟩
    exact (pops not_false).1 x rfl
  · intro popped
    refine ⟨False.elim, fun _ => ⟨?_, fun outside => by cases outside⟩⟩
    rintro y ⟨⟩
    exact popped

end Action

namespace Machine

open RegisterMachine.Action

variable {m : Machine} {scene : Scene} {s : Store}

/-- Carries out the instructions one after another, up to one that ends the run. -/
def carryAll (m : Machine) : List Instruction → Scene → Turn
  | [], scene => .goes scene
  | i :: rest, scene =>
    match m.carryOut i scene with
    | .goes next => m.carryAll rest next
    | .halts last => .halts last
    | .fails failure last => .fails failure last

/-- Pops into the registers one after another, as far as this goes: what each of them has right after
its pop, and the scene in the end. -/
def popAll? (m : Machine) : List Register → Scene → Option (List Word × Scene)
  | [], scene => some ([], scene)
  | r :: rest, scene =>
    match m.carryOut (.pop r) scene with
    | .goes next =>
        (m.popAll? rest next).map fun (words, last) =>
          (next.state.store.bank.get r :: words, last)
    | _ => none

theorem carryAll_append_of_goes {first : List Instruction} {next : Scene}
    (goes : m.carryAll first scene = .goes next) (rest : List Instruction) :
    m.carryAll (first ++ rest) scene = m.carryAll rest next := by
  induction first generalizing scene with
  | nil => cases goes; rfl
  | cons i first ih =>
    rw [carryAll] at goes
    rw [List.cons_append, carryAll]
    cases carried : m.carryOut i scene with
    | goes after =>
      rw [carried] at goes
      exact ih goes
    | halts last => rw [carried] at goes; cases goes
    | fails failure last => rw [carried] at goes; cases goes

theorem perform_growth (covers : s.memory.Covers m.window) (room : m.window.Room s.bank.sp)
    (pc : Nat) (g : Growth) : m.perform pc g.instruction s = .ok .next (g.apply s) := by
  apply Leads.eq_ok
  cases g with
  | push o =>
    simp only [Growth.instruction, perform, performUnary, leads_bind, leads_value,
      leads_push_of_room covers room, leads_pure]
    exact ⟨trivial, rfl⟩
  | reserve =>
    have free := fun full => Window.not_room_iff.mpr full room
    simp only [Growth.instruction, perform, performNullary, leads_bind, leads_reserve, leads_pure]
    exact ⟨fun full => (free full).elim, fun _ => ⟨trivial, rfl⟩⟩

theorem perform_growth_of_full (full : ¬m.window.Room s.bank.sp) (pc : Nat) (g : Growth) :
    m.perform pc g.instruction s = .error (.stackOverflow s.bank.sp) s := by
  rw [Window.not_room_iff] at full
  apply Action.Leads.eq_error
  cases g with
  | push o =>
    simp only [Growth.instruction, perform, performUnary, leads_bind, leads_value, leads_push]
    exact ⟨fun _ => ⟨trivial, trivial⟩, fun free => (free full).elim⟩
  | reserve =>
    simp only [Growth.instruction, perform, performNullary, leads_bind, leads_reserve]
    exact ⟨fun _ => ⟨trivial, trivial⟩, fun free => (free full).elim⟩

theorem carryAll_growths {growths : List Growth} (covers : scene.state.store.memory.Covers m.window)
    (fits : m.window.Fits scene.state.store.bank.sp growths.length) :
    m.carryAll (growths.map Growth.instruction) scene =
      .goes ⟨⟨Growth.applyAll scene.state.store growths, scene.state.pc + growths.length,
        scene.state.steps + growths.length⟩, scene.streams⟩ := by
  induction growths generalizing scene with
  | nil => rfl
  | cons g rest ih =>
    have performed := perform_growth covers fits.room scene.state.pc g
    rw [List.map_cons, carryAll, carryOut, performed]
    simp only [follow]
    rw [ih (Growth.covers_apply covers g) (by simp only [Growth.bank_apply]; exact fits.sub_one)]
    simp only [List.length_cons, Growth.applyAll, List.foldl_cons, Nat.add_right_comm,
      Nat.add_assoc]

theorem carryOut_of_full {sp : Word} (stands : scene.state.store.bank.sp = sp)
    (full : ¬m.window.Room sp) (g : Growth) :
    ∃ left, m.carryOut g.instruction scene =
      .fails ⟨scene.state.pc, .stackOverflow sp⟩ left := by
  subst stands
  rw [carryOut, perform_growth_of_full full]
  exact ⟨_, rfl⟩

theorem perform_pop_of_read? {pc : Nat} {r : Register} {x : Word}
    (filled : s.bank.sp < m.window.top) (held : s.memory.read? s.bank.sp = some x) :
    m.perform pc (.pop r) s =
      .ok .next { s with bank := ({ s.bank with sp := s.bank.sp + 1 } : Bank).set r x } := by
  apply Leads.eq_ok
  simp only [perform, leads_bind, leads_pop_of_read? filled held, leads_setRegister, leads_pure]
  exact ⟨trivial, trivial⟩

theorem carryOut_pop (covers : scene.state.store.memory.Covers m.window)
    (inside : m.window.Contains scene.state.store.bank.sp) {r : Register} (other : r ≠ .sp) :
    ∃ x next, scene.state.store.memory.read? scene.state.store.bank.sp = some x ∧
      m.carryOut (.pop r) scene = .goes next ∧ next.state.store.bank.get r = x ∧
      next.state.store.bank.sp = scene.state.store.bank.sp + 1 ∧
      next.state.store.memory = scene.state.store.memory := by
  have bounds := Window.contains_iff.mp inside
  obtain ⟨x, held⟩ := covers.exists_read? bounds
  let bank : Bank :=
    { scene.state.store.bank with sp := scene.state.store.bank.sp + 1 }
  let next : Scene :=
    ⟨⟨{ scene.state.store with bank := bank.set r x }, scene.state.pc + 1, scene.state.steps + 1⟩,
      scene.streams⟩
  refine ⟨x, next, held, ?_, ?_, bank.sp_set other x, rfl⟩
  · rw [carryOut, perform_pop_of_read? bounds.2 held]
    rfl
  · exact (bank.get_set r r x).trans (if_pos rfl)

theorem popAll?_eq_some (covers : scene.state.store.memory.Covers m.window)
    (low : m.window.base.toInt ≤ scene.state.store.bank.sp.toInt) {dsts : List Register}
    (high : scene.state.store.bank.sp.toInt + dsts.length ≤ m.window.top.toInt)
    (others : .sp ∉ dsts) :
    ∃ words last, m.popAll? dsts scene = some (words, last) ∧
      words.map some = (List.range dsts.length).map (fun k =>
        scene.state.store.memory.read? (scene.state.store.bank.sp + Int32.ofNat k)) ∧
      last.state.store.bank.sp = scene.state.store.bank.sp + Int32.ofNat dsts.length ∧
      last.state.store.memory = scene.state.store.memory := by
  induction dsts generalizing scene with
  | nil => exact ⟨[], scene, rfl, rfl, by simp, rfl⟩
  | cons r rest ih =>
    have other := List.ne_of_not_mem_cons others
    rw [List.length_cons] at high
    have inside : m.window.Contains scene.state.store.bank.sp := ⟨low, by omega⟩
    obtain ⟨x, next, held, goes, got, up, memory⟩ := carryOut_pop covers inside (Ne.symm other)
    have moved := Word.toInt_add_one (Window.contains_iff.mp inside).2
    have shift (k : Nat) : scene.state.store.bank.sp + Int32.ofNat (k + 1) =
        scene.state.store.bank.sp + 1 + Int32.ofNat k := by
      rw [Int32.ofNat_add]
      grind
    obtain ⟨words, last, rest_eq, cells, sp, kept⟩ := ih (by rw [memory]; exact covers)
      (by rw [up, moved]; omega) (by rw [up, moved]; omega) (List.not_mem_of_not_mem_cons others)
    refine ⟨x :: words, last, ?_, ?_, ?_, kept.trans memory⟩
    · rw [popAll?, goes]
      simp [rest_eq, got]
    · rw [memory, up] at cells
      simp only [List.map_cons, cells, List.length_cons, List.range_succ_eq_map, List.map_map,
        Function.comp_def, Nat.succ_eq_add_one, shift]
      simp [held]
    · rw [sp, up, List.length_cons, shift]

theorem carryAll_growths_of_overflow (covers : scene.state.store.memory.Covers m.window)
    (inside : m.SpInside scene.state) {growths : List Growth}
    (long : scene.state.store.bank.sp.toInt - m.window.base.toInt < growths.length) :
    ∃ first next rest full left, growths = first ++ next :: rest ∧
      (first.length : Int) = scene.state.store.bank.sp.toInt - m.window.base.toInt ∧
      m.carryAll (first.map Growth.instruction) scene = .goes full ∧
      m.carryOut next.instruction full =
        .fails ⟨full.state.pc, .stackOverflow m.window.base⟩ left := by
  obtain ⟨low, high⟩ := inside
  rw [Int32.le_iff_toInt_le] at low high
  obtain ⟨k, room⟩ : ∃ k : Nat,
      (k : Int) = scene.state.store.bank.sp.toInt - m.window.base.toInt :=
    ⟨_, Int.toNat_of_nonneg (by omega)⟩
  have bound : k < growths.length := by omega
  have length : (growths.take k).length = k := List.length_take_of_le (by omega)
  have split : growths = growths.take k ++ growths[k] :: growths.drop (k + 1) := by
    rw [← List.drop_eq_getElem_cons bound, List.take_append_drop]
  have fits : m.window.Fits scene.state.store.bank.sp (growths.take k).length :=
    ⟨by omega, high⟩
  have bottom : (Growth.applyAll scene.state.store (growths.take k)).bank.sp = m.window.base := by
    have moved := Growth.sp_applyAll fits
    exact Int32.toInt_inj.mp (by omega)
  obtain ⟨full, carried, stands⟩ : ∃ full,
      m.carryAll ((growths.take k).map Growth.instruction) scene = .goes full ∧
        full.state.store.bank.sp = m.window.base := ⟨_, carryAll_growths covers fits, bottom⟩
  have noRoom : ¬m.window.Room m.window.base := fun free => Int.lt_irrefl _ free.1
  obtain ⟨left, fails⟩ := carryOut_of_full stands noRoom growths[k]
  exact ⟨growths.take k, growths[k], growths.drop (k + 1), full, left, split, by omega, carried,
    fails⟩

theorem leaves_words (s : Store) (words : List Word) :
    (words.map Growth.word).mapIdx (fun k g => g.leaves s k) = words.map some := by
  refine List.ext_getElem (by simp) fun k _ _ => ?_
  simp only [List.getElem_mapIdx, List.getElem_map]
  rfl

/-- Wherever a run stands with the stack pointer inside, growths are carried out exactly as far as
there are cells above the base, and the next one fails there. When all of them are carried out, as
many pops into other registers give back what the growths have left, the last one first; then the
stack pointer is back, and no other cell than theirs has changed. -/
theorem stack_is_last_in_first_out (m : Machine) (s : State) (reached : Reachable m s)
    (clock : Clock) (streams : Streams) (n : Nat) (scene : Scene)
    (head : LoopHead m clock ⟨s, streams⟩ n scene) (inside : m.SpInside scene.state)
    (growths : List Growth) :
    let before := scene.state.store
    let room := before.bank.sp.toInt - m.window.base.toInt
    let grow := m.carryAll (growths.map Growth.instruction) scene
    ((∃ full, grow = .goes full) ↔ growths.length ≤ room) ∧
    (room < growths.length →
      ∃ first next rest full left, growths = first ++ next :: rest ∧ first.length = room ∧
        m.carryAll (first.map Growth.instruction) scene = .goes full ∧
        m.carryOut next.instruction full =
          .fails ⟨full.state.pc, .stackOverflow m.window.base⟩ left) ∧
    ∀ full, grow = .goes full →
      full.state.store.bank.sp.toInt = before.bank.sp.toInt - growths.length ∧
      ∀ dsts : List Register, dsts.length = growths.length → .sp ∉ dsts →
        ∃ popped last, m.popAll? dsts full = some (popped, last) ∧
          popped.map some = (growths.mapIdx fun k g => g.leaves before k).reverse ∧
          (∀ words : List Word, growths = words.map Growth.word → popped = words.reverse) ∧
          last.state.store.bank.sp = before.bank.sp ∧
          ∀ address : Word, ¬(before.bank.sp.toInt - growths.length ≤ address.toInt ∧
            address.toInt < before.bank.sp.toInt) →
              last.state.store.memory.read? address = before.memory.read? address := by
  intro before room grow
  have covers := head.covers reached
  have bounds := inside
  rw [SpInside, Int32.le_iff_toInt_le, Int32.le_iff_toInt_le] at bounds
  have fits (short : growths.length ≤ room) : m.window.Fits before.bank.sp growths.length :=
    ⟨by omega, bounds.2⟩
  have short_of_goes (full : Scene) (goes : grow = .goes full) : growths.length ≤ room := by
    refine Classical.byContradiction fun long => ?_
    obtain ⟨first, next, rest, middle, left, rfl, -, carried, fails⟩ :=
      carryAll_growths_of_overflow covers inside (Int.not_le.mp long)
    simp only [grow, List.map_append, List.map_cons, carryAll_append_of_goes carried, carryAll,
      fails] at goes
    cases goes
  refine ⟨⟨?_, fun short => ⟨_, carryAll_growths covers (fits short)⟩⟩,
    carryAll_growths_of_overflow covers inside, ?_⟩
  · rintro ⟨full, goes⟩
    exact short_of_goes full goes
  · intro full goes
    have fits := fits (short_of_goes full goes)
    have store : full.state.store = Growth.applyAll before growths :=
      congrArg (·.state.store) (Turn.goes.inj (goes.symm.trans (carryAll_growths covers fits)))
    have down : full.state.store.bank.sp.toInt = before.bank.sp.toInt - growths.length := by
      rw [store]
      exact Growth.sp_applyAll fits
    refine ⟨down, fun dsts length others => ?_⟩
    have high : full.state.store.bank.sp.toInt + dsts.length ≤ m.window.top.toInt := by
      have top := fits.2
      omega
    obtain ⟨popped, last, pops, cells, up, kept⟩ :=
      popAll?_eq_some (by rw [store]; exact Growth.covers_applyAll covers growths)
        (by have := fits.1; omega) high others
    have given : popped.map some = (growths.mapIdx fun k g => g.leaves before k).reverse := by
      -- The pop of number `k` reads the cell of the growth `k` from the end.
      rw [cells, length]
      refine List.ext_getElem (by simp) fun k low _ => ?_
      rw [List.length_map, List.length_range] at low
      have back : growths.length - k = growths.length - 1 - k + 1 := by omega
      simp only [List.getElem_map, List.getElem_range, List.getElem_reverse, List.getElem_mapIdx,
        List.length_mapIdx]
      rw [store, Growth.bank_applyAll, Word.sub_ofNat_add _ (by omega), back]
      exact Growth.read?_applyAll_cell covers fits _
    refine ⟨popped, last, pops, given, ?_, ?_, ?_⟩
    · rintro words rfl
      rw [leaves_words, ← List.map_reverse] at given
      exact (List.map_inj_right fun _ _ => Option.some.inj).mp given
    · rw [up, length, store, Growth.bank_applyAll, Word.sub_ofNat_add _ (Nat.le_refl _),
        Nat.sub_self]
      simp
    · intro address outside
      rw [kept, store]
      exact Growth.read?_applyAll fits outside

def emptied : Machine :=
  ofLines #["PUSH 9", "PUSH 4", "POP A", "POP A", "END"] { window := ⟨5, 8⟩ }

theorem stack_is_last_in_first_out_over_old_cells :
    ∃ scene full last,
      LoopHead emptied (fun _ => ⟨0⟩) ⟨emptied.initial, {}⟩ 4 scene ∧
      emptied.carryAll [.unary .push ⟨⟨.literal 7, []⟩, false⟩, .nullary .pushUp,
        .unary .push ⟨⟨.register .sp, []⟩, false⟩] scene = .goes full ∧
      full.state.store.bank.sp.toInt = 5 ∧
      emptied.popAll? [.a, .fp, .a] full = some ([6, 4, 7], last) ∧
      last.state.store.bank.sp = 8 := by
  let scene : Scene := ⟨⟨⟨⟨9, 0, 0, 8, 8⟩, ⟨5, #[0, 4, 9]⟩⟩, 5, 4⟩, {}⟩
  have head : LoopHead emptied (fun _ => ⟨0⟩) ⟨emptied.initial, {}⟩ 4 scene :=
    (((LoopHead.start.goes rfl).goes rfl).goes rfl).goes rfl
  obtain ⟨capacity, -, fills⟩ := stack_is_last_in_first_out emptied _ .initial _ {} 4 scene head
    ⟨by decide, by decide⟩ [.word 7, .reserve, .push ⟨⟨.register .sp, []⟩, false⟩]
  obtain ⟨full, goes⟩ := capacity.mpr (by decide)
  obtain ⟨down, pops⟩ := fills full goes
  obtain ⟨popped, last, popped_eq, given, -, up, -⟩ := pops [.a, .fp, .a] rfl (by decide)
  have words : popped = [6, 4, 7] := by
    have cells : popped.map some = [some 6, some 4, some 7] := given.trans (by decide)
    exact (List.map_inj_right fun _ _ => Option.some.inj).mp cells
  exact ⟨scene, full, last, head, goes, down, words ▸ popped_eq, up⟩

end Machine

end RegisterMachine
