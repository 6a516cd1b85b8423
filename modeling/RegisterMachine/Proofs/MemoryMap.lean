import Mathlib.Data.List.Induction
import Mathlib.Logic.Function.Basic
import RegisterMachine.Proofs.Coherence

/-! Memory as a map on places of the integers. Any operations that read and write cells are answered as
the map answers them: it starts with zero in every place of its window, and each write that succeeds
changes it in one place. -/

namespace RegisterMachine

def blankMap (base : Word) (size : Nat) (place : Int) : Option Word :=
  if base.toInt ≤ place ∧ place < base.toInt + size then some 0 else none

def writtenMap (base : Word) (size : Nat) (log : List Write) : Int → Option Word :=
  log.foldl (fun map e => Function.update map e.address.toInt (some e.value)) (blankMap base size)

section WrittenMap

variable {base : Word} {size : Nat} {log : List Write}

theorem writtenMap_concat (e : Write) :
    writtenMap base size (log ++ [e]) =
      Function.update (writtenMap base size log) e.address.toInt (some e.value) := by
  simp [writtenMap]

theorem writtenMap_address
    (inside : ∀ e ∈ log, base.toInt ≤ e.address.toInt ∧ e.address.toInt < base.toInt + size)
    (address : Word) :
    writtenMap base size log address.toInt =
      if base.toInt ≤ address.toInt ∧ address.toInt < base.toInt + size then
        some (lastWritten log address)
      else none := by
  -- The last write decides, so the log is taken apart from its end.
  induction log using List.reverseRecOn with
  | nil => rfl
  | append_singleton log e ih =>
    have before := ih fun e mem => inside e (List.mem_append_left _ mem)
    have here := inside e (by simp)
    rw [writtenMap_concat, lastWritten_concat]
    by_cases same : e.address = address
    · subst same
      simp [here]
    · have apart : address.toInt ≠ e.address.toInt := fun h => same (Int32.toInt_inj.mp h.symm)
      rw [Function.update_of_ne apart, before, if_neg same]

end WrittenMap

namespace Memory

variable {m : Memory}

/-- What stands in a place of the integers, if memory has a cell there. A window may reach past the
largest word, to places that no address names. -/
def chart (m : Memory) (place : Int) : Option Word :=
  if m.base.toInt ≤ place then m.cells[(place - m.base.toInt).toNat]? else none

theorem chart_zeros (base : Word) (size : Nat) : (zeros base size).chart = blankMap base size := by
  funext place
  by_cases low : base.toInt ≤ place
  · by_cases high : place < base.toInt + size
    · have bound : (place - base.toInt).toNat < size := by omega
      simp [chart, blankMap, zeros, low, high, bound]
    · have bound : ¬(place - base.toInt).toNat < size := by omega
      simp [chart, blankMap, zeros, high, bound]
  · simp [chart, blankMap, zeros, low]

theorem read?_eq_chart (m : Memory) (address : Word) : m.read? address = m.chart address.toInt := by
  rw [read?, chart, index]
  by_cases inside : m.contains address = true
  · rw [if_pos inside, if_pos (contains_iff.mp inside).1]
  · rw [if_neg inside]
    rw [contains_iff] at inside
    split
    · have past : m.cells.size ≤ (address.toInt - m.base.toInt).toNat := by
        simp only [size] at inside
        omega
      exact (Array.getElem?_eq_none past).symm
    · rfl

theorem chart_write {address : Word} (inside : m.contains address = true) (value : Word) :
    (m.write address value).chart = Function.update m.chart address.toInt (some value) := by
  have bound := index_lt_size inside
  have low := (contains_iff.mp inside).1
  simp only [size, index] at bound
  funext place
  by_cases here : place = address.toInt
  · subst here
    simp [chart, write, inside, low, index, bound]
  · rw [Function.update_of_ne here, chart, chart, base_write]
    by_cases above : m.base.toInt ≤ place
    · have apart : (address.toInt - m.base.toInt).toNat ≠ (place - m.base.toInt).toNat := by omega
      simp [write, inside, index, above, apart]
    · simp [above]

end Memory

inductive Access where
  | read (address : Word)
  | write (address value : Word)
  deriving DecidableEq, Repr

/-- The operation as the machine carries it out. Only a read gives a value. -/
def Access.action : Access → Action (Option Word)
  | .read address => some <$> Action.read address
  | .write address value => do
    Action.write address value
    return none

structure Session where
  answers : List (Access × Except Cause (Option Word))
  store : Store

namespace Session

def start (bank : Bank) (base : Word) (size : Nat) : Session :=
  { answers := [], store := { bank, memory := Memory.zeros base size } }

/-- The session after one more operation. It goes on after an operation that fails. -/
def next (s : Session) (op : Access) : Session :=
  match op.action s.store with
  | .ok result store => { answers := s.answers ++ [(op, .ok result)], store }
  | .error cause store => { answers := s.answers ++ [(op, .error cause)], store }

def run (s : Session) (ops : List Access) : Session :=
  ops.foldl next s

def successfulWrite? : Access × Except Cause (Option Word) → Option Write
  | (.write address value, .ok _) => some ⟨address, value⟩
  | _ => none

def log (s : Session) : List Write :=
  s.answers.filterMap successfulWrite?

variable {s : Session} {base : Word} {size : Nat}

/-- Memory is the map that the successful writes have made, and all of these lie in its window. -/
structure Mapped (base : Word) (size : Nat) (s : Session) : Prop where
  size_eq : s.store.memory.size = size
  base_eq : s.store.memory.base = base
  chart_eq : s.store.memory.chart = writtenMap base size s.log
  inside : ∀ e ∈ s.log, base.toInt ≤ e.address.toInt ∧ e.address.toInt < base.toInt + size

theorem mapped_start (bank : Bank) (base : Word) (size : Nat) :
    (start bank base size).Mapped base size where
  size_eq := Memory.size_zeros base size
  base_eq := rfl
  chart_eq := Memory.chart_zeros base size
  inside := by simp [start, log]

theorem Mapped.contains_iff (mapped : s.Mapped base size) {address : Word} :
    s.store.memory.contains address = true ↔
      base.toInt ≤ address.toInt ∧ address.toInt < base.toInt + size := by
  rw [Memory.contains_iff, mapped.base_eq, mapped.size_eq]

theorem Mapped.read? (mapped : s.Mapped base size) (address : Word) :
    s.store.memory.read? address =
      if base.toInt ≤ address.toInt ∧ address.toInt < base.toInt + size then
        some (lastWritten s.log address)
      else none := by
  rw [Memory.read?_eq_chart, mapped.chart_eq, writtenMap_address mapped.inside]

theorem next_read (s : Session) (address : Word) :
    (s.next (.read address)).store = s.store ∧ (s.next (.read address)).log = s.log := by
  cases held : s.store.memory.read? address with
  | some w =>
    have given : Access.action (.read address) s.store = .ok (some w) s.store := by
      simp [Access.action, Functor.map, EStateM.map, Action.read, held]
    simp [next, given, log, successfulWrite?]
  | none =>
    have refused : Access.action (.read address) s.store =
        .error (.addressOutOfRange address) s.store := by
      simp [Access.action, Functor.map, EStateM.map, Action.read, held]
    simp [next, refused, log, successfulWrite?]

theorem next_write_outside {address : Word} (value : Word)
    (outside : s.store.memory.contains address = false) :
    (s.next (.write address value)).store = s.store ∧
      (s.next (.write address value)).log = s.log := by
  have refused : Access.action (.write address value) s.store =
      .error (.addressOutOfRange address) s.store := by
    simp [Access.action, bind, EStateM.bind, Action.write, outside]
  simp [next, refused, log, successfulWrite?]

theorem next_write_inside {address : Word} (value : Word)
    (inside : s.store.memory.contains address = true) :
    (s.next (.write address value)).store =
        { s.store with memory := s.store.memory.write address value } ∧
      (s.next (.write address value)).log = s.log ++ [⟨address, value⟩] := by
  have made : Access.action (.write address value) s.store =
      .ok none { s.store with memory := s.store.memory.write address value } := by
    simp [Access.action, bind, EStateM.bind, Action.write, inside, pure, EStateM.pure]
  simp [next, made, log, successfulWrite?]

theorem Mapped.of_same {t : Session} (mapped : s.Mapped base size)
    (same : t.store = s.store ∧ t.log = s.log) : t.Mapped base size := by
  obtain ⟨store, log⟩ := same
  exact ⟨store ▸ mapped.size_eq, store ▸ mapped.base_eq, by rw [store, log, mapped.chart_eq],
    log ▸ mapped.inside⟩

theorem Mapped.next (mapped : s.Mapped base size) (op : Access) : (s.next op).Mapped base size := by
  cases op with
  | read address => exact mapped.of_same (s.next_read address)
  | write address value =>
    cases reached : s.store.memory.contains address with
    | false => exact mapped.of_same (next_write_outside value reached)
    | true =>
      obtain ⟨store, log⟩ := next_write_inside value reached
      refine ⟨?_, ?_, ?_, ?_⟩
      · simp [store, mapped.size_eq]
      · simp [store, mapped.base_eq]
      · rw [store, log, writtenMap_concat, ← mapped.chart_eq]
        exact Memory.chart_write reached value
      · intro e mem
        rw [log, List.mem_append, List.mem_singleton] at mem
        rcases mem with mem | rfl
        · exact mapped.inside e mem
        · exact mapped.contains_iff.mp reached

theorem Mapped.run (mapped : s.Mapped base size) (ops : List Access) :
    (s.run ops).Mapped base size := by
  induction ops generalizing s with
  | nil => exact mapped
  | cons op ops ih => exact ih (mapped.next op)

theorem map_answers_run (s : Session) (ops : List Access) :
    (s.run ops).answers.map Prod.fst = s.answers.map Prod.fst ++ ops := by
  induction ops generalizing s with
  | nil => simp [Session.run]
  | cons op ops ih =>
    have one : (s.next op).answers.map Prod.fst = s.answers.map Prod.fst ++ [op] := by
      rw [Session.next]
      split <;> simp
    have rest := ih (s.next op)
    rw [one, List.append_assoc] at rest
    exact rest

/-- Memory is a map on the places from `base` up to but not including `base + size`, taken over the
integers. After any operations, a write succeeds and a read gives a value exactly in these places. The
value is that of the last successful write to the address, or zero. A write that fails changes nothing,
and the number of cells stays the same. -/
theorem memory_is_map_on_window (bank : Bank) (base : Word) (size : Nat) (ops : List Access) :
    let s := (start bank base size).run ops
    s.answers.map Prod.fst = ops ∧
    s.store.memory.size = size ∧
    s.store.memory.chart = writtenMap base size s.log ∧
    (∀ address value, (∃ t, Action.write address value s.store = .ok () t) ↔
      base.toInt ≤ address.toInt ∧ address.toInt < base.toInt + size) ∧
    (∀ address, (∃ w t, Action.read address s.store = .ok w t) ↔
      base.toInt ≤ address.toInt ∧ address.toInt < base.toInt + size) ∧
    (∀ address w t, Action.read address s.store = .ok w t →
      w = lastWritten s.log address ∧ t = s.store) ∧
    ∀ address value cause t, Action.write address value s.store = .error cause t → t = s.store := by
  intro s
  have mapped : s.Mapped base size := (mapped_start bank base size).run ops
  have answered : s.answers.map Prod.fst = ops := map_answers_run _ ops
  refine ⟨answered, mapped.size_eq, mapped.chart_eq, fun address value => ?_, fun address => ?_,
    fun address w t given => ?_, fun address value cause t refused => ?_⟩
  · rw [← mapped.contains_iff, Action.write]
    cases s.store.memory.contains address <;> simp
  · rw [Action.read, mapped.read? address]
    split <;> simp_all
  · rw [Action.read, mapped.read? address] at given
    split at given <;> simp_all
  · rw [Action.write] at refused
    split at refused
    · cases refused
    · exact (EStateM.Result.error.inj refused).2.symm

def edgeOps : List Access :=
  [.write 2147483647 7, .write (-2147483648) 9, .read 2147483647, .write 2147483647 8]

theorem memory_is_map_on_window_past_largest_word :
    let s := (start (Bank.initial 0) 2147483646 4).run edgeOps
    s.log = [⟨2147483647, 7⟩, ⟨2147483647, 8⟩] ∧
    s.store.memory.size = 4 ∧
    (∃ t, Action.write 2147483646 5 s.store = .ok () t) ∧
    Action.read 2147483647 s.store = .ok 8 s.store ∧
    Action.read 2147483646 s.store = .ok 0 s.store ∧
    (¬∃ w t, Action.read (-2147483648) s.store = .ok w t) ∧
    ∃ cause, Action.write (-2147483648) 9 s.store = .error cause s.store := by
  intro s
  have log : s.log = [⟨2147483647, 7⟩, ⟨2147483647, 8⟩] := by rfl
  obtain ⟨-, size, -, writes, reads, values, failures⟩ :=
    memory_is_map_on_window (Bank.initial 0) 2147483646 4 edgeOps
  refine ⟨log, size, (writes 2147483646 5).mpr (by decide), ?_, ?_, ?_, ?_⟩
  · obtain ⟨w, t, given⟩ := (reads 2147483647).mpr (by decide)
    obtain ⟨value, kept⟩ := values _ _ _ given
    rw [given, value, kept, log]
    rfl
  · obtain ⟨w, t, given⟩ := (reads 2147483646).mpr (by decide)
    obtain ⟨value, kept⟩ := values _ _ _ given
    rw [given, value, kept, log]
    rfl
  · exact fun given => absurd ((reads (-2147483648)).mp given) (by decide)
  · cases result : Action.write (-2147483648) 9 s.store with
    | ok u t => exact absurd ((writes (-2147483648) 9).mp ⟨t, result⟩) (by decide)
    | error cause t => exact ⟨cause, by rw [failures _ _ _ _ result]⟩

end Session

end RegisterMachine
