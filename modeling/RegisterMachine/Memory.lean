import RegisterMachine.Word

/-! Memory: a row of cells, the first of which has the address `base`. Addresses are compared as
integers, so that none of them wraps around into the row. -/

namespace RegisterMachine

structure Memory where
  base : Word
  cells : Array Word
  deriving DecidableEq, Repr

namespace Memory

def zeros (base : Word) (size : Nat) : Memory :=
  { base, cells := Array.replicate size 0 }

def size (m : Memory) : Nat :=
  m.cells.size

def contains (m : Memory) (address : Word) : Bool :=
  m.base.toInt ≤ address.toInt && address.toInt < m.base.toInt + m.size

/-- The place of an address in the row, of use only for an address that the memory contains. -/
def index (m : Memory) (address : Word) : Nat :=
  (address.toInt - m.base.toInt).toNat

def read? (m : Memory) (address : Word) : Option Word :=
  if m.contains address then m.cells[m.index address]? else none

/-- A write outside the row changes nothing. -/
def write (m : Memory) (address value : Word) : Memory :=
  if m.contains address then
    let i := m.index address
    { m with cells := m.cells.setIfInBounds i value }
  else m

@[simp]
theorem size_zeros (base : Word) (size : Nat) : (zeros base size).size = size := by
  simp [zeros, Memory.size]

@[simp]
theorem base_write (m : Memory) (address value : Word) :
    (m.write address value).base = m.base := by
  unfold write
  split <;> rfl

@[simp]
theorem size_write (m : Memory) (address value : Word) :
    (m.write address value).size = m.size := by
  unfold write
  split <;> simp [size]

theorem contains_iff {m : Memory} {address : Word} :
    m.contains address = true ↔
      m.base.toInt ≤ address.toInt ∧ address.toInt < m.base.toInt + m.size := by
  simp [contains]

@[simp]
theorem contains_write (m : Memory) (address value other : Word) :
    (m.write address value).contains other = m.contains other := by
  simp [contains]

theorem index_lt_size {m : Memory} {address : Word} (inside : m.contains address = true) :
    m.index address < m.size := by
  rw [contains_iff] at inside
  simp only [index]
  omega

theorem index_inj {m : Memory} {address other : Word} (inside : m.contains address = true)
    (also : m.contains other = true) (same : m.index address = m.index other) :
    address = other := by
  rw [contains_iff] at inside also
  simp only [index] at same
  exact Int32.toInt_inj.mp (by omega)

theorem isSome_read? (m : Memory) (address : Word) :
    (m.read? address).isSome = m.contains address := by
  unfold read?
  split
  · rename_i inside
    have bound := index_lt_size inside
    simp only [size] at bound
    simp [inside, bound]
  · rename_i outside
    simp [outside]

theorem read?_write (m : Memory) (address value other : Word) :
    (m.write address value).read? other =
      if other = address ∧ m.contains address = true then some value else m.read? other := by
  by_cases inside : m.contains address = true
  · by_cases also : m.contains other = true
    · have bound := index_lt_size inside
      simp only [size] at bound
      by_cases same : other = address
      · subst same
        have kept : (m.write other value).index other = m.index other := by simp [index]
        rw [read?, contains_write, if_pos also, kept, if_pos ⟨rfl, inside⟩, write, if_pos inside]
        simp [bound]
      · have apart : m.index address ≠ m.index other := fun h =>
          same (index_inj also inside h.symm)
        have kept : (m.write address value).index other = m.index other := by simp [index]
        rw [read?, contains_write, if_pos also, kept, if_neg (by simp [same]), read?, if_pos also,
          write, if_pos inside]
        simp [apart]
    · have differs : other ≠ address := fun h => also (h ▸ inside)
      simp [read?, also, differs]
  · simp [write, inside]

def occupied (m : Memory) : List (Int × Word) :=
  m.cells.toList.zipIdx.filterMap fun (w, i) =>
    if w = 0 then none else some (m.base.toInt + i, w)

end Memory

end RegisterMachine
