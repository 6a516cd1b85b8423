import Mathlib.Data.List.Infix
import Mathlib.Data.List.Nodup
import RegisterMachine.Proofs.PointerArithmetic
import RegisterMachine.Proofs.SourceLines

/-! What a dump tells. It lists the live cells with what is in them, each once and from the highest
address down, and marks the pointers that stand on one of them. Every field of the text ends at a
character that cannot stand in it, so that the text can be taken apart again: no line of a program, which
is quoted as it stands, can be mistaken for another field. -/

namespace RegisterMachine

open Text

section Fields

variable {p : Char → Bool} {u v r r' : List Char}

theorem field_inj (first : ∀ c ∈ u, p c = true) (second : ∀ c ∈ v, p c = true)
    (ends : r.takeWhile p = []) (ends' : r'.takeWhile p = []) (same : u ++ r = v ++ r') :
    u = v ∧ r = r' := by
  have whole := congrArg (List.takeWhile p) same
  rw [List.takeWhile_append_of_pos first, List.takeWhile_append_of_pos second, ends, ends',
    List.append_nil, List.append_nil] at whole
  subst whole
  exact ⟨rfl, List.append_cancel_left same⟩

def isNumeric (c : Char) : Bool :=
  c.isDigit || c == '-'

theorem isNumeric_ofNat (n : Nat) : ∀ c ∈ (Decimal.ofNat n).toList, isNumeric c = true := by
  intro c mem
  rw [Decimal.toList_ofNat] at mem
  simp [isNumeric, Decimal.isDigit_of_mem_toDigits mem]

theorem Word.isNumeric_text (w : Word) : ∀ c ∈ w.text.toList, isNumeric c = true := by
  intro c mem
  rw [Word.text, Decimal.toList_ofInt] at mem
  split at mem
  · rcases List.mem_cons.mp mem with rfl | mem
    · rfl
    · simp [isNumeric, Decimal.isDigit_of_mem_toDigits mem]
  · simp [isNumeric, Decimal.isDigit_of_mem_toDigits mem]

theorem Decimal.ofNat_inj {m n : Nat} (same : (Decimal.ofNat m).toList = (Decimal.ofNat n).toList) :
    m = n := by
  rw [Decimal.toList_ofNat, Decimal.toList_ofNat] at same
  rw [← Decimal.value_toDigits m, same, Decimal.value_toDigits]

theorem Word.text_inj {x y : Word} (same : x.text.toList = y.text.toList) : x = y := by
  have read := Word.read?_text x
  rw [same, Word.read?_text] at read
  exact (Option.some.inj read).symm

theorem nat_field_inj {m n : Nat} (ends : r.takeWhile isNumeric = [])
    (ends' : r'.takeWhile isNumeric = [])
    (same : (Decimal.ofNat m).toList ++ r = (Decimal.ofNat n).toList ++ r') : m = n ∧ r = r' := by
  obtain ⟨digits, rest⟩ := field_inj (isNumeric_ofNat m) (isNumeric_ofNat n) ends ends' same
  exact ⟨Decimal.ofNat_inj digits, rest⟩

theorem word_field_inj {x y : Word} (ends : r.takeWhile isNumeric = [])
    (ends' : r'.takeWhile isNumeric = []) (same : x.text.toList ++ r = y.text.toList ++ r') :
    x = y ∧ r = r' := by
  obtain ⟨digits, rest⟩ := field_inj x.isNumeric_text y.isNumeric_text ends ends' same
  exact ⟨Word.text_inj digits, rest⟩

theorem line_field_inj (first : '\n' ∉ u) (second : '\n' ∉ v)
    (same : u ++ ("\n".toList ++ r) = v ++ ("\n".toList ++ r')) : u = v ∧ r = r' := by
  have inside {text : List Char} (plain : '\n' ∉ text) : ∀ c ∈ text, (c != '\n') = true := by
    intro c mem
    rw [bne_iff_ne]
    rintro rfl
    exact plain mem
  obtain ⟨line, rest⟩ := field_inj (inside first) (inside second) (by rfl) (by rfl) same
  exact ⟨line, List.append_cancel_left rest⟩

end Fields

theorem Bank.eq_of_get {x y : Bank} (same : ∀ r, x.get r = y.get r) : x = y := by
  obtain ⟨a, b, c, fp, sp⟩ := x
  obtain ⟨a', b', c', fp', sp'⟩ := y
  cases same .a
  cases same .b
  cases same .c
  cases same .fp
  cases same .sp
  rfl

theorem notMem_text {c : Char} (other : isNumeric c = false) (w : Word) : c ∉ w.text.toList := by
  intro mem
  rw [w.isNumeric_text c mem] at other
  cases other

theorem cons_infix_append_iff {c : Char} {name u v : List Char} (absent : c ∉ u) :
    c :: name <:+: u ++ v ↔ c :: name <:+: v := by
  induction u with
  | nil => exact Iff.rfl
  | cons d u ih =>
    rw [List.mem_cons, not_or] at absent
    rw [List.cons_append, List.infix_cons_iff, List.cons_prefix_cons, ih absent.2]
    simp [absent.1]

/-- What a dump writes behind the value of a cell on which these pointers stand. -/
def pointerMark : List Register → String
  | [] => ""
  | pointers => "  <- " ++ ", ".intercalate (pointers.map Register.name)

def Register.namedIn (r : Register) (line : String) : Bool :=
  decide (r.name.toList <:+: line.toList)

namespace Bank

def pointersAt (b : Bank) (address : Word) : List Register :=
  [.sp, .fp].filter (address == b.get ·)

/-- The line for a cell, without its end. -/
def cellLine (b : Bank) (address value : Word) : String :=
  String.join ["    [", address.text, "] ", value.text, pointerMark (b.pointersAt address)]

end Bank

namespace Slot

theorem newline_notMem_marker (s : Slot) : '\n' ∉ s.marker.toList := by
  rw [marker]
  split <;> decide

theorem marker_ends (s : Slot) (rest : List Char) :
    (s.marker.toList ++ ("\n".toList ++ rest)).takeWhile isNumeric = [] := by
  rw [marker]
  split <;> rfl

theorem toList_render (s : Slot) :
    s.render.toList = "    [".toList ++ (s.address.text.toList ++ ("] ".toList ++
      (s.value.text.toList ++ (s.marker.toList ++ "\n".toList)))) := by
  simp only [render, String.toList_append, List.append_assoc]

theorem namedIn_marker (s : Slot) :
    Register.namedIn .sp s.marker = s.atSp ∧ Register.namedIn .fp s.marker = s.atFp := by
  rw [marker]
  cases s.atSp <;> cases s.atFp <;> decide

theorem eq_of_marker {s t : Slot} (address : s.address = t.address) (value : s.value = t.value)
    (marker : s.marker = t.marker) : s = t := by
  have sp : s.atSp = t.atSp := by rw [← s.namedIn_marker.1, marker, t.namedIn_marker.1]
  have fp : s.atFp = t.atFp := by rw [← s.namedIn_marker.2, marker, t.namedIn_marker.2]
  obtain ⟨_, _, _, _⟩ := s
  obtain ⟨_, _, _, _⟩ := t
  cases address
  cases value
  cases sp
  cases fp
  rfl

theorem render_append_inj {s t : Slot} {r r' : List Char}
    (same : s.render.toList ++ r = t.render.toList ++ r') : s = t ∧ r = r' := by
  simp only [toList_render, List.append_assoc] at same
  obtain ⟨address, same⟩ := word_field_inj (by rfl) (by rfl) (List.append_cancel_left same)
  obtain ⟨value, same⟩ :=
    word_field_inj (s.marker_ends r) (t.marker_ends r') (List.append_cancel_left same)
  obtain ⟨marker, same⟩ := line_field_inj s.newline_notMem_marker t.newline_notMem_marker same
  exact ⟨eq_of_marker address value (String.toList_inj.mp marker), same⟩

theorem join_render_inj {slots slots' : List Slot}
    (same : slots.flatMap (·.render.toList) = slots'.flatMap (·.render.toList)) :
    slots = slots' := by
  induction slots generalizing slots' with
  | nil =>
    cases slots' with
    | nil => rfl
    | cons slot rest => simp [toList_render] at same
  | cons slot rest ih =>
    cases slots' with
    | nil => simp [toList_render] at same
    | cons slot' rest' =>
      obtain ⟨first, others⟩ := render_append_inj same
      rw [first, ih others]

end Slot

namespace Snapshot

theorem stack_of_empty {s : Snapshot} (empty : s.slots = []) :
    s.stack = "  stack: (empty)\n" := by
  rw [stack, empty]

theorem stack_of_filled {s : Snapshot} (filled : s.slots ≠ []) :
    s.stack = "  stack:\n" ++ String.join (s.slots.map Slot.render) := by
  rw [stack]
  split
  · rename_i empty
    exact (filled empty).elim
  · rfl

theorem heading_append_inj {s t : Snapshot} {r r' : List Char} (plain : '\n' ∉ s.text.toList)
    (plain' : '\n' ∉ t.text.toList) (same : s.heading.toList ++ r = t.heading.toList ++ r') :
    s.line = t.line ∧ s.text = t.text ∧ s.bank = t.bank ∧ r = r' := by
  simp only [heading, opening, registers, String.toList_append, String.toList_join,
    List.flatMap_cons, List.flatMap_nil, List.append_assoc, List.nil_append] at same
  replace same := List.append_cancel_left same
  obtain ⟨line, rest⟩ := nat_field_inj (by rfl) (by rfl) same
  rw [line] at rest
  replace rest := List.append_cancel_left (List.append_cancel_left rest)
  replace rest := List.append_cancel_left (List.append_cancel_left rest)
  obtain ⟨text, rest⟩ := line_field_inj plain plain' rest
  obtain ⟨a, rest⟩ := word_field_inj (by rfl) (by rfl) (List.append_cancel_left rest)
  obtain ⟨b, rest⟩ := word_field_inj (by rfl) (by rfl) (List.append_cancel_left rest)
  obtain ⟨c, rest⟩ := word_field_inj (by rfl) (by rfl) (List.append_cancel_left rest)
  replace rest := List.append_cancel_left (List.append_cancel_left (List.append_cancel_left rest))
  obtain ⟨fp, rest⟩ := word_field_inj (by rfl) (by rfl) (List.append_cancel_left rest)
  obtain ⟨sp, rest⟩ := word_field_inj (by rfl) (by rfl) (List.append_cancel_left rest)
  have bank : s.bank = t.bank := Bank.eq_of_get fun r => by cases r <;> assumption
  exact ⟨line, String.toList_inj.mp text, bank, List.append_cancel_left rest⟩

theorem stack_inj {s t : Snapshot} (same : s.stack.toList = t.stack.toList) :
    s.slots = t.slots := by
  have differs (slots : List Slot) :
      "  stack: (empty)\n".toList ≠ ("  stack:\n" ++ String.join (slots.map Slot.render)).toList := by
    simp
  by_cases empty : s.slots = [] <;> by_cases empty' : t.slots = []
  · rw [empty, empty']
  · rw [stack_of_empty empty, stack_of_filled empty'] at same
    exact (differs _ same).elim
  · rw [stack_of_filled empty, stack_of_empty empty'] at same
    exact (differs _ same.symm).elim
  · rw [stack_of_filled empty, stack_of_filled empty', String.toList_append, String.toList_append,
      String.toList_join, String.toList_join, List.flatMap_map, List.flatMap_map] at same
    exact Slot.join_render_inj (List.append_cancel_left same)

theorem render_inj {s t : Snapshot} (plain : '\n' ∉ s.text.toList) (plain' : '\n' ∉ t.text.toList)
    (same : s.render = t.render) : s = t := by
  rw [render, render, ← String.toList_inj, String.toList_append, String.toList_append] at same
  obtain ⟨line, text, bank, rest⟩ := heading_append_inj plain plain' same
  have slots := stack_inj rest
  obtain ⟨_, _, _, _⟩ := s
  obtain ⟨_, _, _, _⟩ := t
  cases line
  cases text
  cases bank
  cases slots
  rfl

def liveCells (w : Window) (s : Store) : List (Word × Word) :=
  (liveAddresses w s).map fun address => (address, (s.memory.read? address).getD 0)

def cellLines (w : Window) (s : Store) : List String :=
  (liveCells w s).map fun (address, value) => s.bank.cellLine address value

section Contents

variable {w : Window} {s : Store}

theorem bottom_le_sp_iff : bottom w s ≤ s.bank.sp ↔ w.base ≤ s.bank.sp := by
  change (if s.bank.sp ≤ w.base then w.base else s.bank.sp) ≤ s.bank.sp ↔ w.base ≤ s.bank.sp
  split
  · exact Iff.rfl
  · rename_i above
    exact ⟨fun _ => Int32.le_of_lt (Int32.not_le.mp above), fun _ => Int32.le_refl _⟩

theorem base_le_bottom : w.base ≤ bottom w s := by
  change w.base ≤ if s.bank.sp ≤ w.base then w.base else s.bank.sp
  split
  · exact Int32.le_refl _
  · rename_i above
    exact Int32.le_of_lt (Int32.not_le.mp above)

theorem toInt_of_range {i : Nat} (inside : i < (w.top.toInt - (bottom w s).toInt).toNat) :
    (Int32.ofInt (w.top.toInt - 1 - i)).toInt = w.top.toInt - 1 - i := by
  have low := (Word.toInt_bounds (bottom w s)).1
  have high := (Word.toInt_bounds w.top).2
  exact Int32.toInt_ofInt_of_le (by omega) (by omega)

theorem mem_liveAddresses {address : Word} :
    address ∈ liveAddresses w s ↔ bottom w s ≤ address ∧ address < w.top := by
  rw [Int32.le_iff_toInt_le, Int32.lt_iff_toInt_lt, liveAddresses]
  simp only [List.mem_map, List.mem_range]
  constructor
  · rintro ⟨i, inside, rfl⟩
    rw [toInt_of_range inside]
    omega
  · rintro ⟨low, high⟩
    refine ⟨(w.top.toInt - 1 - address.toInt).toNat, by omega, ?_⟩
    rw [← Int32.toInt_inj, toInt_of_range (w := w) (s := s) (by omega)]
    omega

theorem pairwise_liveAddresses : (liveAddresses w s).Pairwise (· > ·) := by
  rw [liveAddresses, List.pairwise_map]
  refine List.pairwise_lt_range.imp_of_mem fun {i j} first second before => ?_
  rw [List.mem_range] at first second
  change Int32.ofInt _ < Int32.ofInt _
  rw [Int32.lt_iff_toInt_lt, toInt_of_range first, toInt_of_range second]
  omega

theorem nodup_liveAddresses : (liveAddresses w s).Nodup := by
  refine pairwise_liveAddresses.imp fun {a b} above => ?_
  rintro rfl
  exact Int32.lt_irrefl above

theorem map_address : ((liveAddresses w s).map (slot s)).map Slot.address = liveAddresses w s := by
  rw [List.map_map]
  exact List.map_id _

theorem map_fst_liveCells : (liveCells w s).map Prod.fst = liveAddresses w s := by
  rw [liveCells, List.map_map]
  exact List.map_id _

theorem liveAddresses_eq_nil_iff : liveAddresses w s = [] ↔ w.top ≤ bottom w s := by
  rw [liveAddresses, List.map_eq_nil_iff, List.range_eq_nil, Int32.le_iff_toInt_le]
  omega

theorem countP_address (x : Word) :
    (liveAddresses w s).countP (· == x) = if bottom w s ≤ x ∧ x < w.top then 1 else 0 := by
  change (liveAddresses w s).count x = _
  rw [nodup_liveAddresses.count]
  simp only [mem_liveAddresses]

theorem marker_slot (s : Store) (address : Word) :
    (slot s address).marker = pointerMark (s.bank.pointersAt address) := by
  have at_sp : (slot s address).atSp = (address == s.bank.get .sp) := rfl
  have at_fp : (slot s address).atFp = (address == s.bank.get .fp) := rfl
  rw [Slot.marker, at_sp, at_fp, Bank.pointersAt]
  cases sp : address == s.bank.get .sp <;> cases fp : address == s.bank.get .fp <;>
    simp only [List.filter, sp, fp] <;> rfl

theorem namedIn_cellLine (s : Store) (address value : Word) {r : Register}
    (pointer : r = .sp ∨ r = .fp) :
    r.namedIn (s.bank.cellLine address value) = (address == s.bank.get r) := by
  have letters : ∃ c rest, r.name.toList = c :: rest ∧ isNumeric c = false ∧
      c ∉ "    [".toList ∧ c ∉ "] ".toList := by
    rcases pointer with rfl | rfl
    · exact ⟨'S', ['P'], rfl, rfl, by decide, by decide⟩
    · exact ⟨'F', ['P'], rfl, rfl, by decide, by decide⟩
  obtain ⟨c, rest, name, other, before, between⟩ := letters
  have marked : r.namedIn (s.bank.cellLine address value) = r.namedIn (slot s address).marker := by
    rw [Register.namedIn, Register.namedIn, decide_eq_decide, Bank.cellLine, marker_slot, name]
    simp only [String.toList_join, List.flatMap_cons, List.flatMap_nil, List.append_nil]
    rw [cons_infix_append_iff before, cons_infix_append_iff (notMem_text other _),
      cons_infix_append_iff between, cons_infix_append_iff (notMem_text other _)]
  rw [marked]
  rcases pointer with rfl | rfl
  · exact (slot s address).namedIn_marker.1
  · exact (slot s address).namedIn_marker.2

theorem countP_namedIn {r : Register} (pointer : r = .sp ∨ r = .fp) :
    (cellLines w s).countP r.namedIn =
      if bottom w s ≤ s.bank.get r ∧ s.bank.get r < w.top then 1 else 0 := by
  rw [← countP_address, cellLines, liveCells, List.map_map, List.countP_map]
  refine List.countP_congr fun address _ => ?_
  dsimp only [Function.comp_apply]
  rw [namedIn_cellLine _ _ _ pointer]

theorem countP_namedIn_sp :
    (cellLines w s).countP (Register.namedIn .sp) =
      if w.base ≤ s.bank.sp ∧ s.bank.sp < w.top then 1 else 0 := by
  simp only [← bottom_le_sp_iff (w := w) (s := s)]
  exact countP_namedIn (.inl rfl)

theorem render_slot (s : Store) (address : Word) :
    (slot s address).render =
      s.bank.cellLine address ((s.memory.read? address).getD 0) ++ "\n" := by
  rw [Slot.render, Bank.cellLine, marker_slot]
  simp [← String.toList_inj, slot]

theorem map_render_slots :
    ((liveAddresses w s).map (slot s)).map Slot.render =
      (cellLines w s).map (· ++ "\n") := by
  simp only [cellLines, liveCells, List.map_map]
  exact List.map_congr_left fun address _ => render_slot s address

theorem read?_slot (covers : s.memory.Covers w) {address : Word}
    (live : address ∈ liveAddresses w s) :
    s.memory.read? address = some (slot s address).value := by
  obtain ⟨low, high⟩ := mem_liveAddresses.mp live
  obtain ⟨x, found⟩ := covers.exists_read? ⟨Int32.le_trans base_le_bottom low, high⟩
  rw [slot, found, Option.getD_some]

end Contents

end Snapshot

namespace Machine

variable {m : Machine} {s : State}

/-- The states that the machine can be looked at in: those it is left in, and those at the loop heads of
a further execution. -/
def Visited (m : Machine) (s : State) : Prop :=
  ∃ r clock streams n scene,
    Reachable m r ∧ LoopHead m clock ⟨r, streams⟩ n scene ∧ scene.state = s

theorem Reachable.visited (reached : Reachable m s) : m.Visited s :=
  ⟨s, fun _ => ⟨0⟩, {}, 0, ⟨s, {}⟩, reached, .start, rfl⟩

theorem Visited.covers (visited : m.Visited s) : s.store.memory.Covers m.window := by
  obtain ⟨r, clock, streams, n, scene, reached, head, rfl⟩ := visited
  exact head.covers reached

def Live (m : Machine) (s : State) (address : Word) : Prop :=
  max s.store.bank.sp m.window.base ≤ address ∧ address < m.window.top

instance (m : Machine) (s : State) (address : Word) : Decidable (m.Live s address) :=
  inferInstanceAs (Decidable (_ ∧ _))

theorem live_iff {address : Word} :
    m.Live s address ↔ address ∈ (m.snapshot s).slots.map Slot.address := by
  change _ ↔ address ∈ ((Snapshot.liveAddresses m.window s.store).map _).map _
  rw [Snapshot.map_address, Snapshot.mem_liveAddresses]
  exact Iff.rfl

theorem slots_eq_nil_iff :
    (m.snapshot s).slots = [] ↔ ¬max s.store.bank.sp m.window.base < m.window.top := by
  change List.map _ _ = [] ↔ _
  rw [List.map_eq_nil_iff, Snapshot.liveAddresses_eq_nil_iff, Int32.not_lt]
  exact Iff.rfl

theorem heading_snapshot (m : Machine) (s : State) :
    let line := Decimal.ofNat s.pc
    let bank := s.store.bank
    (m.snapshot s).heading = String.join ["--- machine state at line ", line, " ---\n",
      "  line ", line, ": ", Snapshot.currentText m.program s.pc, "\n",
      "  A=", bank.a.text, " B=", bank.b.text, " C=", bank.c.text, "\n",
      "  PC=", line, " FP=", bank.fp.text, " SP=", bank.sp.text, "\n"] := by
  rw [← String.toList_inj]
  simp only [Snapshot.heading, Snapshot.opening, Snapshot.registers, String.toList_append,
    String.toList_join, List.flatMap_cons, List.flatMap_nil, List.append_assoc, List.append_nil]
  rfl

theorem render_snapshot (m : Machine) (s : State) :
    (m.snapshot s).render = (m.snapshot s).heading ++
      if max s.store.bank.sp m.window.base < m.window.top then
        "  stack:\n" ++ String.join ((Snapshot.cellLines m.window s.store).map (· ++ "\n"))
      else "  stack: (empty)\n" := by
  rw [Snapshot.render]
  split
  · rename_i some_live
    have filled : (m.snapshot s).slots ≠ [] := fun empty => slots_eq_nil_iff.mp empty some_live
    rw [Snapshot.stack_of_filled filled, ← Snapshot.map_render_slots]
    rfl
  · rename_i none_live
    rw [Snapshot.stack_of_empty (slots_eq_nil_iff.mpr none_live)]

theorem newline_notMem_snapshot (source : String) (settings : Settings) (s : State) :
    '\n' ∉ (snapshot ⟨Program.ofSource source, settings⟩ s).text.toList := by
  change '\n' ∉ (Snapshot.currentText (Program.ofSource source) s.pc).toList
  unfold Snapshot.currentText
  split
  · rename_i text found
    rw [String.toList_ofList]
    exact fun newline => Program.newline_notMem_of_line? found (mem_of_mem_trim newline)
  · decide

/-- A dump is complete, and can be told from every other. It has one line for each live cell, from the
highest address down, with what is in the cell and with the names of the pointers that stand on it;
without a live cell it says so. And whatever program it is of, the text of the dump determines the
line, the registers and all cells that it lists. -/
theorem dump_is_complete_and_unambiguous (source : String) (settings : Settings) :
    let m : Machine := ⟨Program.ofSource source, settings⟩
    (∀ s, m.Visited s →
      let line := Decimal.ofNat s.pc
      let bank := s.store.bank
      let bottom := max bank.sp m.window.base
      ∃ cells : List (Word × Word),
        (cells.map Prod.fst).Pairwise (· > ·) ∧
        (∀ address, address ∈ cells.map Prod.fst ↔ bottom ≤ address ∧ address < m.window.top) ∧
        (∀ cell ∈ cells, s.store.memory.read? cell.1 = some cell.2) ∧
        let lines := cells.map fun (address, value) => bank.cellLine address value
        (m.snapshot s).render = String.join ["--- machine state at line ", line, " ---\n",
            "  line ", line, ": ", Snapshot.currentText m.program s.pc, "\n",
            "  A=", bank.a.text, " B=", bank.b.text, " C=", bank.c.text, "\n",
            "  PC=", line, " FP=", bank.fp.text, " SP=", bank.sp.text, "\n"] ++
          (if bottom < m.window.top then "  stack:\n" ++ String.join (lines.map (· ++ "\n"))
          else "  stack: (empty)\n") ∧
        lines.countP (Register.namedIn .sp) =
          (if m.window.base ≤ bank.sp ∧ bank.sp < m.window.top then 1 else 0) ∧
        lines.countP (Register.namedIn .fp) =
          if bottom ≤ bank.fp ∧ bank.fp < m.window.top then 1 else 0) ∧
    ∀ (source' : String) (settings' : Settings),
      let m' : Machine := ⟨Program.ofSource source', settings'⟩
      ∀ s t, m.Visited s → m'.Visited t → (m.snapshot s).render = (m'.snapshot t).render →
        s.pc = t.pc ∧ s.store.bank = t.store.bank ∧
        ∀ address, (m.Live s address ↔ m'.Live t address) ∧
          (m.Live s address → s.store.memory.read? address = t.store.memory.read? address) := by
  intro m
  constructor
  · intro s visited line bank bottom
    refine ⟨Snapshot.liveCells m.window s.store, ?_, fun address => ?_, fun cell listed => ?_,
      ?_, Snapshot.countP_namedIn_sp, Snapshot.countP_namedIn (.inr rfl)⟩
    · rw [Snapshot.map_fst_liveCells]
      exact Snapshot.pairwise_liveAddresses
    · rw [Snapshot.map_fst_liveCells]
      exact Snapshot.mem_liveAddresses
    · obtain ⟨address, live, rfl⟩ := List.mem_map.mp listed
      exact Snapshot.read?_slot visited.covers live
    · rw [m.render_snapshot s, m.heading_snapshot s, Snapshot.cellLines]
  · intro source' settings' m' s t visited visited' same
    have shown : m.snapshot s = m'.snapshot t :=
      Snapshot.render_inj (newline_notMem_snapshot source settings s)
        (newline_notMem_snapshot source' settings' t) same
    have listed (address : Word) : m.Live s address ↔ m'.Live t address := by
      rw [live_iff, live_iff, shown]
    refine ⟨congrArg Snapshot.line shown, congrArg Snapshot.bank shown, fun address => ⟨listed address, ?_⟩⟩
    intro live
    have mem : Snapshot.slot s.store address ∈ (m.snapshot s).slots :=
      List.mem_map_of_mem (Snapshot.mem_liveAddresses.mpr live)
    rw [shown] at mem
    obtain ⟨other, live', same_slot⟩ := List.mem_map.mp mem
    have here : other = address := congrArg Slot.address same_slot
    subst here
    rw [Snapshot.read?_slot visited.covers (Snapshot.mem_liveAddresses.mpr live),
      Snapshot.read?_slot visited'.covers live', same_slot]

def imitation : Machine :=
  ⟨Program.ofSource "PUSH 5\r\nDIV ;  stack: (empty)", { window := ⟨4, 6⟩ }⟩

def otherImitation : Machine :=
  ⟨Program.ofSource "PUSH 2+3\nDIV ;  stack: (empty)\n", { window := ⟨3, 6⟩ }⟩

theorem dump_is_complete_and_unambiguous_of_imitation :
    ∃ s t, imitation.Visited s ∧ otherImitation.Visited t ∧
      (imitation.snapshot s).render = (otherImitation.snapshot t).render ∧
      (∃ cells : List (Word × Word), (5, 5) ∈ cells ∧
        (cells.map fun (address, value) => s.store.bank.cellLine address value).countP
          (Register.namedIn .sp) = 1) ∧
      (imitation.snapshot s).render = String.join ["--- machine state at line 2 ---\n",
        "  line 2: DIV ;  stack: (empty)\n", "  A=0 B=0 C=0\n", "  PC=2 FP=6 SP=5\n",
        "  stack:\n", "    [5] 5  <- SP\n"] ∧
      imitation.Live s 5 ∧ s.store.memory.read? 5 = t.store.memory.read? 5 := by
  have run : imitation.execute (fun _ => ⟨0⟩) 9 imitation.initial {} =
      some ⟨.error ⟨2, .divisionByZero⟩,
        ⟨⟨⟨⟨0, 0, 0, 6, 5⟩, ⟨4, #[0, 5]⟩⟩, 2, 2⟩, {}⟩⟩ := by rfl
  have run' : otherImitation.execute (fun _ => ⟨0⟩) 9 otherImitation.initial {} =
      some ⟨.error ⟨2, .divisionByZero⟩,
        ⟨⟨⟨⟨0, 0, 0, 6, 5⟩, ⟨3, #[0, 0, 5]⟩⟩, 2, 2⟩, {}⟩⟩ := by rfl
  have visited := (Reachable.initial.execute run).visited
  have visited' := (Reachable.initial.execute run').visited
  obtain ⟨complete, told_apart⟩ :=
    dump_is_complete_and_unambiguous "PUSH 5\r\nDIV ;  stack: (empty)" { window := ⟨4, 6⟩ }
  obtain ⟨cells, -, listed, read, -, sp, -⟩ := complete _ visited
  obtain ⟨⟨address, value⟩, mem, rfl⟩ := List.mem_map.mp ((listed 5).mpr (by decide))
  have here : value = 5 := (Option.some.inj ((read _ mem).symm.trans (by rfl)))
  subst here
  have alike : imitation.snapshot ⟨⟨⟨0, 0, 0, 6, 5⟩, ⟨4, #[0, 5]⟩⟩, 2, 2⟩ =
      otherImitation.snapshot ⟨⟨⟨0, 0, 0, 6, 5⟩, ⟨3, #[0, 0, 5]⟩⟩, 2, 2⟩ := by decide +kernel
  have live : imitation.Live ⟨⟨⟨0, 0, 0, 6, 5⟩, ⟨4, #[0, 5]⟩⟩, 2, 2⟩ 5 := by decide
  have same := congrArg Snapshot.render alike
  obtain ⟨-, -, cells⟩ :=
    told_apart "PUSH 2+3\nDIV ;  stack: (empty)\n" { window := ⟨3, 6⟩ } _ _ visited visited' same
  exact ⟨_, _, visited, visited', same, ⟨_, mem, sp⟩, by decide +kernel, live, (cells 5).2 live⟩

end Machine

end RegisterMachine
