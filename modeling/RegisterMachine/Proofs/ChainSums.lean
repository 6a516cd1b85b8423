import Mathlib.Algebra.BigOperators.Group.List.Basic
import Mathlib.Data.Int.ModEq
import RegisterMachine.Proofs.Emission
import RegisterMachine.Proofs.Operands

/-! Chains as sums. The words of a chain are added and subtracted one after the other and may wrap
around at every step, in either direction. What comes out is the sum over the integers, reduced to a
word once at the end, so the order of the terms plays no part in it. -/

namespace RegisterMachine

namespace Word

theorem eq_ofInt_iff {w : Word} {n : Int} : w = Int32.ofInt n ↔ w.toInt ≡ n [ZMOD 2 ^ 32] := by
  constructor
  · rintro rfl
    rw [Int32.toInt_ofInt]
    exact Int.bmod_emod
  · intro congruent
    have reduced : w.toInt.bmod (2 ^ 32) = n.bmod (2 ^ 32) := by
      rw [← Int.emod_bmod w.toInt, ← Int.emod_bmod n]
      exact congrArg (Int.bmod · (2 ^ 32)) congruent
    rw [← Int32.toInt_inj, ← Int32.ofInt_toInt w, Int32.toInt_ofInt, Int32.toInt_ofInt]
    exact reduced

theorem ofInt_add_word (n : Int) (w : Word) : Int32.ofInt n + w = Int32.ofInt (n + w.toInt) := by
  rw [Int32.ofInt_add, Int32.ofInt_toInt]

theorem ofInt_sub_word (n : Int) (w : Word) : Int32.ofInt n - w = Int32.ofInt (n - w.toInt) := by
  rw [Int32.ofInt_sub, Int32.ofInt_toInt]

theorem text_eq_toString (w : Word) : w.text = toString w.toInt := by
  rw [text, Text.Decimal.ofInt]
  cases w.toInt with
  | ofNat n => simp [Text.Decimal.ofNat, toString, Int.repr, Nat.repr]
  | negSucc n => simp [Text.Decimal.ofNat, toString, Int.repr, Nat.repr, Int.negSucc_lt_zero]

theorem read_operand_text (w : Word) :
    Operand.read w.text.toList = .ok ⟨⟨.literal w, []⟩, false⟩ := by
  have shown : (⟨⟨.literal w, []⟩, false⟩ : Operand).text = w.text := by
    simp [Operand.text, Expr.text, Term.text]
  rw [← shown, Operand.read_text]
  rfl

end Word

namespace Expr

variable (bank : Bank)

def sumOf (sign : Sign) (tail : List (Sign × Term)) : Int :=
  ((tail.filter (·.1 = sign)).map fun link => (link.2.value bank).toInt).sum

def total (e : Expr) : Int :=
  (e.head.value bank).toInt + sumOf bank .plus e.tail - sumOf bank .minus e.tail

theorem sumOf_cons (sign s : Sign) (t : Term) (tail : List (Sign × Term)) :
    sumOf bank sign ((s, t) :: tail) =
      (if s = sign then (t.value bank).toInt else 0) + sumOf bank sign tail := by
  by_cases same : s = sign <;> simp [sumOf, same]

theorem sumOf_append (sign : Sign) (tail more : List (Sign × Term)) :
    sumOf bank sign (tail ++ more) = sumOf bank sign tail + sumOf bank sign more := by
  simp [sumOf]

theorem sumOf_perm (sign : Sign) {tail tail' : List (Sign × Term)} (perm : tail.Perm tail') :
    sumOf bank sign tail = sumOf bank sign tail' :=
  ((perm.filter _).map _).sum_eq

theorem foldl_ofInt (tail : List (Sign × Term)) (n : Int) :
    tail.foldl (fun x (s, t) => s.apply x (t.value bank)) (Int32.ofInt n) =
      Int32.ofInt (n + sumOf bank .plus tail - sumOf bank .minus tail) := by
  induction tail generalizing n with
  | nil => simp [sumOf]
  | cons link tail ih =>
    obtain ⟨s, t⟩ := link
    rw [List.foldl_cons]
    dsimp only
    cases s with
    | plus =>
      rw [Sign.apply, Word.ofInt_add_word, ih, sumOf_cons, sumOf_cons]
      simp only [reduceCtorEq, if_true, if_false]
      congr 1
      omega
    | minus =>
      rw [Sign.apply, Word.ofInt_sub_word, ih, sumOf_cons, sumOf_cons]
      simp only [reduceCtorEq, if_true, if_false]
      congr 1
      omega

theorem eval_eq_ofInt (e : Expr) : e.eval bank = Int32.ofInt (e.total bank) := by
  rw [total, ← foldl_ofInt, Int32.ofInt_toInt, eval]

theorem eval_of_total {e e' : Expr} (same : e.total bank = e'.total bank) :
    e.eval bank = e'.eval bank := by
  rw [eval_eq_ofInt, eval_eq_ofInt, same]

theorem total_perm (head : Term) {tail tail' : List (Sign × Term)} (perm : tail.Perm tail') :
    total bank ⟨head, tail⟩ = total bank ⟨head, tail'⟩ := by
  simp only [total, sumOf_perm bank _ perm]

theorem total_append_cancelling (head t : Term) (tail : List (Sign × Term)) :
    total bank ⟨head, tail ++ [(.plus, t), (.minus, t)]⟩ = total bank ⟨head, tail⟩ := by
  simp only [total, sumOf_append]
  simp [sumOf]
  omega

end Expr

namespace Machine

theorem carryOut_print (m : Machine) (scene : Scene) (o : Operand) :
    m.carryOut (.unary .print o) scene =
      follow scene.state.store scene.state.pc (scene.state.steps + 1) scene.streams
        (.emit .out (o.expr.eval scene.state.store.bank).text) := rfl

end Machine

namespace Expr

/-- A chain has the value of its sum over the integers, reduced to a word: it is the one word that is
congruent to that sum. So neither the order of the terms matters nor a pair that cancels out; and what
a print writes is that word in decimal, which is read back as the literal. -/
theorem eval_is_reduced_sum (bank : Bank) (e : Expr) :
    (∀ w : Word, w = e.eval bank ↔ w.toInt ≡ e.total bank [ZMOD 2 ^ 32]) ∧
    (∀ tail : List (Sign × Term), tail.Perm e.tail →
      eval bank ⟨e.head, tail⟩ = e.eval bank) ∧
    (∀ t : Term,
      eval bank ⟨e.head, e.tail ++ [(.plus, t), (.minus, t)]⟩ = e.eval bank ∧
      eval bank ⟨e.head, e.tail ++ [(.minus, t), (.plus, t)]⟩ = e.eval bank) ∧
    let written := toString (e.eval bank).toInt
    (∀ (m : Machine) (memory : Memory) (pc steps : Nat) (streams : Streams) (wrapped : Bool),
      let print : Instruction := .unary .print ⟨e, wrapped⟩
      let scene : Scene := ⟨⟨⟨bank, memory⟩, pc, steps⟩, streams⟩
      (m.program.decoded? pc = some (.ok (some print)) → m.turn scene = m.carryOut print scene) ∧
      (m.carryOut print scene).scene.streams = streams.write .out written.toUTF8 ∧
      (streams.out.hasRoom written.toUTF8 = true →
        m.carryOut print scene =
          .goes ⟨⟨⟨bank, memory⟩, pc + 1, steps + 1⟩, streams.write .out written.toUTF8⟩)) ∧
    Operand.read written.toList = .ok ⟨⟨.literal (e.eval bank), []⟩, false⟩ := by
  have cancels (t : Term) :
      eval bank ⟨e.head, e.tail ++ [(.plus, t), (.minus, t)]⟩ = e.eval bank :=
    eval_of_total bank (total_append_cancelling bank e.head t e.tail)
  have reorders (tail tail' : List (Sign × Term)) (perm : tail.Perm tail') :
      eval bank ⟨e.head, tail⟩ = eval bank ⟨e.head, tail'⟩ :=
    eval_of_total bank (total_perm bank e.head perm)
  refine ⟨fun w => ?_, fun tail => reorders tail e.tail, fun t => ⟨cancels t, ?_⟩, ?_, ?_⟩
  · rw [eval_eq_ofInt, Word.eq_ofInt_iff]
  · rw [← cancels t]
    exact reorders _ _ (.append_left e.tail (.swap _ _ []))
  · intro m memory pc steps streams wrapped print scene
    rw [← Word.text_eq_toString]
    have turns (found : m.program.decoded? scene.state.pc = some (.ok (some print))) :
        m.turn scene = m.carryOut print scene := Machine.turn_of_instruction found
    refine ⟨turns, ?_, fun room => ?_⟩
    · rw [Machine.carryOut_print, Machine.follow]
      dsimp only
      split <;> rfl
    · rw [Machine.carryOut_print, Machine.follow]
      exact if_pos room
  · rw [← Word.text_eq_toString]
    exact Word.read_operand_text _

def threefold : Expr :=
  ⟨.register .a, [(.plus, .literal 2147483647), (.minus, .register .b)]⟩

def extremes : Bank :=
  { a := 2147483647, b := -2147483648, c := 0, fp := 8, sp := 8 }

theorem eval_is_reduced_sum_of_threefold :
    let m := Machine.ofLines #["PRINT #(A+2147483647-B)"]
    let scene : Scene := ⟨⟨⟨extremes, Memory.zeros 4 4⟩, 1, 0⟩, {}⟩
    threefold.total extremes = 6442450942 ∧ threefold.eval extremes = 2147483646 ∧
      eval extremes ⟨.register .a, [(.minus, .register .b), (.plus, .literal 2147483647)]⟩ =
        2147483646 ∧
      m.turn scene = .goes ⟨⟨⟨extremes, Memory.zeros 4 4⟩, 2, 1⟩,
        Streams.write {} .out "2147483646".toUTF8⟩ := by
  intro m scene
  obtain ⟨unique, reorders, -, prints, -⟩ := eval_is_reduced_sum extremes threefold
  have value : threefold.eval extremes = 2147483646 := ((unique 2147483646).mpr (by decide)).symm
  have text : toString (threefold.eval extremes).toInt = "2147483646" := by rw [value]; rfl
  rw [text] at prints
  obtain ⟨turns, -, goes⟩ := prints m (Memory.zeros 4 4) 1 0 {} true
  have line : m.program.decoded? 1 = some (.ok (some (.unary .print ⟨threefold, true⟩))) := by
    decide
  exact ⟨by decide, value, (reorders _ (.swap _ _ [])).trans value, (turns line).trans (goes rfl)⟩

end Expr

end RegisterMachine
