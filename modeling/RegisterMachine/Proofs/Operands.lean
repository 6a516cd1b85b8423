import RegisterMachine.Proofs.Numerals
import RegisterMachine.Proofs.Tokens

/-! Reading what is printed. A chain can be read only if no sign of a literal follows the sign that
joins it to the chain, nor stands before the whole chain; a sign is a part of the literal only where
the literal is alone. -/

namespace RegisterMachine

open Text Instruction

def Term.isUnsigned : Term → Bool
  | .literal w => 0 ≤ w
  | .register _ => true

/-- No literal of the chain has a sign, unless the chain is that literal alone. -/
def Expr.isCanonical (e : Expr) : Bool :=
  (e.tail.isEmpty || e.head.isUnsigned) && e.tail.all (·.2.isUnsigned)

def Operand.isCanonical (o : Operand) : Bool :=
  o.expr.isCanonical

def Sign.char : Sign → Char
  | .plus => '+'
  | .minus => '-'

@[simp]
theorem Sign.ofChar?_char (s : Sign) : Sign.ofChar? s.char = some s := by
  cases s <;> rfl

@[simp]
theorem Sign.toList_text (s : Sign) : s.text.toList = [s.char] := by
  cases s <;> rfl

def isPrinted (c : Char) : Bool :=
  c.isAlphanum || c == '+' || c == '-'

theorem isPrinted_of_isDigit {c : Char} (digit : c.isDigit = true) : isPrinted c = true := by
  simp [isPrinted, Char.isAlphanum, digit]

theorem isSolid_of_isAlphanum {c : Char} (letter : c.isAlphanum = true) : isSolid c = true := by
  have bounds : 48 ≤ c.toNat ∧ c.toNat ≤ 57 ∨ 65 ≤ c.toNat ∧ c.toNat ≤ 90 ∨
      97 ≤ c.toNat ∧ c.toNat ≤ 122 := by
    change (decide (65 ≤ c.val ∧ c.val ≤ 90) || (97 ≤ c.val && c.val ≤ 122) ||
      (48 ≤ c.val && c.val ≤ 57)) = true at letter
    simp only [Bool.or_eq_true, Bool.and_eq_true, decide_eq_true_eq,
      UInt32.le_iff_toNat_le] at letter
    change (65 ≤ c.toNat ∧ c.toNat ≤ 90 ∨ 97 ≤ c.toNat ∧ c.toNat ≤ 122) ∨
      48 ≤ c.toNat ∧ c.toNat ≤ 57 at letter
    omega
  have comma : c ≠ ',' := by
    rintro rfl
    cases letter
  have semicolon : c ≠ ';' := by
    rintro rfl
    cases letter
  have blank : isBlank c = false := by
    simp only [isBlank, Bool.or_eq_false_iff, Bool.and_eq_false_iff, beq_eq_false_iff_ne,
      decide_eq_false_iff_not]
    omega
  simp [isSolid, isSeparator, comma, semicolon, blank]

theorem isSolid_of_isPrinted {c : Char} (printed : isPrinted c = true) : isSolid c = true := by
  simp only [isPrinted, Bool.or_eq_true, beq_iff_eq] at printed
  obtain (letter | rfl) | rfl := printed
  · exact isSolid_of_isAlphanum letter
  · rfl
  · rfl

theorem Sign.ofChar?_eq_none {c : Char} (letter : c.isAlphanum = true) : Sign.ofChar? c = none := by
  unfold ofChar?
  split
  · cases letter
  · cases letter
  · rfl

namespace Term

theorem toList_literal (w : Word) :
    (literal w).text.toList =
      if w.toInt < 0 then '-' :: Nat.toDigits 10 w.toInt.natAbs
      else Nat.toDigits 10 w.toInt.natAbs :=
  Decimal.toList_ofInt w.toInt

theorem isUnsigned_literal (w : Word) : (literal w).isUnsigned = true ↔ ¬w.toInt < 0 := by
  rw [isUnsigned, decide_eq_true_eq, Int32.le_iff_toInt_le, Int32.toInt_zero, Int.not_lt]

theorem text_ne_nil (t : Term) : t.text.toList ≠ [] := by
  cases t with
  | literal w =>
    rw [toList_literal]
    split
    · simp
    · exact Nat.toDigits_ne_nil
  | register r => cases r <;> decide

theorem isAlphanum_of_isUnsigned {t : Term} (unsigned : t.isUnsigned = true) :
    ∀ c ∈ t.text.toList, c.isAlphanum = true := by
  cases t with
  | literal w =>
    rw [toList_literal, if_neg ((isUnsigned_literal w).mp unsigned)]
    intro c mem
    have digit := Decimal.isDigit_of_mem_toDigits mem
    simp [Char.isAlphanum, digit]
  | register r => exact List.all_eq_true.mp (by cases r <;> rfl)

theorem text_of_signed {t : Term} (signed : t.isUnsigned = false) :
    ∃ digits, t.text.toList = '-' :: digits ∧ ∀ c ∈ digits, c.isDigit = true := by
  cases t with
  | literal w =>
    have negative : w.toInt < 0 := by
      rw [isUnsigned, decide_eq_false_iff_not, Int32.le_iff_toInt_le, Int32.toInt_zero] at signed
      omega
    refine ⟨Nat.toDigits 10 w.toInt.natAbs, ?_, fun c => Decimal.isDigit_of_mem_toDigits⟩
    rw [toList_literal, if_pos negative]
  | register r => cases signed

theorem isPrinted_text (t : Term) : ∀ c ∈ t.text.toList, isPrinted c = true := by
  intro c mem
  cases unsigned : t.isUnsigned with
  | true =>
    have letter := isAlphanum_of_isUnsigned unsigned c mem
    simp [isPrinted, letter]
  | false =>
    obtain ⟨digits, text, each⟩ := text_of_signed unsigned
    rw [text] at mem
    rcases List.mem_cons.mp mem with rfl | mem
    · rfl
    · exact isPrinted_of_isDigit (each c mem)

theorem read_text (t : Term) : Term.read t.text.toList = .ok t := by
  cases t with
  | literal w =>
    rw [Term.read, text, Word.read?_text]
  | register r => cases r <;> rfl

theorem isUnsigned_of_read {piece : List Char} {t : Term} (found : Term.read piece = .ok t)
    (plain : ∀ c ∈ piece, Sign.ofChar? c = none) : t.isUnsigned = true := by
  unfold Term.read at found
  split at found
  · rename_i w number
    cases found
    have unsigned : '-' ∉ piece := fun mem => by cases plain '-' mem
    exact decide_eq_true (Word.nonneg_of_read? number unsigned)
  · split at found
    · cases found
      rfl
    · split at found <;> cases found

end Term

namespace Expr

def tailText (tail : List (Sign × Term)) : List Char :=
  tail.flatMap fun (s, t) => s.char :: t.text.toList

theorem tailText_cons (s : Sign) (t : Term) (tail : List (Sign × Term)) :
    tailText ((s, t) :: tail) = s.char :: (t.text.toList ++ tailText tail) := by
  simp [tailText]

theorem toList_text (e : Expr) : e.text.toList = e.head.text.toList ++ tailText e.tail := by
  rw [text, String.toList_append, String.toList_join, List.flatMap_map]
  simp [tailText]

theorem isPrinted_tailText (tail : List (Sign × Term)) :
    ∀ c ∈ tailText tail, isPrinted c = true := by
  intro c mem
  obtain ⟨⟨s, t⟩, -, mem⟩ := List.mem_flatMap.mp mem
  rcases List.mem_cons.mp mem with rfl | mem
  · cases s <;> rfl
  · exact t.isPrinted_text c mem

theorem isPrinted_text (e : Expr) : ∀ c ∈ e.text.toList, isPrinted c = true := by
  intro c mem
  rw [toList_text] at mem
  rcases List.mem_append.mp mem with mem | mem
  · exact e.head.isPrinted_text c mem
  · exact isPrinted_tailText e.tail c mem

theorem read?_chain {e : Expr} (chain : e.tail ≠ []) : Word.read? e.text.toList = none := by
  obtain ⟨head, tail⟩ := e
  cases tail with
  | nil => exact (chain rfl).elim
  | cons first rest =>
    obtain ⟨s, t⟩ := first
    cases number : Word.read? (text ⟨head, (s, t) :: rest⟩).toList with
    | none => rfl
    | some w =>
      have mem : s.char ∈ (text ⟨head, (s, t) :: rest⟩).toList.tail := by
        rw [toList_text, tailText_cons, List.tail_append_of_ne_nil head.text_ne_nil]
        simp
      have digit := Word.isDigit_of_mem_tail number mem
      cases s <;> cases digit

theorem cut_tailText {tail : List (Sign × Term)}
    (unsigned : ∀ link ∈ tail, link.2.isUnsigned = true) :
    cut Sign.ofChar? (tailText tail) = ([], tail.map fun (s, t) => (s, t.text.toList)) := by
  induction tail with
  | nil => rfl
  | cons first rest ih =>
    obtain ⟨s, t⟩ := first
    have plain : ∀ c ∈ t.text.toList, Sign.ofChar? c = none := fun c mem =>
      Sign.ofChar?_eq_none (Term.isAlphanum_of_isUnsigned (unsigned _ List.mem_cons_self) c mem)
    have others := ih fun link mem => unsigned link (List.mem_cons_of_mem _ mem)
    rw [tailText_cons, cut_delimiter s.ofChar?_char, cut_append plain, others]
    simp

theorem cut_text {e : Expr} (head : e.head.isUnsigned = true)
    (unsigned : ∀ link ∈ e.tail, link.2.isUnsigned = true) :
    cut Sign.ofChar? e.text.toList =
      (e.head.text.toList, e.tail.map fun (s, t) => (s, t.text.toList)) := by
  have plain : ∀ c ∈ e.head.text.toList, Sign.ofChar? c = none := fun c mem =>
    Sign.ofChar?_eq_none (Term.isAlphanum_of_isUnsigned head c mem)
  rw [toList_text, cut_append plain, cut_tailText unsigned, List.append_nil]

theorem trim_term (t : Term) : trim t.text.toList = t.text.toList :=
  trim_eq_self fun c mem => isBlank_of_isSolid (isSolid_of_isPrinted (t.isPrinted_text c mem))

theorem mapM_read (tail : List (Sign × Term)) :
    (tail.map fun (s, t) => (s, t.text.toList)).mapM
      (fun (s, piece) => return (s, ← Term.read piece)) = (.ok tail : Except DecodeError _) := by
  induction tail with
  | nil => rfl
  | cons first rest ih =>
    obtain ⟨s, t⟩ := first
    rw [List.map_cons, List.mapM_cons, ih]
    dsimp only
    rw [Term.read_text]
    rfl

theorem read_of_literal (token : List Char) (w : Word) :
    Expr.read token (text ⟨.literal w, []⟩).toList = .ok ⟨.literal w, []⟩ := by
  have printed : (text ⟨.literal w, []⟩).toList = w.text.toList := by
    rw [toList_text]
    simp [tailText, Term.text]
  rw [Expr.read, printed, Word.read?_text]

theorem read_of_unsigned {e : Expr} (number : Word.read? e.text.toList = none)
    (head : e.head.isUnsigned = true)
    (unsigned : ∀ link ∈ e.tail, link.2.isUnsigned = true) (token : List Char) :
    Expr.read token e.text.toList = .ok e := by
  have trimmed : (e.tail.map fun (s, t) => (s, t.text.toList)).map
      (fun (s, piece) => (s, trim piece)) = e.tail.map fun (s, t) => (s, t.text.toList) := by
    rw [List.map_map]
    refine List.map_congr_left fun link _ => ?_
    simp [trim_term]
  have filled : (e.head.text.toList.isEmpty ||
      (e.tail.map fun (s, t) => (s, t.text.toList)).any (·.2.isEmpty)) = false := by
    have printed (t : Term) : t.text.toList.isEmpty = false := by
      rw [List.isEmpty_eq_false_iff]
      exact t.text_ne_nil
    simp only [printed, List.any_map, Bool.false_or, List.any_eq_false, Function.comp_apply]
    simp
  rw [Expr.read, number, cut_text head unsigned]
  dsimp only
  rw [trim_term, trimmed, filled, Term.read_text, mapM_read]
  rfl

theorem read_text {e : Expr} (canonical : e.isCanonical = true) (token : List Char) :
    Expr.read token e.text.toList = .ok e := by
  obtain ⟨head, tail⟩ := e
  simp only [isCanonical, Bool.and_eq_true, Bool.or_eq_true, List.all_eq_true] at canonical
  obtain ⟨first, unsigned⟩ := canonical
  cases tail with
  | nil =>
    cases head with
    | literal w => exact read_of_literal token w
    | register r => cases r <;> rfl
  | cons link rest =>
    have head : head.isUnsigned = true := by simpa using first
    exact read_of_unsigned (read?_chain (by simp)) head unsigned token

theorem tailText_append (before after : List (Sign × Term)) :
    tailText (before ++ after) = tailText before ++ tailText after :=
  List.flatMap_append

theorem missing_of_signed {e : Expr} (signed : e.isCanonical = false) :
    (cut Sign.ofChar? e.text.toList).1 = [] ∨
      ∃ s, (s, []) ∈ (cut Sign.ofChar? e.text.toList).2 := by
  obtain ⟨head, tail⟩ := e
  rw [toList_text]
  cases first : head.isUnsigned with
  | false =>
    obtain ⟨digits, text, -⟩ := Term.text_of_signed first
    have minus : Sign.ofChar? '-' = some .minus := rfl
    rw [text, List.cons_append, cut_delimiter minus]
    exact .inl rfl
  | true =>
    have some_signed : ∃ link ∈ tail, link.2.isUnsigned = false := by
      simpa [isCanonical, first] using signed
    obtain ⟨⟨s, t⟩, mem, link⟩ := some_signed
    obtain ⟨before, after, rfl⟩ := List.append_of_mem mem
    obtain ⟨digits, text, -⟩ := Term.text_of_signed link
    have minus : Sign.ofChar? '-' = some .minus := rfl
    have adjacent := empty_of_adjacent s.ofChar?_char minus
      (head.text.toList ++ tailText before) (digits ++ tailText after)
    refine .inr ⟨s, ?_⟩
    rw [tailText_append, tailText_cons, text, ← List.append_assoc]
    exact adjacent

theorem read_text_of_signed {e : Expr} (signed : e.isCanonical = false) (token : List Char) :
    Expr.read token e.text.toList = .error (.malformedExpression (String.ofList token)) := by
  have chain : e.tail ≠ [] := by
    intro alone
    simp [isCanonical, alone] at signed
  have missing := missing_of_signed signed
  rw [Expr.read, read?_chain chain]
  generalize cut Sign.ofChar? e.text.toList = pieces at missing
  obtain ⟨first, rest⟩ := pieces
  dsimp only at missing
  have faulty : ((trim first).isEmpty ||
      (rest.map fun (s, piece) => (s, trim piece)).any (·.2.isEmpty)) = true := by
    rcases missing with rfl | ⟨s, mem⟩
    · rfl
    · have empty : (s, trim []) ∈ rest.map fun (s, piece) => (s, trim piece) :=
        List.mem_map.mpr ⟨(s, []), mem, rfl⟩
      rw [Bool.or_eq_true, List.any_eq_true]
      exact .inr ⟨(s, trim []), empty, rfl⟩
  dsimp only
  rw [faulty]
  rfl

end Expr

namespace Operand

theorem toList_text (o : Operand) :
    o.text.toList =
      if o.indirect then '#' :: '(' :: (o.expr.text.toList ++ [')']) else o.expr.text.toList := by
  rw [text]
  split
  · simp only [String.toList_append]
    rfl
  · rfl

theorem isSolid_text (o : Operand) : ∀ c ∈ o.text.toList, isSolid c = true := by
  have inside (c : Char) (mem : c ∈ o.expr.text.toList) : isSolid c = true :=
    isSolid_of_isPrinted (o.expr.isPrinted_text c mem)
  rw [toList_text]
  split
  · intro c mem
    simp only [List.mem_cons, List.mem_append, List.not_mem_nil, or_false] at mem
    rcases mem with rfl | rfl | mem | rfl
    · rfl
    · rfl
    · exact inside c mem
    · rfl
  · exact inside

theorem text_ne_nil (o : Operand) : o.text.toList ≠ [] := by
  rw [toList_text]
  split
  · simp
  · rw [Expr.toList_text]
    simp [o.expr.head.text_ne_nil]

theorem unwrap?_text (o : Operand) :
    unwrap? o.text.toList = if o.indirect then some o.expr.text.toList else none := by
  have solid : trim o.expr.text.toList = o.expr.text.toList :=
    trim_eq_self fun c mem => isBlank_of_isSolid (isSolid_of_isPrinted (o.expr.isPrinted_text c mem))
  rw [toList_text]
  split
  · simp [unwrap?, solid]
  · unfold unwrap?
    split
    · rename_i rest same
      have printed := o.expr.isPrinted_text '#' (by rw [same]; exact List.mem_cons_self)
      cases printed
    · rfl

theorem read_text (o : Operand) :
    Operand.read o.text.toList =
      if o.isCanonical then .ok o else .error (.malformedExpression o.text) := by
  have solid : trim o.text.toList = o.text.toList :=
    trim_eq_self fun c mem => isBlank_of_isSolid (o.isSolid_text c mem)
  have body : Expr.read o.text.toList o.expr.text.toList =
      if o.isCanonical then .ok o.expr else .error (.malformedExpression o.text) := by
    rw [isCanonical]
    cases canonical : o.expr.isCanonical with
    | true => rw [Expr.read_text canonical, if_pos rfl]
    | false => rw [Expr.read_text_of_signed canonical, String.ofList_toList]; rfl
  rw [Operand.read, solid, unwrap?_text]
  cases wrapped : o.indirect with
  | true =>
    have same : (⟨o.expr, true⟩ : Operand) = o := by rw [← wrapped]
    rw [if_pos rfl]
    dsimp only
    rw [body]
    cases o.isCanonical with
    | true => exact congrArg Except.ok same
    | false => rfl
  | false =>
    have same : (⟨o.expr, false⟩ : Operand) = o := by rw [← wrapped]
    have bare : o.text.toList = o.expr.text.toList := by simp [toList_text, wrapped]
    rw [← bare] at body
    simp only [Bool.false_eq_true, if_false]
    rw [body]
    cases o.isCanonical with
    | true => exact congrArg Except.ok same
    | false => rfl

end Operand

theorem ok_of_bind {α β ε : Type} {x : Except ε α} {f : α → Except ε β} {b : β}
    (found : x >>= f = .ok b) : ∃ a, x = .ok a ∧ f a = .ok b := by
  cases x with
  | error e => cases found
  | ok a => exact ⟨a, rfl, found⟩

theorem forall_of_mapM {α β ε : Type} {f : α → Except ε β} {P : β → Prop} {l : List α}
    (each : ∀ a ∈ l, ∀ b, f a = .ok b → P b) {results : List β} (found : l.mapM f = .ok results) :
    ∀ b ∈ results, P b := by
  induction l generalizing results with
  | nil =>
    cases found
    simp
  | cons a l ih =>
    rw [List.mapM_cons] at found
    obtain ⟨b, first, found⟩ := ok_of_bind found
    obtain ⟨rest, others, found⟩ := ok_of_bind found
    cases found
    intro c mem
    rcases List.mem_cons.mp mem with rfl | mem
    · exact each a List.mem_cons_self c first
    · exact ih (fun a mem => each a (List.mem_cons_of_mem _ mem)) others c mem

theorem Expr.isCanonical_of_read {token body : List Char} {e : Expr}
    (found : Expr.read token body = .ok e) : e.isCanonical = true := by
  rw [Expr.read] at found
  split at found
  · cases found
    rfl
  · have plain := plain_of_cut Sign.ofChar? body
    generalize cut Sign.ofChar? body = pieces at plain found
    obtain ⟨first, rest⟩ := pieces
    dsimp only at plain found
    split at found
    · cases found
    · obtain ⟨head, first_read, found⟩ := ok_of_bind found
      obtain ⟨tail, rest_read, found⟩ := ok_of_bind found
      cases found
      have unsigned : head.isUnsigned = true :=
        Term.isUnsigned_of_read first_read fun c mem => plain.1 c (mem_of_mem_trim mem)
      have others : ∀ link ∈ tail, link.2.isUnsigned = true := by
        refine forall_of_mapM (fun piece mem link piece_read => ?_) rest_read
        obtain ⟨⟨s, untrimmed⟩, from_cut, rfl⟩ := List.mem_map.mp mem
        obtain ⟨t, term_read, same⟩ := ok_of_bind piece_read
        cases same
        exact Term.isUnsigned_of_read term_read fun c mem =>
          plain.2 (s, untrimmed) from_cut c (mem_of_mem_trim mem)
      rw [isCanonical, Bool.and_eq_true, Bool.or_eq_true, List.all_eq_true]
      exact ⟨.inr unsigned, others⟩

theorem Operand.isCanonical_of_read {token : List Char} {o : Operand}
    (found : Operand.read token = .ok o) : o.isCanonical = true := by
  rw [Operand.read] at found
  split at found
  · obtain ⟨e, expr, found⟩ := ok_of_bind found
    cases found
    exact Expr.isCanonical_of_read expr
  · obtain ⟨e, expr, found⟩ := ok_of_bind found
    cases found
    exact Expr.isCanonical_of_read expr

end RegisterMachine
