import RegisterMachine.Word

/-! Numerals. Reading gives back every number and every word that is written, and what it reads is a
run of digits with at most one sign before it. -/

namespace RegisterMachine

namespace Text.Decimal

theorem toList_ofNat (n : Nat) : (ofNat n).toList = Nat.toDigits 10 n := by
  rw [ofNat, String.toList_ofList]

theorem value_toDigits (n : Nat) : value (Nat.toDigits 10 n) = n :=
  Nat.ofDigitChars_ten_toDigits

theorem isDigit_of_mem_toDigits {n : Nat} {c : Char} (mem : c ∈ Nat.toDigits 10 n) :
    c.isDigit = true :=
  Nat.isDigit_of_mem_toDigits (by decide) (by decide) mem

theorem nat?_eq_some_iff {text : List Char} {n : Nat} :
    nat? text = some n ↔ text ≠ [] ∧ (∀ c ∈ text, c.isDigit = true) ∧ value text = n := by
  rw [nat?, ← List.all_eq_true]
  by_cases empty : text = []
  · simp [empty]
  · cases digits : text.all Char.isDigit <;> simp [empty]

theorem nat?_toDigits (n : Nat) : nat? (Nat.toDigits 10 n) = some n := by
  rw [nat?_eq_some_iff]
  exact ⟨Nat.toDigits_ne_nil, fun c => isDigit_of_mem_toDigits, value_toDigits n⟩

theorem int?_of_digits {digits : List Char} (each : ∀ c ∈ digits, c.isDigit = true) :
    int? digits = (nat? digits).map Int.ofNat := by
  cases digits with
  | nil => rfl
  | cons c rest =>
    have digit := each c List.mem_cons_self
    rw [int?]
    · intro rest same
      cases same
      cases digit
    · intro rest same
      cases same
      cases digit

theorem int?_eq_some {text : List Char} {n : Int} (found : int? text = some n) :
    ∃ digits, digits ≠ [] ∧ (∀ c ∈ digits, c.isDigit = true) ∧
      (text = digits ∧ 0 ≤ n ∨ text = '+' :: digits ∧ 0 ≤ n ∨ text = '-' :: digits) := by
  unfold int? at found
  split at found
  · rename_i digits
    obtain ⟨k, run, rfl⟩ := Option.map_eq_some_iff.mp found
    obtain ⟨nonempty, each, -⟩ := nat?_eq_some_iff.mp run
    exact ⟨digits, nonempty, each, .inr (.inl ⟨rfl, Int.natCast_nonneg k⟩)⟩
  · rename_i digits
    obtain ⟨k, run, rfl⟩ := Option.map_eq_some_iff.mp found
    obtain ⟨nonempty, each, -⟩ := nat?_eq_some_iff.mp run
    exact ⟨digits, nonempty, each, .inr (.inr rfl)⟩
  · obtain ⟨k, run, rfl⟩ := Option.map_eq_some_iff.mp found
    obtain ⟨nonempty, each, -⟩ := nat?_eq_some_iff.mp run
    exact ⟨text, nonempty, each, .inl ⟨rfl, Int.natCast_nonneg k⟩⟩

theorem toList_ofInt (n : Int) :
    (ofInt n).toList =
      if n < 0 then '-' :: Nat.toDigits 10 n.natAbs else Nat.toDigits 10 n.natAbs := by
  rw [ofInt]
  split
  · rw [String.toList_append, toList_ofNat]
    rfl
  · exact toList_ofNat n.natAbs

theorem int?_ofInt (n : Int) : int? (ofInt n).toList = some n := by
  rw [toList_ofInt]
  split
  · rename_i negative
    have value : -Int.ofNat n.natAbs = n := by
      simp only [Int.ofNat_eq_natCast]
      omega
    rw [int?, nat?_toDigits, Option.map_some, value]
  · rename_i positive
    have value : Int.ofNat n.natAbs = n := by
      simp only [Int.ofNat_eq_natCast]
      omega
    rw [int?_of_digits fun c => isDigit_of_mem_toDigits, nat?_toDigits, Option.map_some, value]

end Text.Decimal

namespace Word

open Text

theorem toInt_bounds (w : Word) : -2147483648 ≤ w.toInt ∧ w.toInt ≤ 2147483647 := by
  have low := w.le_toInt
  have high := w.toInt_lt
  omega

theorem read?_text (w : Word) : read? w.text.toList = some w := by
  have bounds := toInt_bounds w
  rw [read?, text, Decimal.int?_ofInt]
  simp only [bounds, and_self, if_true, Int32.ofInt_toInt]

theorem read?_eq_some {text : List Char} {w : Word} (found : read? text = some w) :
    Decimal.int? text = some w.toInt := by
  rw [read?] at found
  split at found
  · rename_i n numeral
    split at found
    · rename_i bounds
      cases found
      rw [numeral, Int32.toInt_ofInt_of_le (by omega) (by omega)]
    · cases found
  · cases found

theorem isDigit_of_mem_tail {text : List Char} {w : Word} (found : read? text = some w) {c : Char}
    (mem : c ∈ text.tail) : c.isDigit = true := by
  obtain ⟨digits, -, each, ⟨rfl, -⟩ | ⟨rfl, -⟩ | rfl⟩ := Decimal.int?_eq_some (read?_eq_some found)
  · exact each c (List.mem_of_mem_tail mem)
  · exact each c mem
  · exact each c mem

theorem nonneg_of_read? {text : List Char} {w : Word} (found : read? text = some w)
    (unsigned : '-' ∉ text) : 0 ≤ w := by
  rw [Int32.le_iff_toInt_le, Int32.toInt_zero]
  obtain ⟨digits, -, -, ⟨-, bound⟩ | ⟨-, bound⟩ | rfl⟩ := Decimal.int?_eq_some (read?_eq_some found)
  · exact bound
  · exact bound
  · exact (unsigned List.mem_cons_self).elim

end Word

end RegisterMachine
