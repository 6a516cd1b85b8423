import RegisterMachine.Machine

/-! What an action leads to. The postcondition of an action has a part for its result and a part for
its failure, and is computed from the end of the action backward to its start. -/

namespace RegisterMachine.Action

variable {α β : Type}

/-- From `s` the action leads to a result with `done` or to a failure with `failed`. -/
def Leads (x : Action α) (s : Store) (done : α → Store → Prop) (failed : Cause → Store → Prop) :
    Prop :=
  match x s with
  | .ok a s => done a s
  | .error cause s => failed cause s

variable {x : Action α} {s : Store} {done : α → Store → Prop} {failed : Cause → Store → Prop}

theorem Leads.of_ok (h : x.Leads s done failed) {a : α} {t : Store} (result : x s = .ok a t) :
    done a t := by
  rwa [Leads, result] at h

theorem Leads.of_error (h : x.Leads s done failed) {cause : Cause} {t : Store}
    (result : x s = .error cause t) : failed cause t := by
  rwa [Leads, result] at h

theorem Leads.mono (h : x.Leads s done failed) {done' : α → Store → Prop}
    {failed' : Cause → Store → Prop} (weaker : ∀ a t, done a t → done' a t)
    (fault : ∀ cause t, failed cause t → failed' cause t) : x.Leads s done' failed' := by
  unfold Leads at h ⊢
  split at h
  · exact weaker _ _ h
  · exact fault _ _ h

theorem Leads.eq_ok {a : α} {t : Store}
    (h : x.Leads s (fun b u => b = a ∧ u = t) (fun _ _ => False)) : x s = .ok a t := by
  unfold Leads at h
  split at h
  · rename_i b u result
    rw [result, h.1, h.2]
  · exact h.elim

theorem Leads.eq_error {cause : Cause} {t : Store}
    (h : x.Leads s (fun _ _ => False) (fun c u => c = cause ∧ u = t)) :
    x s = .error cause t := by
  unfold Leads at h
  split at h
  · exact h.elim
  · rename_i c u result
    rw [result, h.1, h.2]

@[simp]
theorem leads_pure (a : α) : Leads (pure a) s done failed ↔ done a s := Iff.rfl

@[simp]
theorem leads_bind {f : α → Action β} {done : β → Store → Prop} :
    Leads (x >>= f) s done failed ↔
      Leads x s (fun a t => Leads (f a) t done failed) failed := by
  simp only [Leads, bind, EStateM.bind]
  cases x s <;> rfl

@[simp]
theorem leads_map {f : α → β} {done : β → Store → Prop} :
    Leads (f <$> x) s done failed ↔ Leads x s (fun a t => done (f a) t) failed := by
  simp only [Leads, Functor.map, EStateM.map]
  cases x s <;> rfl

@[simp]
theorem leads_ite {c : Prop} [Decidable c] {y : Action α} :
    Leads (if c then x else y) s done failed ↔
      (c → Leads x s done failed) ∧ (¬c → Leads y s done failed) := by
  by_cases h : c <;> simp [h]

@[simp]
theorem leads_get {done : Store → Store → Prop} : Leads get s done failed ↔ done s s := Iff.rfl

@[simp]
theorem leads_throw (cause : Cause) : Leads (throw cause) s done failed ↔ failed cause s := Iff.rfl

@[simp]
theorem leads_value (o : Operand) {done : Word → Store → Prop} :
    Leads (value o) s done failed ↔ done (o.expr.eval s.bank) s := Iff.rfl

@[simp]
theorem leads_setRegister (r : Register) (w : Word) {done : Unit → Store → Prop} :
    Leads (setRegister r w) s done failed ↔ done () { s with bank := s.bank.set r w } := Iff.rfl

@[simp]
theorem leads_read (address : Word) {done : Word → Store → Prop} :
    Leads (read address) s done failed ↔
      (∀ w, s.memory.read? address = some w → done w s) ∧
      (s.memory.read? address = none → failed (.addressOutOfRange address) s) := by
  rw [Leads, read]
  cases s.memory.read? address <;> simp

@[simp]
theorem leads_write (address w : Word) {done : Unit → Store → Prop} :
    Leads (write address w) s done failed ↔
      (s.memory.contains address = true → done () { s with memory := s.memory.write address w }) ∧
      (s.memory.contains address = false → failed (.addressOutOfRange address) s) := by
  rw [Leads, write]
  cases s.memory.contains address <;> simp

@[simp]
theorem leads_source (o : Operand) {done : Word → Store → Prop} :
    Leads (source o) s done failed ↔
      (o.isBare = true → done (o.expr.eval s.bank) s) ∧
      (o.isBare = false → Leads (read (o.expr.eval s.bank)) s done failed) := by
  rw [Leads, source_eq]
  cases o.isBare <;> simp [Leads]

@[simp]
theorem leads_reserve (w : Window) {done : Unit → Store → Prop} :
    Leads (reserve w) s done failed ↔
      (s.bank.sp ≤ w.base ∨ w.top < s.bank.sp → failed (.stackOverflow s.bank.sp) s) ∧
      (¬(s.bank.sp ≤ w.base ∨ w.top < s.bank.sp) →
        done () { s with bank := { s.bank with sp := s.bank.sp - 1 } }) := by
  rw [Leads, reserve]
  by_cases full : s.bank.sp ≤ w.base ∨ w.top < s.bank.sp <;> simp [full]

@[simp]
theorem leads_push (w : Window) (x : Word) {done : Unit → Store → Prop} :
    Leads (push w x) s done failed ↔
      (s.bank.sp ≤ w.base ∨ w.top < s.bank.sp → failed (.stackOverflow s.bank.sp) s) ∧
      (¬(s.bank.sp ≤ w.base ∨ w.top < s.bank.sp) →
        Leads (write (s.bank.sp - 1) x) { s with bank := { s.bank with sp := s.bank.sp - 1 } }
          done failed) := by
  rw [Leads, push_eq]
  by_cases full : s.bank.sp ≤ w.base ∨ w.top < s.bank.sp <;> simp [full, Leads]

@[simp]
theorem leads_pop (w : Window) {done : Word → Store → Prop} :
    Leads (pop w) s done failed ↔
      (w.top ≤ s.bank.sp → failed (.stackUnderflow s.bank.sp) s) ∧
      (¬w.top ≤ s.bank.sp →
        (∀ x, s.memory.read? s.bank.sp = some x →
          done x { s with bank := { s.bank with sp := s.bank.sp + 1 } }) ∧
        (s.memory.read? s.bank.sp = none → failed (.addressOutOfRange s.bank.sp) s)) := by
  rw [Leads, pop_eq]
  by_cases empty : w.top ≤ s.bank.sp
  · simp [empty]
  · cases s.memory.read? s.bank.sp <;> simp [empty]

@[simp]
theorem leads_discard (w : Window) (count : Word) {done : Unit → Store → Prop} :
    Leads (discard w count) s done failed ↔
      (w.top.toInt < s.bank.sp.toInt + count.toInt → failed (.stackUnderflow s.bank.sp) s) ∧
      (¬w.top.toInt < s.bank.sp.toInt + count.toInt →
        (s.bank.sp.toInt + count.toInt < w.base.toInt → failed (.stackOverflow s.bank.sp) s) ∧
        (¬s.bank.sp.toInt + count.toInt < w.base.toInt →
          done () { s with bank.sp := Int32.ofInt (s.bank.sp.toInt + count.toInt) })) := by
  rw [Leads, discard]
  by_cases above : w.top.toInt < s.bank.sp.toInt + count.toInt
  · simp only [above, if_true, not_true, true_imp_iff, false_imp_iff, and_true]
  · by_cases below : s.bank.sp.toInt + count.toInt < w.base.toInt <;>
      simp only [above, below, if_true, if_false, not_true, not_false_iff, true_imp_iff,
        false_imp_iff, and_true, true_and]

@[simp]
theorem leads_target (p : Program) (w : Word) {done : Nat → Store → Prop} :
    Leads (target p w) s done failed ↔
      (∀ line, p.target? w = some line → done line s) ∧
      (p.target? w = none → failed (.jumpOutside w) s) := by
  rw [Leads, target]
  cases p.target? w <;> simp

end RegisterMachine.Action
