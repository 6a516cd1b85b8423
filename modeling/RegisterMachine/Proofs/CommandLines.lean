import Mathlib.Logic.Function.Basic
import RegisterMachine.Command.Arguments
import RegisterMachine.Proofs.Terms

/-! The arguments of a run in any order. Setting an end of the window says nothing about the rest of the
command line, so that its argument may stand in any gap between the others. -/

namespace RegisterMachine.Command

open Text

def IsValue (arg : String) : Prop :=
  arg = "-" ∨ arg.toList.head? ≠ some '-'

def Valued.assignment (value : String) : Valued → String
  | .timeout => "--timeout=" ++ value
  | .base => "--base=" ++ value
  | .top => "--max-address=" ++ value

inductive Edge where
  | base
  | top
  deriving DecidableEq, Repr

def Edge.option : Edge → Valued
  | .base => .base
  | .top => .top

theorem ofString_of_isValue {arg : String} (value : IsValue arg) :
    Argument.ofString arg = .word arg := by
  rcases value with rfl | undashed
  · rfl
  · have plain : ∀ rest, arg.toList ≠ '-' :: rest := by
      intro rest text
      simp [text] at undashed
    rw [Argument.ofString]
    split
    iterate 3 exact (plain _ ‹_›).elim
    rfl

theorem ofString_assignment (option : Valued) (value : String) :
    Argument.ofString (option.assignment value) = .long option.name (some value) := by
  have kept : String.ofList value.toList = value := String.ofList_toList
  cases option
  all_goals
    rw [Argument.ofString, Valued.assignment, String.toList_append]
    exact congrArg (fun value => Argument.long _ (some value)) kept

namespace RunOptions

def edge (o : RunOptions) : Edge → Option Word
  | .base => o.base
  | .top => o.top

def withEdge (o : RunOptions) (e : Edge) (w : Word) : RunOptions :=
  match e with
  | .base => { o with base := some w }
  | .top => { o with top := some w }

section Setting

variable {o o' : RunOptions} {e other : Edge} {w x : Word} {arg value : String} {option : Valued}

theorem file_withEdge (o : RunOptions) (e : Edge) (w : Word) : (o.withEdge e w).file = o.file := by
  cases e <;> rfl

theorem timeout_withEdge (o : RunOptions) (e : Edge) (w : Word) :
    (o.withEdge e w).timeout = o.timeout := by
  cases e <;> rfl

theorem edge_withEdge (o : RunOptions) (e other : Edge) (w : Word) :
    (o.withEdge e w).edge other = if other = e then some w else o.edge other := by
  cases e <;> cases other <;> rfl

theorem edge_with (o : RunOptions) (file : Option String) (timeout : Option (Option String))
    (e : Edge) : edge { o with file, timeout } e = o.edge e := by
  cases e <;> rfl

theorem withEdge_with (o : RunOptions) (file : Option String) (timeout : Option (Option String))
    (e : Edge) (w : Word) :
    withEdge { o with file, timeout } e w = { o.withEdge e w with file, timeout } := by
  cases e <;> rfl

theorem withEdge_comm (apart : other ≠ e) :
    (o.withEdge e w).withEdge other x = (o.withEdge other x).withEdge e w := by
  cases e <;> cases other
  · exact (apart rfl).elim
  · rfl
  · rfl
  · exact (apart rfl).elim

theorem setFile_eq_ok_iff :
    o.setFile arg = .ok o' ↔
      ∃ file, addFile o.file arg = .ok file ∧ o' = { o with file := some file } := by
  constructor
  · intro filed
    obtain ⟨file, added, same⟩ := ok_of_bind filed
    exact ⟨file, added, (Except.ok.inj same).symm⟩
  · rintro ⟨file, added, rfl⟩
    rw [setFile, added]
    rfl

theorem set_timeout_eq_ok_iff :
    o.set .timeout value = .ok o' ↔
      o.timeout = none ∧ o' = { o with timeout := some (some value) } := by
  rw [set]
  cases o.timeout <;> simp [eq_comm]

theorem setBare_eq_ok_iff :
    o.setBare option = .ok o' ↔
      option = .timeout ∧ o.timeout = none ∧ o' = { o with timeout := some none } := by
  cases option with
  | timeout => rw [setBare]; cases o.timeout <;> simp [eq_comm]
  | base => simp [setBare]
  | top => simp [setBare]

theorem set_edge (o : RunOptions) (e : Edge) (value : String) :
    o.set e.option value =
      if (o.edge e).isSome then .error (.repeated e.option.name)
      else
        match Word.read? value.toList with
        | some w => .ok (o.withEdge e w)
        | none => .error (.invalidValue value e.option.name) := by
  cases e <;> cases word : Word.read? value.toList <;>
    simp only [set, Edge.option, readAddress, word] <;> rfl

theorem set_edge_eq_ok_iff :
    o.set e.option value = .ok o' ↔
      o.edge e = none ∧ ∃ w, Word.read? value.toList = some w ∧ o' = o.withEdge e w := by
  rw [set_edge]
  cases o.edge e <;> cases Word.read? value.toList <;> simp [eq_comm]

end Setting

/-- What is read from the arguments of a run, one rule for each form that an argument may have here.
`waiting` is the option that takes the next argument, if that is a value. -/
inductive Reads : RunOptions → Option Valued → List String → RunOptions → Prop where
  | done {o o' : RunOptions} {waiting : Option Valued} (settled : o.settle waiting = .ok o') :
      Reads o waiting [] o'
  | escape {o o₁ o' : RunOptions} {waiting : Option Valued} {files : List String}
      (settled : o.settle waiting = .ok o₁) (filed : files.foldlM setFile o₁ = .ok o') :
      Reads o waiting ("--" :: files) o'
  | file {o o₁ o' : RunOptions} {arg : String} {args : List String} (word : IsValue arg)
      (filed : o.setFile arg = .ok o₁) (rest : Reads o₁ none args o') :
      Reads o none (arg :: args) o'
  | value {o o₁ o' : RunOptions} {option : Valued} {arg : String} {args : List String}
      (word : IsValue arg) (given : o.set option arg = .ok o₁) (rest : Reads o₁ none args o') :
      Reads o (some option) (arg :: args) o'
  | assignment {o o₁ o₂ o' : RunOptions} {waiting : Option Valued} {option : Valued}
      {value : String} {args : List String} (settled : o.settle waiting = .ok o₁)
      (given : o₁.set option value = .ok o₂) (rest : Reads o₂ none args o') :
      Reads o waiting (option.assignment value :: args) o'
  | timeout {o o₁ o' : RunOptions} {waiting : Option Valued} {flag : String} {args : List String}
      (named : flag = "-t" ∨ flag = "--timeout") (settled : o.settle waiting = .ok o₁)
      (rest : Reads o₁ (some .timeout) args o') :
      Reads o waiting (flag :: args) o'

section Reading

variable {o o' : RunOptions} {waiting : Option Valued} {args : List String}

theorem read_long {arg : String} {option : Valued} {value : Option String}
    (form : Argument.ofString arg = .long option.name value) :
    o.read waiting (arg :: args) =
      o.settle waiting >>= fun o =>
        match value with
        | some value => o.set option value >>= fun o => o.read none args
        | none => o.read (some option) args := by
  rw [read, form]
  cases option <;> cases value <;> rfl

theorem Reads.read_eq (reads : Reads o waiting args o') : o.read waiting args = .ok (.run o') := by
  induction reads with
  | done settled => rw [read, settled]; rfl
  | escape settled filed =>
    have form : Argument.ofString "--" = .escape := by rfl
    rw [read]
    simp only [form, settled, filed, bind, Except.bind]
    rfl
  | file word filed rest ih =>
    rw [read]
    simp only [ofString_of_isValue word, filed, bind, Except.bind, ih]
  | value word given rest ih =>
    rw [read]
    simp only [ofString_of_isValue word, given, bind, Except.bind, ih]
  | assignment settled given rest ih =>
    rw [read_long (ofString_assignment _ _)]
    simp only [settled, given, bind, Except.bind, ih]
  | timeout named settled rest ih =>
    rcases named with rfl | rfl
    · have form : Argument.ofString "-t" = .short ['t'] := by rfl
      rw [read]
      simp only [form, settled, bind, Except.bind, ih]
    · have form : Argument.ofString "--timeout" = .long Valued.timeout.name none := by rfl
      rw [read_long form]
      simp only [settled, bind, Except.bind, ih]

end Reading

/-- A step that leaves this end of the window unset does not look at it either: the end may as well be
set before the step. -/
def Spares (e : Edge) (w : Word) (f : RunOptions → Except UsageError RunOptions) : Prop :=
  ∀ o o', f o = .ok o' → o'.edge e = none →
    o.edge e = none ∧ f (o.withEdge e w) = .ok (o'.withEdge e w)

section Frame

variable {e : Edge} {w : Word}

theorem spares_setFile (arg : String) : Spares e w (·.setFile arg) := by
  intro o o' filed unset
  obtain ⟨file, added, rfl⟩ := setFile_eq_ok_iff.mp filed
  rw [edge_with] at unset
  refine ⟨unset, setFile_eq_ok_iff.mpr ⟨file, by rw [file_withEdge, added], ?_⟩⟩
  rw [withEdge_with, timeout_withEdge]

theorem spares_setBare (option : Valued) : Spares e w (·.setBare option) := by
  intro o o' settled unset
  obtain ⟨rfl, fresh, rfl⟩ := setBare_eq_ok_iff.mp settled
  rw [edge_with] at unset
  refine ⟨unset, setBare_eq_ok_iff.mpr ⟨rfl, by rw [timeout_withEdge, fresh], ?_⟩⟩
  rw [withEdge_with, file_withEdge]

theorem eq_timeout_or_edge (option : Valued) : option = .timeout ∨ ∃ e : Edge, option = e.option := by
  cases option with
  | timeout => exact .inl rfl
  | base => exact .inr ⟨.base, rfl⟩
  | top => exact .inr ⟨.top, rfl⟩

theorem spares_set (option : Valued) (value : String) : Spares e w (·.set option value) := by
  intro o o' given unset
  obtain rfl | ⟨other, rfl⟩ := eq_timeout_or_edge option
  · obtain ⟨fresh, rfl⟩ := set_timeout_eq_ok_iff.mp given
    rw [edge_with] at unset
    refine ⟨unset, set_timeout_eq_ok_iff.mpr ⟨by rw [timeout_withEdge, fresh], ?_⟩⟩
    rw [withEdge_with, file_withEdge]
  · obtain ⟨fresh, x, word, rfl⟩ := set_edge_eq_ok_iff.mp given
    rw [edge_withEdge] at unset
    have apart : other ≠ e := by
      rintro rfl
      simp at unset
    rw [if_neg apart.symm] at unset
    refine ⟨unset, set_edge_eq_ok_iff.mpr ⟨?_, x, word, (withEdge_comm apart).symm⟩⟩
    rw [edge_withEdge, if_neg apart, fresh]

theorem spares_settle (waiting : Option Valued) : Spares e w (·.settle waiting) := by
  cases waiting with
  | none =>
    intro o o' same unset
    obtain rfl := Except.ok.inj same
    exact ⟨unset, rfl⟩
  | some option => exact spares_setBare option

theorem Spares.bind {f g : RunOptions → Except UsageError RunOptions} (first : Spares e w f)
    (second : Spares e w g) : Spares e w fun o => f o >>= g := by
  intro o o' both unset
  obtain ⟨o₁, earlier, later⟩ := ok_of_bind both
  obtain ⟨between, later⟩ := second o₁ o' later unset
  obtain ⟨before, earlier⟩ := first o o₁ earlier between
  refine ⟨before, ?_⟩
  simp only [earlier]
  exact later

theorem spares_foldlM (files : List String) : Spares e w (files.foldlM setFile) := by
  induction files with
  | nil => exact spares_settle none
  | cons file files ih => exact (spares_setFile file).bind ih

theorem Reads.withEdge {o o' : RunOptions} {waiting : Option Valued} {args : List String}
    (reads : Reads o waiting args o') (unset : o'.edge e = none) :
    o.edge e = none ∧ Reads (o.withEdge e w) waiting args (o'.withEdge e w) := by
  induction reads with
  | done settled =>
    obtain ⟨before, settled⟩ := spares_settle _ _ _ settled unset
    exact ⟨before, .done settled⟩
  | escape settled filed =>
    obtain ⟨between, filed⟩ := spares_foldlM _ _ _ filed unset
    obtain ⟨before, settled⟩ := spares_settle _ _ _ settled between
    exact ⟨before, .escape settled filed⟩
  | file word filed rest ih =>
    obtain ⟨between, rest⟩ := ih unset
    obtain ⟨before, filed⟩ := spares_setFile _ _ _ filed between
    exact ⟨before, .file word filed rest⟩
  | value word given rest ih =>
    obtain ⟨between, rest⟩ := ih unset
    obtain ⟨before, given⟩ := spares_set _ _ _ _ given between
    exact ⟨before, .value word given rest⟩
  | assignment settled given rest ih =>
    obtain ⟨last, rest⟩ := ih unset
    obtain ⟨between, given⟩ := spares_set _ _ _ _ given last
    obtain ⟨before, settled⟩ := spares_settle _ _ _ settled between
    exact ⟨before, .assignment settled given rest⟩
  | timeout named settled rest ih =>
    obtain ⟨between, rest⟩ := ih unset
    obtain ⟨before, settled⟩ := spares_settle _ _ _ settled between
    exact ⟨before, .timeout named settled rest⟩

end Frame

end RunOptions

/-- The places between arguments where one more option changes nothing about the others: before any
`--`, and not between a timeout and the value that it takes. -/
structure Gap (before after : List String) : Prop where
  unescaped : "--" ∉ before
  apart : ∀ flag arg, before.getLast? = some flag → flag = "-t" ∨ flag = "--timeout" →
    after.head? = some arg → ¬IsValue arg

theorem Gap.tail {arg : String} {before after : List String} (gap : Gap (arg :: before) after) :
    Gap before after where
  unescaped mem := gap.unescaped (List.mem_cons_of_mem arg mem)
  apart flag next last := gap.apart flag next (by simp [List.getLast?_cons, last])

/-- The arguments with ends of the window put into gaps between them, each of these once at most. -/
inductive Widened (args : List String) : (Edge → Option Word) → List String → Prop where
  | same : Widened args (fun _ => none) args
  | insert {edges : Edge → Option Word} {before after : List String} {e : Edge} {text : String}
      {w : Word} (widened : Widened args edges (before ++ after)) (absent : edges e = none)
      (gap : Gap before after) (spelled : Numeral text.toList w.toInt) :
      Widened args (Function.update edges e (some w)) (before ++ e.option.assignment text :: after)

namespace RunOptions

theorem set_of_numeral {o : RunOptions} {e : Edge} {text : String} {w : Word}
    (unset : o.edge e = none) (spelled : Numeral text.toList w.toInt) :
    o.set e.option text = .ok (o.withEdge e w) := by
  have bounds := Word.toInt_bounds w
  have word : Word.read? text.toList = some w :=
    Word.read?_eq_some_iff.mpr ⟨w.toInt, spelled, bounds, Int32.ofInt_toInt w⟩
  exact set_edge_eq_ok_iff.mpr ⟨unset, w, word, rfl⟩

theorem Reads.assign {o o' : RunOptions} {waiting : Option Valued} {args : List String} {e : Edge}
    {text : String} {w : Word} (reads : Reads o waiting args o') (unset : o'.edge e = none)
    (spelled : Numeral text.toList w.toInt)
    (apart : waiting.isSome → ∀ arg, args.head? = some arg → ¬IsValue arg) :
    Reads o waiting (e.option.assignment text :: args) (o'.withEdge e w) := by
  have assigned {o₁ : RunOptions} (settled : o.settle waiting = .ok o₁)
      (rest : Reads o₁ none args o') :
      Reads o waiting (e.option.assignment text :: args) (o'.withEdge e w) := by
    obtain ⟨fresh, rest⟩ := rest.withEdge unset
    exact .assignment settled (set_of_numeral fresh spelled) rest
  cases reads with
  | done settled => exact assigned settled (.done rfl)
  | escape settled filed => exact assigned settled (.escape rfl filed)
  | file word filed rest => exact assigned rfl (.file word filed rest)
  | value word given rest => exact (apart rfl _ rfl word).elim
  | assignment settled given rest => exact assigned settled (.assignment rfl given rest)
  | timeout named settled rest => exact assigned settled (.timeout named rfl rest)

theorem Reads.insert {o o' : RunOptions} {waiting : Option Valued} {before after : List String}
    {e : Edge} {text : String} {w : Word} (reads : Reads o waiting (before ++ after) o')
    (unset : o'.edge e = none) (spelled : Numeral text.toList w.toInt) (gap : Gap before after)
    (apart : before = [] → waiting.isSome → ∀ arg, after.head? = some arg → ¬IsValue arg) :
    Reads o waiting (before ++ e.option.assignment text :: after) (o'.withEdge e w) := by
  induction before generalizing o waiting with
  | nil => exact reads.assign unset spelled (apart rfl)
  | cons arg before ih =>
    have tail := gap.tail
    cases reads with
    | escape => exact (gap.unescaped List.mem_cons_self).elim
    | file word filed rest => exact .file word filed (ih rest tail (by simp))
    | value word given rest => exact .value word given (ih rest tail (by simp))
    | assignment settled given rest => exact .assignment settled given (ih rest tail (by simp))
    | timeout named settled rest =>
      refine .timeout named settled (ih rest tail ?_)
      rintro rfl -
      intro next
      exact gap.apart arg next rfl named

theorem Reads.widened {args args' : List String} {edges : Edge → Option Word} {o : RunOptions}
    (reads : Reads {} none args o) (unset : ∀ e, o.edge e = none)
    (widened : Widened args edges args') :
    Reads {} none args' { o with base := edges .base, top := edges .top } := by
  obtain ⟨file, timeout, base, top⟩ := o
  obtain rfl : base = none := unset .base
  obtain rfl : top = none := unset .top
  induction widened with
  | same => exact reads
  | @insert edges before after e text w _ absent gap spelled ih =>
    have fresh : edge ⟨file, timeout, edges .base, edges .top⟩ e = none := by
      cases e <;> exact absent
    have put := ih.insert fresh spelled gap (by simp)
    cases e <;> exact put

end RunOptions

end RegisterMachine.Command
