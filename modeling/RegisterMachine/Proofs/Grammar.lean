import RegisterMachine.Proofs.Terms

/-! The grammar of operands. An operand is read exactly if its body is a numeral for a word or a chain of
terms joined by signs, and it is read to all the terms and signs of the text. A body that is neither is
refused for an empty piece between its signs, or else for its leftmost piece that is no term. -/

namespace RegisterMachine

open Text

namespace Expr

inductive Links : List Char → List (Sign × Term) → Prop where
  | done : Links [] []
  | link {s : Sign} {t : Term} {text piece rest : List Char} {links : List (Sign × Term)}
      (term : Term.Spelled text t) (padded : Padded text piece) (others : Links rest links) :
      Links (s.char :: (piece ++ rest)) ((s, t) :: links)

inductive IsChain : List Char → Expr → Prop where
  | terms {head : Term} {tail : List (Sign × Term)} {text first rest : List Char}
      (term : Term.Spelled text head) (padded : Padded text first) (links : Links rest tail) :
      IsChain (first ++ rest) ⟨head, tail⟩

inductive Spelled : List Char → Expr → Prop where
  | number {body : List Char} {n : Int} (numeral : Numeral body n) (low : -2147483648 ≤ n)
      (high : n ≤ 2147483647) : Spelled body ⟨.literal (Int32.ofInt n), []⟩
  | chain {body : List Char} {e : Expr} (chain : IsChain body e) : Spelled body e

/-- What stands between the signs of a body, without the blanks around it. -/
def parts (body : List Char) : List (List Char) :=
  (body.splitOnP fun c => c == '+' || c == '-').map trim

def FirstOffender (body piece : List Char) : Prop :=
  ∃ before after, parts body = before ++ piece :: after ∧
    (∀ p ∈ before, ∃ t, Term.Spelled p t) ∧ ¬∃ t, Term.Spelled piece t

/-- Why a body is refused. The error of an empty part quotes the whole token. -/
inductive Fault (token body : List Char) : DecodeError → Prop where
  | malformed (empty : [] ∈ parts body) : Fault token body (.malformedExpression (String.ofList token))
  | offender {piece : List Char} {e : DecodeError} (filled : [] ∉ parts body)
      (first : FirstOffender body piece) (offence : Term.Offence piece e) : Fault token body e

end Expr

inductive Operand.HasBody (token : List Char) : List Char → Bool → Prop where
  | wrapped {inner : List Char} (same : trim token = wrap inner) : HasBody token (trim inner) true
  | bare (plain : ¬IsWrapped token) : HasBody token (trim token) false

section Traversal

variable {α β ε : Type} {f : α → Except ε β} {l : List α}

theorem mapM_eq_ok_iff {results : List β} :
    l.mapM f = .ok results ↔ List.Forall₂ (fun a b => f a = .ok b) l results := by
  induction l generalizing results with
  | nil => cases results <;> simp [pure, Except.pure]
  | cons a l ih =>
    rw [List.mapM_cons]
    constructor
    · intro found
      obtain ⟨b, first, found⟩ := ok_of_bind found
      obtain ⟨others, rest, found⟩ := ok_of_bind found
      cases found
      exact .cons first (ih.mp rest)
    · intro each
      cases each with
      | cons first rest => rw [first, ih.mpr rest]; rfl

theorem mapM_eq_error_iff {e : ε} :
    l.mapM f = .error e ↔ ∃ before a after, l = before ++ a :: after ∧
      (∀ b ∈ before, ∃ y, f b = .ok y) ∧ f a = .error e := by
  induction l with
  | nil => simp [pure, Except.pure]
  | cons a l ih =>
    rw [List.mapM_cons]
    constructor
    · intro failed
      obtain here | ⟨b, fine, failed⟩ := error_of_bind failed
      · exact ⟨[], a, l, rfl, by simp, here⟩
      · obtain rest | ⟨results, -, failed⟩ := error_of_bind failed
        · obtain ⟨before, c, after, rfl, earlier, there⟩ := ih.mp rest
          refine ⟨a :: before, c, after, rfl, ?_, there⟩
          exact List.forall_mem_cons.mpr ⟨⟨b, fine⟩, earlier⟩
        · cases failed
    · rintro ⟨before, c, after, same, earlier, there⟩
      cases before with
      | nil =>
        cases same
        rw [there]
        rfl
      | cons d before =>
        cases same
        obtain ⟨⟨y, fine⟩, earlier⟩ := List.forall_mem_cons.mp earlier
        rw [fine, ih.mpr ⟨before, c, after, rfl, earlier, there⟩]
        rfl

theorem map_eq_error_iff {x : Except ε α} {g : α → β} {e : ε} :
    x.map g = .error e ↔ x = .error e := by
  cases x <;> simp [Except.map]

end Traversal

namespace Expr

def Matches (pieces : List (Sign × List Char)) (tail : List (Sign × Term)) : Prop :=
  List.Forall₂ (fun piece link => piece.1 = link.1 ∧ Term.Spelled (trim piece.2) link.2) pieces tail

theorem Links.exists_cut {rest : List Char} {tail : List (Sign × Term)} (links : Links rest tail) :
    ∃ pieces, cut Sign.ofChar? rest = ([], pieces) ∧ Matches pieces tail := by
  induction links with
  | done => exact ⟨[], rfl, .nil⟩
  | @link s t text piece rest tail term padded _ ih =>
    obtain ⟨pieces, same, matching⟩ := ih
    refine ⟨(s, piece) :: pieces, ?_, .cons ⟨rfl, ?_⟩ matching⟩
    · rw [cut_delimiter s.ofChar?_char, cut_append (term.plain padded), same, List.append_nil]
    · rwa [term.trim_eq padded]

theorem links_of_matches {pieces : List (Sign × List Char)} {tail : List (Sign × Term)}
    (matching : Matches pieces tail) :
    Links (pieces.flatMap fun (s, piece) => s.char :: piece) tail := by
  induction matching with
  | nil => exact .done
  | @cons piece link pieces tail first _ ih =>
    obtain ⟨s, piece⟩ := piece
    obtain ⟨s', t⟩ := link
    obtain ⟨rfl, term⟩ := first
    exact .link term (padded_trim piece) ih

theorem join_cut (body : List Char) :
    (cut Sign.ofChar? body).1 ++
      (cut Sign.ofChar? body).2.flatMap (fun (s, piece) => s.char :: piece) = body := by
  induction body with
  | nil => rfl
  | cons c body ih =>
    rw [cut_cons]
    cases sign : Sign.ofChar? c with
    | some s =>
      rw [List.flatMap_cons, List.nil_append, List.cons_append, ih, Sign.char_of_ofChar? sign]
    | none => rw [List.cons_append, ih]

theorem isChain_iff {body : List Char} {e : Expr} :
    IsChain body e ↔ Term.Spelled (trim (cut Sign.ofChar? body).1) e.head ∧
      Matches (cut Sign.ofChar? body).2 e.tail := by
  constructor
  · rintro ⟨term, padded, links⟩
    obtain ⟨pieces, same, matching⟩ := links.exists_cut
    rw [cut_append (term.plain padded), same, List.append_nil, term.trim_eq padded]
    exact ⟨term, matching⟩
  · rintro ⟨term, matching⟩
    have chain := IsChain.terms term (padded_trim _) (links_of_matches matching)
    rwa [join_cut] at chain

theorem parts_eq (body : List Char) :
    parts body = trim (cut Sign.ofChar? body).1 ::
      (cut Sign.ofChar? body).2.map fun piece => trim piece.2 := by
  have split : body.splitOnP (fun c => c == '+' || c == '-') =
      (cut Sign.ofChar? body).1 :: (cut Sign.ofChar? body).2.map Prod.snd := by
    induction body with
    | nil => rfl
    | cons c body ih =>
      have delimits : (c == '+' || c == '-') = (Sign.ofChar? c).isSome := by
        unfold Sign.ofChar?
        split <;> simp_all
      rw [List.splitOnP_cons_eq_if_modifyHead, ih, cut_cons, delimits]
      cases Sign.ofChar? c <;> rfl
  rw [parts, split]
  simp

def readLink (piece : Sign × List Char) : Except DecodeError (Sign × Term) :=
  return (piece.1, ← Term.read piece.2)

def readPieces (first : List Char) (rest : List (Sign × List Char)) : Except DecodeError Expr := do
  return { head := ← Term.read first, tail := ← rest.mapM readLink }

theorem readLink_eq_ok_iff {piece : Sign × List Char} {link : Sign × Term} :
    readLink piece = .ok link ↔ piece.1 = link.1 ∧ Term.read piece.2 = .ok link.2 := by
  rw [readLink]
  cases Term.read piece.2 with
  | error e => simp [bind, Except.bind]
  | ok t => simp [bind, Except.bind, pure, Except.pure, Prod.ext_iff]

theorem readPieces_eq_ok_iff {first : List Char} {rest : List (Sign × List Char)} {e : Expr} :
    readPieces first rest = .ok e ↔ Term.read first = .ok e.head ∧
      List.Forall₂ (fun piece link => piece.1 = link.1 ∧ Term.read piece.2 = .ok link.2)
        rest e.tail := by
  simp only [← readLink_eq_ok_iff, ← mapM_eq_ok_iff]
  constructor
  · intro found
    obtain ⟨head, first_read, found⟩ := ok_of_bind found
    obtain ⟨tail, rest_read, found⟩ := ok_of_bind found
    cases found
    exact ⟨first_read, rest_read⟩
  · rintro ⟨first_read, rest_read⟩
    rw [readPieces, first_read, rest_read]
    rfl

theorem map_readPieces (first : List Char) (rest : List (Sign × List Char)) :
    (readPieces first rest).map (fun e => e.head :: e.tail.map Prod.snd) =
      (first :: rest.map Prod.snd).mapM Term.read := by
  have tail : (rest.mapM readLink).map (List.map Prod.snd) = (rest.map Prod.snd).mapM Term.read := by
    induction rest with
    | nil => rfl
    | cons piece rest ih =>
      rw [List.map_cons, List.mapM_cons, List.mapM_cons, ← ih, readLink]
      cases Term.read piece.2 with
      | error e => rfl
      | ok t => cases rest.mapM readLink <;> rfl
  rw [readPieces, List.mapM_cons, ← tail]
  cases Term.read first with
  | error e => rfl
  | ok t => cases rest.mapM readLink <;> rfl

/-- Reads a body as a chain, whether or not it is also a numeral. -/
def readChain (body : List Char) : Except DecodeError Expr :=
  readPieces (trim (cut Sign.ofChar? body).1)
    ((cut Sign.ofChar? body).2.map fun (s, piece) => (s, trim piece))

variable {token body : List Char}

theorem read_of_parts (number : Word.read? body = none) :
    Expr.read token body =
      if [] ∈ parts body then .error (.malformedExpression (String.ofList token))
      else readChain body := by
  rw [Expr.read, number, parts_eq, readChain]
  generalize cut Sign.ofChar? body = pieces
  obtain ⟨first, rest⟩ := pieces
  have missing : ((trim first).isEmpty ||
      (rest.map fun (s, piece) => (s, trim piece)).any (·.2.isEmpty)) = true ↔
        [] ∈ trim first :: rest.map fun piece => trim piece.2 := by
    simp only [Bool.or_eq_true, List.isEmpty_iff, List.any_map, List.any_eq_true, List.mem_cons,
      List.mem_map, Function.comp_apply, @eq_comm _ [] (trim first)]
  simp only [missing]
  rfl

theorem plain_of_parts : ∀ piece ∈ parts body, ∀ c ∈ piece, Sign.ofChar? c = none := by
  obtain ⟨first, rest⟩ := plain_of_cut Sign.ofChar? body
  rw [parts_eq, List.forall_mem_cons, List.forall_mem_map]
  exact ⟨fun c mem => first c (mem_of_mem_trim mem),
    fun piece mem c inside => rest piece mem c (mem_of_mem_trim inside)⟩

theorem readChain_eq_ok_iff {e : Expr} : readChain body = .ok e ↔ IsChain body e := by
  rw [readChain, readPieces_eq_ok_iff, isChain_iff, Matches, List.forall₂_map_left_iff]
  constructor
  · rintro ⟨first, rest⟩
    have plain := @plain_of_parts body
    rw [parts_eq, List.forall_mem_cons, List.forall_mem_map] at plain
    refine ⟨(Term.read_eq_ok_iff plain.1).mp first, ?_⟩
    refine ((List.forall₂_and_left _ _).mpr ⟨plain.2, rest⟩).imp ?_
    rintro piece link ⟨plain, sign, term⟩
    exact ⟨sign, (Term.read_eq_ok_iff plain).mp term⟩
  · rintro ⟨first, rest⟩
    refine ⟨Term.read_of_spelled first, rest.imp ?_⟩
    rintro piece link ⟨sign, term⟩
    exact ⟨sign, Term.read_of_spelled term⟩

theorem readChain_eq_error_iff {e : DecodeError} :
    readChain body = .error e ↔ ∃ piece, FirstOffender body piece ∧ Term.Offence piece e := by
  have pieces : trim (cut Sign.ofChar? body).1 ::
      ((cut Sign.ofChar? body).2.map fun (s, piece) => (s, trim piece)).map Prod.snd = parts body := by
    rw [parts_eq, List.map_map]
    rfl
  have plain := @plain_of_parts body
  rw [readChain, ← map_eq_error_iff, map_readPieces, pieces, mapM_eq_error_iff]
  constructor
  · rintro ⟨before, piece, after, same, earlier, failed⟩
    rw [same] at plain
    obtain ⟨strange, offence⟩ := (Term.read_eq_error_iff (plain piece (by simp))).mp failed
    refine ⟨piece, ⟨before, after, same, fun p mem => ?_, strange⟩, offence⟩
    obtain ⟨t, term⟩ := earlier p mem
    exact ⟨t, (Term.read_eq_ok_iff (plain p (List.mem_append_left _ mem))).mp term⟩
  · rintro ⟨piece, ⟨before, after, same, earlier, strange⟩, offence⟩
    rw [same] at plain
    refine ⟨before, piece, after, same, fun p mem => ?_, ?_⟩
    · obtain ⟨t, term⟩ := earlier p mem
      exact ⟨t, Term.read_of_spelled term⟩
    · exact (Term.read_eq_error_iff (plain piece (by simp))).mpr ⟨strange, offence⟩

theorem IsChain.filled {e : Expr} (chain : IsChain body e) : [] ∉ parts body := by
  obtain ⟨first, rest⟩ := isChain_iff.mp chain
  have others := ((List.forall₂_and_left _ _).mp (rest.imp fun piece link matching =>
    ⟨matching.2.ne_nil, matching.1⟩)).1
  rw [parts_eq, List.mem_cons, List.mem_map]
  rintro (empty | ⟨piece, mem, empty⟩)
  · exact first.ne_nil empty.symm
  · exact others piece mem empty

theorem IsChain.eq_literal {e : Expr} (chain : IsChain body e) {w : Word}
    (number : Word.read? body = some w) : e = ⟨.literal w, []⟩ := by
  obtain ⟨first, rest⟩ := isChain_iff.mp chain
  obtain ⟨n, numeral, -, rfl⟩ := Word.read?_eq_some_iff.mp number
  cases numeral with
  | unsigned run =>
    have digits (c : Char) (mem : c ∈ body) : c.isAlphanum = true := by
      rw [Char.isAlphanum, run.2 c mem, Bool.or_true]
    have solid : trim body = body := trim_eq_self fun c mem =>
      Instruction.isBlank_of_isSolid (isSolid_of_isAlphanum (digits c mem))
    rw [cut_of_plain fun c mem => Sign.ofChar?_eq_none (digits c mem)] at first rest
    obtain ⟨head, tail⟩ := e
    cases rest
    have term := Term.read_of_spelled first
    rw [solid, Term.read, number] at term
    cases term
    rfl
  | plus run => exact (first.ne_nil rfl).elim
  | minus run => exact (first.ne_nil rfl).elim

theorem read_eq_ok_iff {e : Expr} : Expr.read token body = .ok e ↔ Spelled body e := by
  cases number : Word.read? body with
  | some w =>
    rw [Expr.read, number]
    constructor
    · intro same
      cases same
      obtain ⟨n, numeral, ⟨low, high⟩, rfl⟩ := Word.read?_eq_some_iff.mp number
      exact .number numeral low high
    · intro spelled
      cases spelled with
      | number numeral low high =>
        rw [Word.read?_eq_some_iff.mpr ⟨_, numeral, ⟨low, high⟩, rfl⟩] at number
        cases number
        rfl
      | chain chain => rw [chain.eq_literal number]
  | none =>
    have alone : Spelled body e ↔ IsChain body e := by
      refine ⟨fun spelled => ?_, .chain⟩
      cases spelled with
      | number numeral low high =>
        rw [Word.read?_eq_some_iff.mpr ⟨_, numeral, ⟨low, high⟩, rfl⟩] at number
        cases number
      | chain chain => exact chain
    rw [read_of_parts number, alone]
    split
    · rename_i empty
      exact ⟨fun same => (by cases same), fun chain => (chain.filled empty).elim⟩
    · exact readChain_eq_ok_iff

theorem read_eq_error_iff {e : DecodeError} :
    Expr.read token body = .error e ↔ (¬∃ x, Spelled body x) ∧ Fault token body e := by
  constructor
  · intro refused
    have strange : ¬∃ x, Spelled body x := by
      rintro ⟨x, spelled⟩
      rw [read_eq_ok_iff.mpr spelled] at refused
      cases refused
    refine ⟨strange, ?_⟩
    cases number : Word.read? body with
    | some w =>
      rw [Expr.read, number] at refused
      cases refused
    | none =>
      rw [read_of_parts number] at refused
      split at refused
      · rename_i empty
        cases refused
        exact .malformed empty
      · rename_i filled
        obtain ⟨piece, first, offence⟩ := readChain_eq_error_iff.mp refused
        exact .offender filled first offence
  · rintro ⟨strange, fault⟩
    have number : Word.read? body = none := by
      refine Option.eq_none_iff_forall_ne_some.mpr fun w found => strange ?_
      obtain ⟨n, numeral, ⟨low, high⟩, -⟩ := Word.read?_eq_some_iff.mp found
      exact ⟨_, .number numeral low high⟩
    rw [read_of_parts number]
    cases fault with
    | malformed empty => rw [if_pos empty]
    | offender filled first offence =>
      rw [if_neg filled]
      exact readChain_eq_error_iff.mpr ⟨_, first, offence⟩

end Expr

namespace Operand

variable {token body : List Char} {indirect : Bool}

theorem exists_body (token : List Char) : ∃ body indirect, HasBody token body indirect := by
  by_cases wrapped : IsWrapped token
  · obtain ⟨inner, same⟩ := wrapped
    exact ⟨_, _, .wrapped same⟩
  · exact ⟨_, _, .bare wrapped⟩

theorem HasBody.read_eq (held : HasBody token body indirect) :
    read token = (Expr.read (trim token) body).map fun e => ⟨e, indirect⟩ := by
  cases held with
  | @wrapped inner same =>
    rw [read, same, unwrap?_wrap]
    dsimp only
    cases Expr.read (wrap inner) (trim inner) <;> rfl
  | bare plain => exact read_of_plain plain

theorem HasBody.read_eq_ok_iff (held : HasBody token body indirect) (o : Operand) :
    read token = .ok o ↔ o.indirect = indirect ∧ Expr.Spelled body o.expr := by
  rw [held.read_eq]
  constructor
  · intro found
    cases expr : Expr.read (trim token) body with
    | error e =>
      rw [expr] at found
      cases found
    | ok e =>
      rw [expr] at found
      cases found
      exact ⟨rfl, Expr.read_eq_ok_iff.mp expr⟩
  · rintro ⟨rfl, spelled⟩
    rw [Expr.read_eq_ok_iff.mpr spelled]
    rfl

/-- Reading accepts exactly the grammar: the operand has all the terms and signs of the body in order. Any
other token is refused, by the whole token if a part of its body is empty and else by the leftmost part
that is no term. -/
theorem read_accepts_grammar (token : List Char) :
    ∃ body indirect, HasBody token body indirect ∧
      (∀ o, read token = .ok o ↔ o.indirect = indirect ∧ Expr.Spelled body o.expr) ∧
      ∀ e, read token = .error e ↔
        (¬∃ x, Expr.Spelled body x) ∧ Expr.Fault (trim token) body e := by
  obtain ⟨body, indirect, held⟩ := exists_body token
  refine ⟨body, indirect, held, held.read_eq_ok_iff, fun e => ?_⟩
  rw [held.read_eq, map_eq_error_iff, Expr.read_eq_error_iff]

-- A number that fits no word is cut at its sign, and then nothing stands before the sign.
example : read "-99999999999".toList = .error (.malformedExpression "-99999999999") := rfl

end Operand

end RegisterMachine
