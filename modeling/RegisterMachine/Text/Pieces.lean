/-! Cutting a text at its delimiters. The delimiters are kept, so that the cut text can be put
together again. -/

namespace RegisterMachine.Text

variable {σ : Type}

/-- The text up to the first delimiter, then each delimiter with the text that follows it. -/
def cut (delimiter? : Char → Option σ) (text : List Char) :
    List Char × List (σ × List Char) :=
  text.foldr
    (fun c (first, rest) =>
      match delimiter? c with
      | some s => ([], (s, first) :: rest)
      | none => (c :: first, rest))
    ([], [])

@[simp]
theorem cut_nil (delimiter? : Char → Option σ) : cut delimiter? [] = ([], []) := rfl

theorem cut_cons (delimiter? : Char → Option σ) (c : Char) (text : List Char) :
    cut delimiter? (c :: text) =
      match delimiter? c with
      | some s => ([], (s, (cut delimiter? text).1) :: (cut delimiter? text).2)
      | none => (c :: (cut delimiter? text).1, (cut delimiter? text).2) := rfl

/-- The pieces between the characters that satisfy `p`; there is always one more of them than
there are such characters. -/
def pieces (p : Char → Bool) (text : List Char) : List (List Char) :=
  let (first, rest) := cut (fun c => if p c then some () else none) text
  first :: rest.map Prod.snd

end RegisterMachine.Text
