import SqlDraft.Proofs.Lexing

/-!
# Quotations

Any text can stand between quotes: where a closing quote occurs in it, it is written twice.
`pieces_quoted_append` says that such a quotation is one piece and has that text for its content,
unless one more closing quote follows.
-/

namespace SqlDraft

/-- A text in which every closing quote is written twice. -/
def doubled (close : Char) (content : List Char) : List Char :=
  content.flatMap fun c => if c = close then [c, c] else [c]

def quoted (opening close : Char) (content : List Char) : List Char :=
  opening :: (doubled close content ++ [close])

theorem quoted_append (opening close : Char) (content rest : List Char) :
    quoted opening close content ++ rest = opening :: (doubled close content ++ close :: rest) := by
  rw [quoted, List.cons_append, List.append_assoc, List.singleton_append]

theorem doubled_cons (close c : Char) (cs : List Char) :
    doubled close (c :: cs) = (if c = close then [c, c] else [c]) ++ doubled close cs :=
  List.flatMap_cons

theorem length_doubled (close : Char) (content : List Char) :
    (doubled close content).length = content.length + content.count close := by
  induction content with
  | nil => rfl
  | cons c cs ih =>
    rw [doubled_cons, List.length_append, ih, List.length_cons, List.count_cons]
    by_cases hc : c = close
    · rw [if_pos hc, if_pos (beq_iff_eq.2 hc), List.length_cons, List.length_singleton]
      omega
    · rw [if_neg hc, if_neg (fun h => hc (beq_iff_eq.1 h)), List.length_singleton]
      omega

/-- Nothing is doubled in a text in which no closing quote occurs, and only in such a text. -/
theorem doubled_eq_self_iff {close : Char} {content : List Char} :
    doubled close content = content ↔ close ∉ content := by
  constructor
  · intro h
    have hlength := congrArg List.length h
    rw [length_doubled] at hlength
    exact List.count_eq_zero.1 (by omega)
  · intro h
    induction content with
    | nil => rfl
    | cons c cs ih =>
      rw [List.mem_cons, not_or] at h
      rw [doubled_cons, if_neg (Ne.symm h.1), ih h.2]
      rfl

theorem quotedText_cons_of_ne {close c : Char} (h : c ≠ close) (cs : List Char) :
    quotedText close (c :: cs) = c :: quotedText close cs := by
  cases cs with
  | nil => rfl
  | cons d ds => rw [quotedText, if_neg h]

theorem unquoted_cons_of_ne {close c : Char} (h : c ≠ close) (cs : List Char) :
    unquoted close (c :: cs) = c :: unquoted close cs := by
  cases cs with
  | nil => simp only [unquoted, if_neg h]
  | cons d ds => rw [unquoted, if_neg h]

/-- No quote that is written twice ends a quotation. -/
theorem quotedText_doubled_append (close : Char) (content rest : List Char) :
    quotedText close (doubled close content ++ rest) =
      doubled close content ++ quotedText close rest := by
  induction content with
  | nil => rfl
  | cons c cs ih =>
    rw [doubled_cons]
    by_cases hc : c = close
    · subst hc
      simp only [↓reduceIte, List.cons_append, List.nil_append, quotedText, ih]
    · simp only [if_neg hc, List.cons_append, List.nil_append, quotedText_cons_of_ne hc, ih]

/-- A quotation ends at its own closing quote, and its content is what was quoted. -/
theorem quotation_doubled_append {close : Char} {rest : List Char}
    (hrest : rest.head? ≠ some close) (content : List Char) :
    quotedText close (doubled close content ++ close :: rest) = doubled close content ++ [close] ∧
      unquoted close (doubled close content ++ close :: rest) = content := by
  induction content with
  | nil =>
    cases rest with
    | nil =>
      refine ⟨rfl, ?_⟩
      change unquoted close [close] = []
      rw [unquoted, if_pos rfl]
    | cons d ds =>
      have hd : d ≠ close := fun h => hrest (congrArg some h)
      constructor
      · change quotedText close (close :: d :: ds) = [close]
        rw [quotedText, if_pos rfl, if_neg hd]
      · change unquoted close (close :: d :: ds) = []
        rw [unquoted, if_pos rfl, if_neg hd]
  | cons c cs ih =>
    obtain ⟨hquoted, hcontent⟩ := ih
    rw [doubled_cons]
    by_cases hc : c = close
    · subst hc
      simp only [↓reduceIte, List.cons_append, List.nil_append, quotedText, unquoted, hquoted,
        hcontent, and_self]
    · simp only [if_neg hc, List.cons_append, List.nil_append, quotedText_cons_of_ne hc,
        unquoted_cons_of_ne hc, hquoted, hcontent, and_self]

theorem pieces_quoted_append {opening close : Char} {rest : List Char}
    (hclose : closingQuote? opening = some close) (hrest : rest.head? ≠ some close)
    (content : List Char) :
    pieces (quoted opening close content ++ rest) =
      .token (quotationToken opening content) (quoted opening close content) :: pieces rest := by
  obtain ⟨hquoted, hcontent⟩ := quotation_doubled_append hrest content
  have hfirst : firstPiece opening (doubled close content ++ close :: rest) =
      .token (quotationToken opening content) (quoted opening close content) := by
    rw [firstPiece_eq_iff.2 (.quotation hclose), hquoted, hcontent]
    rfl
  have hdrop : (doubled close content ++ close :: rest).drop
      ((quoted opening close content).length - 1) = rest := by
    rw [List.append_cons]
    exact List.drop_left
  rw [quoted_append, pieces_cons, hfirst, Piece.text, hdrop]

theorem textTokens_quoted_append {opening close : Char} {rest : List Char}
    (hclose : closingQuote? opening = some close) (hrest : rest.head? ≠ some close)
    (content : List Char) :
    textTokens (quoted opening close content ++ rest) =
      quotationToken opening content :: textTokens rest := by
  rw [textTokens, pieces_quoted_append hclose hrest]
  rfl

end SqlDraft
