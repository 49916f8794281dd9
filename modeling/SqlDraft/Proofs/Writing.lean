import Mathlib.Data.Bool.AllAny
import SqlDraft.Proofs.Appending
import SqlDraft.Proofs.Quoting

/-!
# Lexemes side by side

Lexemes can be written with any gaps in front of them: white space, comments, and characters that
stand for nothing.  `textLexemes_of_written` says that what is written so is read back as the
lexemes that it was written from, if no lexeme runs into what follows it.
-/

namespace SqlDraft

/-! ## How lexemes are written -/

/-- Whether a character is a piece of its own that stands for nothing, whatever stands around it. -/
structure IsInert (c : Char) : Prop where
  ne_mark : c ∉ ['-', '/']
  not_blank : isBlank c = false
  not_symbol : Symbol.ofChar? c = none
  not_quote : closingQuote? c = none
  not_wordChar : isWordChar c = false

/-- The texts that are nothing but white space, comments and characters that stand for nothing.  A
minus or a slash stands for nothing in front of white space. -/
inductive GapText : List Char → Prop
  | nil : GapText []
  | blank {c : Char} {gap : List Char} (hc : isBlank c = true) (h : GapText gap) :
      GapText (c :: gap)
  | inert {c : Char} {gap : List Char} (hc : IsInert c) (h : GapText gap) : GapText (c :: gap)
  | lone {c d : Char} {gap : List Char} (hc : c ∈ ['-', '/']) (hd : isBlank d = true)
      (h : GapText gap) : GapText (c :: d :: gap)
  | lineComment {comment gap : List Char} (hcomment : '\n' ∉ comment) (h : GapText gap) :
      GapText ('-' :: '-' :: (comment ++ '\n' :: gap))
  | blockComment {comment gap : List Char} (hcomment : ¬ ['*', '/'] <:+: comment)
      (h : GapText gap) : GapText ('/' :: '*' :: (comment ++ '*' :: '/' :: gap))

/-- Whether a text is a number: a minus or none, digits, and maybe a point with digits after it. -/
def IsNumber (text : List Char) : Prop :=
  ∃ minus whole fraction, minus ∈ [[], ['-']] ∧ whole ≠ [] ∧
    (∀ c ∈ whole, c.isDigit = true) ∧
    (fraction = [] ∨ ∃ ds, (∀ c ∈ ds, c.isDigit = true) ∧ fraction = '.' :: ds) ∧
    text = minus ++ (whole ++ fraction)

namespace Lexeme

def ofWord (gap word : List Char) : Lexeme :=
  ⟨gap, word, .ofWord word⟩

def ofQuotation (gap : List Char) (opening close : Char) (content : List Char) : Lexeme :=
  ⟨gap, quoted opening close content, quotationToken opening content⟩

def ofNumber (gap number : List Char) : Lexeme :=
  ⟨gap, number, .num (String.ofList number)⟩

def ofMark (gap : List Char) (mark : Symbol) : Lexeme :=
  ⟨gap, [mark.char], .symbol mark⟩

end Lexeme

/-- The texts that lexemes are written as, up to the end of the draft.  What follows a word, a
quotation or a number does not go on with it. -/
inductive Written : List Lexeme → List Char → Prop
  | eof {gap : List Char} (hgap : GapText gap) : Written [⟨gap, [], .eof⟩] gap
  | word {gap word rest : List Char} {ls : List Lexeme} (hgap : GapText gap)
      (hword : isWord word = true) (hrest : ∀ c ∈ rest.head?, isWordChar c = false)
      (h : Written ls rest) : Written (.ofWord gap word :: ls) (gap ++ (word ++ rest))
  | quotation {gap content rest : List Char} {opening close : Char} {ls : List Lexeme}
      (hgap : GapText gap) (hquote : closingQuote? opening = some close)
      (hrest : rest.head? ≠ some close) (h : Written ls rest) :
      Written (.ofQuotation gap opening close content :: ls)
        (gap ++ (quoted opening close content ++ rest))
  | number {gap number rest : List Char} {ls : List Lexeme} (hgap : GapText gap)
      (hnumber : IsNumber number)
      (hrest : ∀ c ∈ rest.head?, c.isDigit = false ∧ c ≠ '.') (h : Written ls rest) :
      Written (.ofNumber gap number :: ls) (gap ++ (number ++ rest))
  | mark {gap rest : List Char} {mark : Symbol} {ls : List Lexeme} (hgap : GapText gap)
      (h : Written ls rest) : Written (.ofMark gap mark :: ls) (gap ++ (mark.char :: rest))

/-! ## How gaps are read -/

def textLexemes (text : List Char) : List Lexeme :=
  Lexeme.ofPieces (pieces text)

theorem pieces_of_firstPiece {c : Char} {cs rest : List Char} {p : Piece} (h : FirstPiece c cs p)
    (hsplit : c :: cs = p.text ++ rest) : pieces (c :: cs) = p :: pieces rest := by
  have hp := firstPiece_eq_iff.2 h
  obtain ⟨d, text, htext⟩ := List.exists_cons_of_ne_nil (firstPiece_text_ne_nil c cs)
  rw [hp] at htext
  rw [htext, List.cons_append, List.cons.injEq] at hsplit
  rw [pieces_cons, hp, htext, hsplit.2, List.length_cons, Nat.add_sub_cancel, List.drop_left]

theorem textLexemes_gap {c : Char} {cs rest gap : List Char} {kind : Gap}
    (h : FirstPiece c cs (.gap kind gap)) (hsplit : c :: cs = gap ++ rest) :
    textLexemes (c :: cs) = Lexeme.addLead gap (textLexemes rest) := by
  rw [textLexemes, pieces_of_firstPiece h hsplit]
  rfl

theorem textLexemes_gap_cons {c : Char} {cs : List Char} {kind : Gap}
    (h : FirstPiece c cs (.gap kind [c])) :
    textLexemes (c :: cs) = Lexeme.addLead [c] (textLexemes cs) :=
  textLexemes_gap h rfl

theorem isWordStart_of_not_isWordChar {c : Char} (h : isWordChar c = false) :
    isWordStart c = false := by
  rw [isWordChar, isAlphanumeric, Bool.or_eq_false_iff, Bool.or_eq_false_iff] at h
  rw [isWordStart, h.1.1, h.2]
  rfl

theorem IsInert.firstPiece {c : Char} (h : IsInert c) (cs : List Char) :
    FirstPiece c cs (.gap .stray [c]) := by
  have hmark := h.ne_mark
  simp only [List.mem_cons, List.not_mem_nil, or_false, not_or] at hmark
  exact .stray h.not_blank (fun hc => absurd hc hmark.1) (fun hc => absurd hc hmark.2) h.not_symbol
    h.not_quote (isDigit_of_not_isWordChar h.not_wordChar)
    (isWordStart_of_not_isWordChar h.not_wordChar)

theorem firstPiece_lone {c d : Char} (hc : c ∈ ['-', '/']) (hd : isBlank d = true)
    (cs : List Char) : FirstPiece c (d :: cs) (.gap .stray [c]) := by
  have hall : ∀ c ∈ ['-', '/'], isBlank c = false ∧ Symbol.ofChar? c = none ∧
      closingQuote? c = none ∧ c.isDigit = false ∧ isWordStart c = false :=
    List.all_iff_forall_prop.1 (by decide)
  obtain ⟨hblank, hsymbol, hquote, hdigit, hword⟩ := hall c hc
  refine .stray hblank (fun _ e es heq => ?_) (fun _ es heq => ?_) hsymbol hquote hdigit hword
  · obtain ⟨rfl, -⟩ := List.cons.inj heq
    exact ⟨ne_of_isBlank hd (by decide), isDigit_of_isBlank hd⟩
  · exact ne_of_isBlank hd (by decide) (List.cons.inj heq).1

theorem lineText_append_newline {comment : List Char} (h : '\n' ∉ comment) (rest : List Char) :
    lineText (comment ++ '\n' :: rest) = comment ++ ['\n'] := by
  induction comment with
  | nil => rfl
  | cons c comment ih =>
    rw [List.mem_cons, not_or] at h
    rw [List.cons_append, lineText, if_neg (Ne.symm h.1), ih h.2]
    rfl

theorem blockText_append_close {comment : List Char} (h : ¬ ['*', '/'] <:+: comment)
    (rest : List Char) :
    blockText (comment ++ '*' :: '/' :: rest) = comment ++ ['*', '/'] := by
  match comment with
  | [] => rfl
  | [c] =>
    have hclose : ¬ (c = '*' ∧ '*' = '/') := fun h => absurd h.2 (by decide)
    rw [List.cons_append, List.nil_append, blockText, if_neg hclose]
    rfl
  | c :: d :: comment =>
    have hclose : ¬ (c = '*' ∧ d = '/') := by
      rintro ⟨rfl, rfl⟩
      exact h ⟨[], comment, rfl⟩
    have hlater : ¬ ['*', '/'] <:+: d :: comment :=
      fun hin => h (List.infix_cons hin)
    have ih := blockText_append_close hlater rest
    rw [List.cons_append] at ih
    rw [List.cons_append, List.cons_append, blockText, if_neg hclose, ih]
    rfl

/-- A gap goes into the lead of the lexeme after it. -/
theorem textLexemes_gap_append {gap : List Char} (h : GapText gap) (rest : List Char) :
    textLexemes (gap ++ rest) = Lexeme.addLead gap (textLexemes rest) := by
  induction h with
  | nil => exact (Lexeme.addLead_nil _).symm
  | @blank c gap hc _ ih =>
    rw [List.cons_append, textLexemes_gap_cons (.blank hc), ih, ← Lexeme.addLead_append]
    rfl
  | @inert c gap hc _ ih =>
    rw [List.cons_append, textLexemes_gap_cons (hc.firstPiece _), ih, ← Lexeme.addLead_append]
    rfl
  | @lone c d gap hc hd _ ih =>
    rw [List.cons_append, List.cons_append, textLexemes_gap_cons (firstPiece_lone hc hd _),
      textLexemes_gap_cons (.blank hd), ih, ← Lexeme.addLead_append, ← Lexeme.addLead_append]
    rfl
  | @lineComment comment gap hcomment _ ih =>
    have hline : lineText ('-' :: (comment ++ '\n' :: (gap ++ rest))) =
        '-' :: (comment ++ ['\n']) := by
      rw [lineText, if_neg (by decide), lineText_append_newline hcomment]
    have hfirst : FirstPiece '-' ('-' :: (comment ++ '\n' :: (gap ++ rest)))
        (.gap .lineComment ('-' :: '-' :: (comment ++ ['\n']))) := by
      rw [← hline]
      exact .lineComment rfl rfl
    have hsplit : '-' :: '-' :: (comment ++ '\n' :: (gap ++ rest)) =
        '-' :: '-' :: (comment ++ ['\n']) ++ (gap ++ rest) := by simp
    have htext : '-' :: '-' :: (comment ++ '\n' :: gap) ++ rest =
        '-' :: '-' :: (comment ++ '\n' :: (gap ++ rest)) := by simp
    rw [htext, textLexemes_gap hfirst hsplit, ih, ← Lexeme.addLead_append]
    simp
  | @blockComment comment gap hcomment _ ih =>
    have hfirst : FirstPiece '/' ('*' :: (comment ++ '*' :: '/' :: (gap ++ rest)))
        (.gap .blockComment ('/' :: '*' :: (comment ++ ['*', '/']))) := by
      rw [← blockText_append_close hcomment (gap ++ rest)]
      exact .blockComment rfl rfl
    have hsplit : '/' :: '*' :: (comment ++ '*' :: '/' :: (gap ++ rest)) =
        '/' :: '*' :: (comment ++ ['*', '/']) ++ (gap ++ rest) := by simp
    have htext : '/' :: '*' :: (comment ++ '*' :: '/' :: gap) ++ rest =
        '/' :: '*' :: (comment ++ '*' :: '/' :: (gap ++ rest)) := by simp
    rw [htext, textLexemes_gap hfirst hsplit, ih, ← Lexeme.addLead_append]
    simp

/-! ## How lexemes are read -/

theorem digitsText_append_of_isDigit {ds : List Char} (hds : ∀ c ∈ ds, c.isDigit = true)
    (pointSeen : Bool) (rest : List Char) :
    digitsText pointSeen (ds ++ rest) = ds ++ digitsText pointSeen rest := by
  induction ds with
  | nil => rfl
  | cons d ds ih =>
    obtain ⟨hd, hds⟩ := List.forall_mem_cons.1 hds
    rw [List.cons_append, digitsText, if_pos hd, ih hds]
    rfl

theorem pieces_number_append {number rest : List Char} (h : IsNumber number)
    (hrest : ∀ c ∈ rest.head?, c.isDigit = false ∧ c ≠ '.') :
    pieces (number ++ rest) = .token (.num (String.ofList number)) number :: pieces rest := by
  obtain ⟨minus, whole, fraction, hminus, hne, hwhole, hfraction, rfl⟩ := h
  have hstop (pointSeen : Bool) : digitsText pointSeen rest = [] := by
    cases rest with
    | nil => rfl
    | cons c cs =>
      obtain ⟨hdigit, hpoint⟩ := hrest c rfl
      rw [digitsText, hdigit, if_neg Bool.false_ne_true, if_neg fun h => hpoint h.1]
  have hpoint : digitsText false (fraction ++ rest) = fraction := by
    rcases hfraction with rfl | ⟨ds, hds, rfl⟩
    · exact hstop false
    · rw [List.cons_append, digitsText, if_neg (by decide), if_pos ⟨rfl, rfl⟩,
        digitsText_append_of_isDigit hds, hstop, List.append_nil]
  have hdigits {ds : List Char} (hds : ∀ c ∈ ds, c.isDigit = true) :
      digitsText false (ds ++ fraction ++ rest) = ds ++ fraction := by
    rw [List.append_assoc, digitsText_append_of_isDigit hds, hpoint]
  -- A number is its first character and the digits after it.
  have hnumber {c : Char} {cs : List Char}
      (hc : c.isDigit = true ∨ c = '-' ∧ ∃ d ds, cs ++ rest = d :: ds ∧ d.isDigit = true)
      (hcs : digitsText false (cs ++ rest) = cs) :
      pieces (c :: cs ++ rest) =
        .token (.num (String.ofList (c :: cs))) (c :: cs) :: pieces rest := by
    have hfirst :
        FirstPiece c (cs ++ rest) (.token (.num (String.ofList (c :: cs))) (c :: cs)) := by
      have h := FirstPiece.number hc
      rwa [numberPiece, hcs] at h
    exact pieces_of_firstPiece hfirst rfl
  obtain ⟨d, ds, rfl⟩ := List.exists_cons_of_ne_nil hne
  obtain ⟨hd, hds⟩ := List.forall_mem_cons.1 hwhole
  simp only [List.mem_cons, List.not_mem_nil, or_false] at hminus
  rcases hminus with rfl | rfl
  · exact hnumber (.inl hd) (hdigits hds)
  · exact hnumber (.inr ⟨rfl, d, _, rfl, hd⟩) (hdigits hwhole)

theorem textLexemes_of_written {ls : List Lexeme} {text : List Char} (h : Written ls text) :
    textLexemes text = ls := by
  have htoken {gap text rest : List Char} {t : Token} {ls : List Lexeme} (hgap : GapText gap)
      (hpieces : pieces (text ++ rest) = .token t text :: pieces rest)
      (ih : textLexemes rest = ls) :
      textLexemes (gap ++ (text ++ rest)) = ⟨gap, text, t⟩ :: ls := by
    rw [textLexemes_gap_append hgap, textLexemes, hpieces, Lexeme.ofPieces, Lexeme.addLead, ← ih,
      List.append_nil]
    rfl
  induction h with
  | @eof gap hgap =>
    have hread := textLexemes_gap_append hgap []
    rw [List.append_nil] at hread
    rw [hread]
    change [Lexeme.mk (gap ++ []) [] .eof] = _
    rw [List.append_nil]
  | word hgap hword hrest _ ih =>
    refine htoken hgap (pieces_word_append hword fun c cs heq => hrest c ?_) ih
    rw [heq, List.head?_cons, Option.mem_some]
  | quotation hgap hquote hrest _ ih => exact htoken hgap (pieces_quoted_append hquote hrest _) ih
  | number hgap hnumber hrest _ ih => exact htoken hgap (pieces_number_append hnumber hrest) ih
  | @mark gap rest mark ls hgap _ ih =>
    have hpieces : pieces ([mark.char] ++ rest) = _ := pieces_symbol_cons mark rest
    exact htoken hgap hpieces ih

end SqlDraft
