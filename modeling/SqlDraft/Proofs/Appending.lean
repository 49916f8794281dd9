import SqlDraft.Proofs.Lexing

/-!
# Text that is added at the end

A piece ends where its own text and the next character say that it does, so text added at the end of
a draft changes at most the last piece: `exists_pieces_append`.  Pieces that end in front of some
character end there whatever follows it: `pieces_append_of_append`.  White space at either end of a
draft changes no token at all, unless the draft ends inside a quotation: `tokens_trim`.
-/

namespace SqlDraft

/-! ## Stretches that end before the text does -/

theorem lineText_append {cs : List Char} (h : (lineText cs).length < cs.length) (t : List Char) :
    lineText (cs ++ t) = lineText cs := by
  induction cs with
  | nil => exact absurd h (Nat.not_lt_zero 0)
  | cons c cs ih =>
    rw [lineText] at h
    rw [List.cons_append, lineText, lineText]
    by_cases hc : c = '\n'
    · rw [if_pos hc, if_pos hc]
    · rw [if_neg hc] at h
      rw [if_neg hc, if_neg hc, ih (Nat.lt_of_succ_lt_succ h)]

theorem blockText_append {cs : List Char} (h : (blockText cs).length < cs.length) (t : List Char) :
    blockText (cs ++ t) = blockText cs := by
  fun_induction blockText cs with
  | case1 => exact absurd h (Nat.not_lt_zero 0)
  | case2 => exact absurd h (Nat.lt_irrefl 1)
  | case3 c d cs hend => rw [List.cons_append, List.cons_append, blockText, if_pos hend]
  | case4 c d cs hend ih =>
    have ih := ih (Nat.lt_of_succ_lt_succ h)
    rw [List.cons_append] at ih
    rw [List.cons_append, List.cons_append, blockText, if_neg hend, ih]

theorem quotation_append {close : Char} {cs : List Char}
    (h : (quotedText close cs).length < cs.length) (t : List Char) :
    quotedText close (cs ++ t) = quotedText close cs ∧
      unquoted close (cs ++ t) = unquoted close cs := by
  fun_induction quotedText close cs with
  | case1 => exact absurd h (Nat.not_lt_zero 0)
  | case2 => exact absurd h (Nat.lt_irrefl 1)
  | case3 cs ih =>
    obtain ⟨hquoted, hcontent⟩ := ih (Nat.lt_of_succ_lt_succ (Nat.lt_of_succ_lt_succ h))
    simp only [List.cons_append, quotedText, unquoted, ↓reduceIte, hquoted, hcontent, and_self]
  | case4 d cs hd =>
    simp only [List.cons_append, quotedText, unquoted, ↓reduceIte, if_neg hd, and_self]
  | case5 c d cs hc ih =>
    obtain ⟨hquoted, hcontent⟩ := ih (Nat.lt_of_succ_lt_succ h)
    rw [List.cons_append] at hquoted hcontent
    simp only [List.cons_append, quotedText, unquoted, if_neg hc, hquoted, hcontent, and_self]

theorem digitsText_append {pointSeen : Bool} {cs : List Char}
    (h : (digitsText pointSeen cs).length < cs.length) (t : List Char) :
    digitsText pointSeen (cs ++ t) = digitsText pointSeen cs := by
  fun_induction digitsText pointSeen cs with
  | case1 => exact absurd h (Nat.not_lt_zero 0)
  | case2 pointSeen c cs hdigit ih =>
    rw [List.cons_append, digitsText, if_pos hdigit, ih (Nat.lt_of_succ_lt_succ h)]
  | case3 pointSeen c cs hdigit hpoint ih =>
    rw [List.cons_append, digitsText, if_neg hdigit, if_pos hpoint, ih (Nat.lt_of_succ_lt_succ h)]
  | case4 pointSeen c cs hdigit hpoint =>
    rw [List.cons_append, digitsText, if_neg hdigit, if_neg hpoint]

theorem takeWhile_append_of_lt {p : Char → Bool} {cs : List Char}
    (h : (cs.takeWhile p).length < cs.length) (t : List Char) :
    (cs ++ t).takeWhile p = cs.takeWhile p := by
  rw [List.takeWhile_append, if_neg (Nat.ne_of_lt h)]

theorem FirstPiece.append {c : Char} {cs : List Char} {p : Piece} (h : FirstPiece c cs p)
    (hlength : p.text.length ≤ cs.length) (t : List Char) : FirstPiece c (cs ++ t) p := by
  cases h with
  | blank h => exact .blank h
  | lineComment h hcs =>
    rw [← lineText_append (Nat.lt_of_succ_le hlength) t]
    exact .lineComment h (by rw [hcs, List.cons_append])
  | @blockComment rest h hcs =>
    subst hcs
    have hlt : (blockText rest).length < rest.length :=
      Nat.lt_of_succ_lt_succ (Nat.lt_of_succ_le hlength)
    rw [← blockText_append hlt t]
    exact .blockComment h (List.cons_append ..)
  | symbol h => exact .symbol h
  | quotation h =>
    obtain ⟨hquoted, hcontent⟩ := quotation_append (Nat.lt_of_succ_le hlength) t
    rw [← hquoted, ← hcontent]
    exact .quotation h
  | number h =>
    have hnumber : numberPiece c (cs ++ t) = numberPiece c cs := by
      rw [numberPiece, numberPiece, digitsText_append (Nat.lt_of_succ_le hlength)]
    rw [← hnumber]
    rcases h with hdigit | ⟨hc, d, rest, hcs, hdigit⟩
    · exact .number (.inl hdigit)
    · refine .number (.inr ⟨hc, d, rest ++ t, ?_, hdigit⟩)
      rw [hcs, List.cons_append]
  | word h =>
    rw [← takeWhile_append_of_lt (Nat.lt_of_succ_le hlength) t]
    exact .word h
  | stray hblank hminus hslash hsymbol hquote hdigit hword =>
    -- What makes `c` stray is the character after it, which is there already.
    obtain ⟨d, rest, rfl⟩ := List.exists_cons_of_ne_nil (List.ne_nil_of_length_pos hlength)
    refine .stray hblank (fun hc e es heq => ?_) (fun hc es heq => ?_) hsymbol hquote hdigit hword
    · obtain ⟨rfl, -⟩ := List.cons.inj heq
      exact hminus hc d rest rfl
    · obtain ⟨rfl, -⟩ := List.cons.inj heq
      exact hslash hc rest rfl

/-- A piece that ends before the text does is the same in a longer text. -/
theorem firstPiece_append {c : Char} {cs : List Char}
    (h : (firstPiece c cs).text.length ≤ cs.length) (t : List Char) :
    firstPiece c (cs ++ t) = firstPiece c cs :=
  firstPiece_eq_iff.2 ((firstPiece_kind c cs).append h t)

/-- Text that is added changes at most the last piece. -/
theorem exists_pieces_append (c : Char) (cs : List Char) :
    ∃ front last later, pieces (c :: cs) = front ++ [firstPiece last later] ∧
      (firstPiece last later).text = last :: later ∧
      ∀ t, pieces (c :: cs ++ t) = front ++ pieces (last :: later ++ t) := by
  -- By induction on the length: either the first piece is the whole text, or the text after it is
  -- shorter, and the first piece has ended before anything can be added.
  induction hlength : cs.length using Nat.strongRecOn generalizing c cs with
  | ind n ih =>
    have hprefix := firstPiece_isPrefix c cs
    have hpos : 0 < (firstPiece c cs).text.length :=
      List.length_pos_iff.2 (firstPiece_text_ne_nil c cs)
    cases hrest : cs.drop ((firstPiece c cs).text.length - 1) with
    | nil =>
      have hall : (c :: cs).length ≤ (firstPiece c cs).text.length := by
        rw [List.drop_eq_nil_iff] at hrest
        rw [List.length_cons]
        omega
      refine ⟨[], c, cs, ?_, hprefix.eq_of_length_le hall, fun t => rfl⟩
      rw [pieces_cons, hrest]
      rfl
    | cons d ds =>
      have hdrop := congrArg List.length hrest
      rw [List.length_drop, List.length_cons] at hdrop
      have hle : (firstPiece c cs).text.length ≤ cs.length := by omega
      obtain ⟨front, last, later, hpieces, htext, happend⟩ := ih ds.length (by omega) d ds rfl
      refine ⟨firstPiece c cs :: front, last, later, ?_, htext, fun t => ?_⟩
      · rw [pieces_cons, hrest, hpieces, List.cons_append]
      · rw [List.cons_append, pieces_cons, firstPiece_append hle,
          List.drop_append_of_le_length (by omega), hrest, happend]
        rfl

/-! ## Quotations that are still open -/

/-- Whether the text after an opening quote holds the quote that closes it. -/
def closes (close : Char) : List Char → Bool
  | [] => false
  | [c] => c == close
  | c :: d :: cs =>
    if c = close then
      if d = close then closes close cs else true
    else closes close (d :: cs)

/-- Whether a piece is a quotation that lacks its closing quote. -/
def Piece.isOpen (p : Piece) : Bool :=
  match p.text with
  | [] => false
  | c :: cs => (closingQuote? c).any fun close => !closes close cs

/-- Whether a text ends inside a quotation. -/
def endsOpen (text : List Char) : Bool :=
  (pieces text).getLast?.any Piece.isOpen

theorem quotation_append_of_closes {close d : Char} {cs : List Char}
    (h : closes close cs = true) (hd : d ≠ close) (t : List Char) :
    quotedText close (cs ++ d :: t) = quotedText close cs ∧
      unquoted close (cs ++ d :: t) = unquoted close cs := by
  fun_induction closes close cs with
  | case1 => exact Bool.noConfusion h
  | case2 c =>
    obtain rfl := beq_iff_eq.1 h
    simp only [List.cons_append, List.nil_append, quotedText, unquoted, ↓reduceIte, if_neg hd,
      and_self]
  | case3 cs ih =>
    obtain ⟨hquoted, hcontent⟩ := ih h
    simp only [List.cons_append, quotedText, unquoted, ↓reduceIte, hquoted, hcontent, and_self]
  | case4 e cs he =>
    simp only [List.cons_append, quotedText, unquoted, ↓reduceIte, if_neg he, and_self]
  | case5 c e cs hc ih =>
    obtain ⟨hquoted, hcontent⟩ := ih h
    rw [List.cons_append] at hquoted hcontent
    simp only [List.cons_append, quotedText, unquoted, if_neg hc, hquoted, hcontent, and_self]

theorem quotedText_of_not_closes {close : Char} {cs : List Char} (h : closes close cs = false) :
    quotedText close cs = cs := by
  fun_induction closes close cs with
  | case1 | case2 => rfl
  | case3 cs ih => simp only [quotedText, ↓reduceIte, ih h]
  | case4 => exact Bool.noConfusion h
  | case5 c d cs hc ih => rw [quotedText, if_neg hc, ih h]

theorem closes_of_not_mem {close : Char} {cs : List Char} (h : close ∉ cs) :
    closes close cs = false := by
  fun_induction closes close cs with
  | case1 => rfl
  | case2 c => exact beq_eq_false_iff_ne.2 fun hc => h (hc ▸ List.mem_singleton_self _)
  | case3 => exact absurd (List.mem_cons_self ..) h
  | case4 => exact absurd (List.mem_cons_self ..) h
  | case5 c d cs hc ih => exact ih fun hmem => h (List.mem_cons_of_mem _ hmem)

theorem closes_append {close : Char} {cs t : List Char} (h : closes close cs = false)
    (ht : close ∉ t) : closes close (cs ++ t) = false := by
  fun_induction closes close cs with
  | case1 => exact closes_of_not_mem ht
  | case2 c =>
    refine closes_of_not_mem fun hmem => ?_
    rcases List.mem_cons.1 hmem with rfl | hmem
    · exact absurd h (by simp)
    · exact ht hmem
  | case3 cs ih => simpa only [List.cons_append, closes, ↓reduceIte] using ih h
  | case4 => exact Bool.noConfusion h
  | case5 c d cs hc ih =>
    have ih := ih h
    rw [List.cons_append] at ih
    rw [List.cons_append, List.cons_append, closes, if_neg hc, ih]

/-! ## White space at the end -/

theorem ne_of_isBlank {c d : Char} (h : isBlank c = true) (hd : isBlank d = false) : c ≠ d := by
  rintro rfl
  rw [h] at hd
  exact Bool.noConfusion hd

theorem isDigit_of_isBlank {c : Char} (h : isBlank c = true) : c.isDigit = false := by
  rw [Bool.eq_false_iff]
  intro hdigit
  rw [isBlank_of_isDigit hdigit] at h
  exact Bool.noConfusion h

theorem isWordChar_of_isBlank {c : Char} (h : isBlank c = true) : isWordChar c = false := by
  have hstart : isWordStart c = false := by
    rw [Bool.eq_false_iff]
    intro hstart
    rw [isBlank_of_isWordStart hstart] at h
    exact Bool.noConfusion h
  -- Numerals beyond ASCII, like letters, are ranges that no range of blanks meets.
  have hnumeric : numericRanges.contains c = false :=
    CharRanges.contains_eq_false_of_apart (by decide +kernel) h
  rw [isWordStart, Bool.or_eq_false_iff] at hstart
  rw [isWordChar, isAlphanumeric, isNumeric, hstart.1, hstart.2, isDigit_of_isBlank h, hnumeric,
    Bool.and_false]
  rfl

theorem isDigit_of_not_isWordChar {c : Char} (h : isWordChar c = false) : c.isDigit = false := by
  rw [isWordChar, isAlphanumeric, isNumeric, Bool.or_eq_false_iff, Bool.or_eq_false_iff,
    Bool.or_eq_false_iff] at h
  exact h.1.2.1

theorem ne_close_of_isBlank {c opening close : Char} (h : isBlank c = true)
    (hclose : closingQuote? opening = some close) : c ≠ close := by
  apply ne_of_isBlank h
  rcases opening_cases hclose with ⟨-, rfl⟩ | ⟨-, rfl⟩ | ⟨-, rfl⟩ | ⟨-, rfl⟩ <;> decide

theorem lineText_isPrefix_append (cs t : List Char) : lineText cs <+: lineText (cs ++ t) := by
  induction cs with
  | nil => exact List.nil_prefix
  | cons c cs ih =>
    by_cases hc : c = '\n'
    · have hsame : lineText (c :: cs) = lineText (c :: cs ++ t) := by
        rw [List.cons_append, lineText, lineText, if_pos hc, if_pos hc]
      exact hsame ▸ List.prefix_refl _
    · rw [List.cons_append, lineText, lineText, if_neg hc, if_neg hc]
      exact List.cons_prefix_cons.2 ⟨rfl, ih⟩

theorem blockText_isPrefix_append (cs t : List Char) : blockText cs <+: blockText (cs ++ t) := by
  fun_induction blockText cs with
  | case1 => exact List.nil_prefix
  | case2 c =>
    cases t with
    | nil => exact List.prefix_refl _
    | cons d ds =>
      rw [List.cons_append, List.nil_append, blockText]
      by_cases hend : c = '*' ∧ d = '/'
      · rw [if_pos hend]
        exact ⟨[d], rfl⟩
      · rw [if_neg hend]
        exact ⟨_, rfl⟩
  | case3 c d cs hend =>
    have hsame : blockText (c :: d :: cs ++ t) = [c, d] := by
      rw [List.cons_append, List.cons_append, blockText, if_pos hend]
    exact hsame ▸ List.prefix_refl _
  | case4 c d cs hend ih =>
    rw [List.cons_append, List.cons_append, blockText, if_neg hend]
    exact List.cons_prefix_cons.2 ⟨rfl, ih⟩

theorem digitsText_append_of_eq_self {pointSeen : Bool} {d : Char} {cs : List Char}
    (h : digitsText pointSeen cs = cs) (hdigit : d.isDigit = false) (hpoint : d ≠ '.')
    (t : List Char) : digitsText pointSeen (cs ++ d :: t) = cs := by
  fun_induction digitsText pointSeen cs with
  | case1 pointSeen =>
    rw [List.nil_append, digitsText, hdigit, if_neg Bool.false_ne_true, if_neg fun h => hpoint h.1]
  | case2 pointSeen c cs hc ih =>
    rw [List.cons_append, digitsText, if_pos hc, ih (List.cons.inj h).2]
  | case3 pointSeen c cs hc hdot ih =>
    rw [List.cons_append, digitsText, if_neg hc, if_pos hdot, ih (List.cons.inj h).2]
  | case4 => cases h

/-- Whether a character starts a piece of its own after every piece but a comment and a quotation
that is still open. -/
structure StartsPiece (d : Char) : Prop where
  not_wordChar : isWordChar d = false
  ne_mark : d ∉ ['.', '-', '*']
  ne_close : ∀ {opening close : Char}, closingQuote? opening = some close → d ≠ close

theorem startsPiece_of_isBlank {d : Char} (h : isBlank d = true) : StartsPiece d where
  not_wordChar := isWordChar_of_isBlank h
  ne_mark hmem := by
    simp only [List.mem_cons, List.not_mem_nil, or_false] at hmem
    rcases hmem with rfl | rfl | rfl <;> exact absurd h (by decide)
  ne_close := ne_close_of_isBlank h

theorem startsPiece_closeParen : StartsPiece ')' where
  not_wordChar := by decide
  ne_mark := by decide
  ne_close hclose := by
    rcases opening_cases hclose with ⟨-, rfl⟩ | ⟨-, rfl⟩ | ⟨-, rfl⟩ | ⟨-, rfl⟩ <;> decide

theorem StartsPiece.not_digit {d : Char} (h : StartsPiece d) : d.isDigit = false :=
  isDigit_of_not_isWordChar h.not_wordChar

/-- In front of a character that starts a piece a last piece stays as it is, unless it is a comment,
which may take in more, or a quotation that is still open. -/
theorem FirstPiece.append_startsPiece {c d : Char} {cs : List Char} {p : Piece}
    (h : FirstPiece c cs p) (hwhole : p.text = c :: cs) (hclosed : p.isOpen = false)
    (hd : StartsPiece d) (t : List Char) :
    FirstPiece c (cs ++ d :: t) p ∨
      ∃ kind ∈ [Gap.lineComment, .blockComment], ∃ longer, p = .gap kind (c :: cs) ∧
        c :: cs <+: longer ∧ FirstPiece c (cs ++ d :: t) (.gap kind longer) := by
  have hmark := hd.ne_mark
  simp only [List.mem_cons, List.not_mem_nil, or_false, not_or] at hmark
  obtain ⟨hpoint, hminus, hstar⟩ := hmark
  have hall : ∀ {text : List Char}, c :: text = c :: cs → text = cs := fun h => (List.cons.inj h).2
  cases h with
  | blank h => exact .inl (.blank h)
  | @lineComment rest h hcs =>
    right
    refine ⟨.lineComment, by simp, c :: lineText (cs ++ d :: t), by rw [hall hwhole], ?_, ?_⟩
    · have hprefix := lineText_isPrefix_append cs (d :: t)
      rw [hall hwhole] at hprefix
      exact List.cons_prefix_cons.2 ⟨rfl, hprefix⟩
    · exact .lineComment h (by rw [hcs, List.cons_append])
  | @blockComment rest h hcs =>
    subst hcs
    have hrest : blockText rest = rest := (List.cons.inj (hall hwhole)).2
    right
    refine ⟨.blockComment, by simp, c :: '*' :: blockText (rest ++ d :: t), by rw [hrest], ?_, ?_⟩
    · have hprefix := blockText_isPrefix_append rest (d :: t)
      rw [hrest] at hprefix
      exact List.cons_prefix_cons.2 ⟨rfl, List.cons_prefix_cons.2 ⟨rfl, hprefix⟩⟩
    · exact .blockComment h rfl
  | symbol h => exact .inl (.symbol h)
  | @quotation close h =>
    have hcloses : closes close cs = true := by
      rw [Piece.isOpen, hwhole] at hclosed
      simpa only [h, Option.any_some, Bool.not_eq_false'] using hclosed
    obtain ⟨hquoted, hcontent⟩ := quotation_append_of_closes hcloses (hd.ne_close h) t
    left
    rw [← hquoted, ← hcontent]
    exact .quotation h
  | number h =>
    have hdigits : digitsText false (cs ++ d :: t) = digitsText false cs := by
      rw [digitsText_append_of_eq_self (hall hwhole) hd.not_digit hpoint, hall hwhole]
    left
    rw [numberPiece, ← hdigits]
    rcases h with hdigit | ⟨hc, e, rest, hcs, hdigit⟩
    · exact .number (.inl hdigit)
    · refine .number (.inr ⟨hc, e, rest ++ d :: t, ?_, hdigit⟩)
      rw [hcs, List.cons_append]
  | word h =>
    have hword : (cs ++ d :: t).takeWhile isWordChar = cs.takeWhile isWordChar := by
      rw [List.takeWhile_append, hall hwhole, if_pos rfl, List.takeWhile_cons_of_neg,
        List.append_nil]
      rw [hd.not_wordChar]
      exact Bool.false_ne_true
    left
    rw [← hword]
    exact .word h
  | stray hblank _ hslash hsymbol hquote hdigit hword =>
    obtain rfl : [] = cs := hall hwhole
    left
    refine .stray hblank (fun _ e es heq => ?_) (fun _ es heq => ?_) hsymbol hquote hdigit hword
    · obtain ⟨rfl, -⟩ := List.cons.inj heq
      exact ⟨hminus, hd.not_digit⟩
    · exact hstar (List.cons.inj heq).1

/-! ## Pieces in a longer text -/

theorem quotedText_isPrefix_append (close : Char) (cs t : List Char) :
    quotedText close cs <+: quotedText close (cs ++ t) := by
  fun_induction quotedText close cs with
  | case1 => exact List.nil_prefix
  | case2 c =>
    cases t with
    | nil => exact List.prefix_refl _
    | cons d ds =>
      rw [List.cons_append, List.nil_append, quotedText]
      split
      · split <;> exact ⟨_, rfl⟩
      · exact ⟨_, rfl⟩
  | case3 cs ih =>
    rw [List.cons_append, List.cons_append, quotedText, if_pos rfl, if_pos rfl]
    exact List.cons_prefix_cons.2 ⟨rfl, List.cons_prefix_cons.2 ⟨rfl, ih⟩⟩
  | case4 d cs hd =>
    have hsame : quotedText close (close :: d :: cs ++ t) = [close] := by
      rw [List.cons_append, List.cons_append, quotedText, if_pos rfl, if_neg hd]
    exact hsame ▸ List.prefix_refl _
  | case5 c d cs hc ih =>
    rw [List.cons_append, List.cons_append, quotedText, if_neg hc]
    exact List.cons_prefix_cons.2 ⟨rfl, ih⟩

theorem digitsText_isPrefix_append (pointSeen : Bool) (cs t : List Char) :
    digitsText pointSeen cs <+: digitsText pointSeen (cs ++ t) := by
  fun_induction digitsText pointSeen cs with
  | case1 => exact List.nil_prefix
  | case2 pointSeen c cs hdigit ih =>
    rw [List.cons_append, digitsText, if_pos hdigit]
    exact List.cons_prefix_cons.2 ⟨rfl, ih⟩
  | case3 pointSeen c cs hdigit hpoint ih =>
    rw [List.cons_append, digitsText, if_neg hdigit, if_pos hpoint]
    exact List.cons_prefix_cons.2 ⟨rfl, ih⟩
  | case4 => exact List.nil_prefix

theorem takeWhile_isPrefix_append (p : Char → Bool) (cs t : List Char) :
    cs.takeWhile p <+: (cs ++ t).takeWhile p := by
  rw [List.takeWhile_append]
  split
  next hall => exact (List.takeWhile_prefix p).trans (List.prefix_append cs _)
  next => exact List.prefix_refl _

/-- In a longer text a piece holds what it held, and maybe more. -/
theorem firstPiece_isPrefix_append (c : Char) (cs t : List Char) :
    (firstPiece c cs).text <+: (firstPiece c (cs ++ t)).text := by
  have hcons {s s' : List Char} (h : s <+: s') : c :: s <+: c :: s' :=
    List.cons_prefix_cons.2 ⟨rfl, h⟩
  have hone (cs : List Char) : [c] <+: (firstPiece c cs).text := by
    obtain ⟨d, ds, htext⟩ := List.exists_cons_of_ne_nil (firstPiece_text_ne_nil c cs)
    have hprefix := firstPiece_isPrefix c cs
    rw [htext] at hprefix ⊢
    obtain ⟨rfl, -⟩ := List.cons_prefix_cons.1 hprefix
    exact ⟨ds, rfl⟩
  have hkind := firstPiece_kind c cs
  generalize firstPiece c cs = p at hkind
  cases hkind with
  | blank | symbol | stray => exact hone (cs ++ t)
  | @lineComment rest h hcs =>
    have hdash : cs ++ t = '-' :: (rest ++ t) := by rw [hcs, List.cons_append]
    rw [firstPiece_eq_iff.2 (.lineComment h hdash)]
    exact hcons (lineText_isPrefix_append cs t)
  | @blockComment rest h hcs =>
    rw [firstPiece_eq_iff.2 (.blockComment h (by rw [hcs, List.cons_append]))]
    exact hcons (List.cons_prefix_cons.2 ⟨rfl, blockText_isPrefix_append rest t⟩)
  | quotation h =>
    rw [firstPiece_eq_iff.2 (.quotation h)]
    exact hcons (quotedText_isPrefix_append _ cs t)
  | number h =>
    have hnumber : FirstPiece c (cs ++ t) (numberPiece c (cs ++ t)) := by
      rcases h with hdigit | ⟨hc, d, rest, hcs, hdigit⟩
      · exact .number (.inl hdigit)
      · exact .number (.inr ⟨hc, d, rest ++ t, by rw [hcs, List.cons_append], hdigit⟩)
    rw [firstPiece_eq_iff.2 hnumber]
    exact hcons (digitsText_isPrefix_append false cs t)
  | word h =>
    rw [firstPiece_eq_iff.2 (.word h)]
    exact hcons (takeWhile_isPrefix_append isWordChar cs t)

/-- Pieces that end in front of some character end there whatever comes after it. -/
theorem pieces_append_of_append {before after : List Piece} {c : Char} {rest : List Char}
    (h : pieces (before.flatMap Piece.text ++ c :: rest) = before ++ after) (rest' : List Char) :
    pieces (before.flatMap Piece.text ++ c :: rest') = before ++ pieces (c :: rest') := by
  induction before with
  | nil => rfl
  | cons p before ih =>
    have hp : p ∈ pieces ((p :: before).flatMap Piece.text ++ c :: rest) :=
      h ▸ List.mem_append_left after (List.mem_cons_self ..)
    obtain ⟨e, es, hkind⟩ := exists_firstPiece_of_mem hp
    obtain ⟨d, ds, htext⟩ := List.exists_cons_of_ne_nil (hkind ▸ firstPiece_text_ne_nil e es)
    -- The first piece ends in front of `c` at the latest.
    have hlong (rest : List Char) : (p :: before).flatMap Piece.text ++ c :: rest =
        d :: (ds ++ before.flatMap Piece.text ++ [c] ++ rest) := by
      simp [htext]
    have hdrop (rest : List Char) :
        (ds ++ before.flatMap Piece.text ++ [c] ++ rest).drop (p.text.length - 1) =
          before.flatMap Piece.text ++ c :: rest := by
      simp [htext]
    rw [hlong, pieces_cons, List.cons_append] at h
    obtain ⟨hfirst, hlater⟩ := List.cons.inj h
    rw [hfirst, hdrop] at hlater
    have hle : (firstPiece d (ds ++ before.flatMap Piece.text ++ [c])).text.length ≤
        (ds ++ before.flatMap Piece.text ++ [c]).length := by
      have hprefix := firstPiece_isPrefix_append d (ds ++ before.flatMap Piece.text ++ [c]) rest
      rw [hfirst, htext] at hprefix
      have hlength := hprefix.length_le
      simp only [List.length_append, List.length_cons, List.length_nil] at hlength ⊢
      omega
    have hsame : firstPiece d (ds ++ before.flatMap Piece.text ++ [c] ++ rest') = p := by
      rw [firstPiece_append hle, ← firstPiece_append hle rest, hfirst]
    rw [hlong, pieces_cons, hsame, hdrop, ih hlater]
    rfl

/-- What follows pieces is read as it is by itself. -/
theorem pieces_of_append {before after : List Piece} {c : Char} {rest : List Char}
    (h : pieces (before.flatMap Piece.text ++ c :: rest) = before ++ after) :
    pieces (c :: rest) = after := by
  have hsame := pieces_append_of_append h rest
  rw [h] at hsame
  exact (List.append_cancel_left hsame).symm

/-! ## White space round a text -/

theorem pieces_append_of_blank {ws : List Char} (hws : ∀ c ∈ ws, isBlank c = true)
    (rest : List Char) :
    pieces (ws ++ rest) = ws.map (fun c => .gap .blank [c]) ++ pieces rest := by
  induction ws with
  | nil => rfl
  | cons c cs ih =>
    rw [List.cons_append, pieces_of_isBlank _ (hws c (List.mem_cons_self ..)),
      ih fun d hd => hws d (List.mem_cons_of_mem _ hd)]
    rfl

theorem filterMap_blank (ws : List Char) :
    (ws.map fun c => Piece.gap .blank [c]).filterMap Piece.token? = [] := by
  rw [List.filterMap_map]
  exact List.filterMap_eq_nil_iff.2 fun _ _ => rfl

theorem filterMap_pieces_of_blank {ws : List Char} (hws : ∀ c ∈ ws, isBlank c = true) :
    (pieces ws).filterMap Piece.token? = [] := by
  have hpieces := pieces_append_of_blank hws []
  rw [List.append_nil, pieces_nil, List.append_nil] at hpieces
  rw [hpieces, filterMap_blank]

theorem tokens_blank_append {ws : List Char} (hws : ∀ c ∈ ws, isBlank c = true)
    (text : List Char) : tokens (String.ofList (ws ++ text)) = tokens (String.ofList text) := by
  rw [tokens_eq, tokens_eq, String.toList_ofList, String.toList_ofList, pieces_append_of_blank hws,
    List.filterMap_append, filterMap_blank, List.nil_append]

theorem endsOpen_of_blank_append {ws text : List Char} (hws : ∀ c ∈ ws, isBlank c = true)
    (h : endsOpen text = true) : endsOpen (ws ++ text) = true := by
  obtain ⟨p, hp, hopen⟩ := (Option.any_eq_true ..).1 h
  rw [endsOpen, pieces_append_of_blank hws, List.getLast?_append, hp, Option.some_or]
  exact hopen

theorem filterMap_pieces_append_blank {c : Char} {cs ws : List Char}
    (hwhole : (firstPiece c cs).text = c :: cs) (hclosed : (firstPiece c cs).isOpen = false)
    (hws : ∀ c ∈ ws, isBlank c = true) :
    (pieces (c :: cs ++ ws)).filterMap Piece.token? =
      [firstPiece c cs].filterMap Piece.token? := by
  cases ws with
  | nil =>
    rw [List.append_nil, pieces_cons, hwhole, List.length_cons, Nat.add_sub_cancel,
      List.drop_length]
    rfl
  | cons d ds =>
    rw [List.cons_append, pieces_cons]
    have hd := startsPiece_of_isBlank (hws d (List.mem_cons_self ..))
    rcases (firstPiece_kind c cs).append_startsPiece hwhole hclosed hd ds with
      hsame | ⟨kind, -, longer, hgap, hprefix, hlonger⟩
    · rw [firstPiece_eq_iff.2 hsame, hwhole, List.length_cons, Nat.add_sub_cancel, List.drop_left,
        List.filterMap_cons, filterMap_pieces_of_blank hws]
      rfl
    · -- What the comment leaves over is white space.
      have hleft : ∀ e ∈ (cs ++ d :: ds).drop (longer.length - 1), isBlank e = true := by
        have hlength := hprefix.length_le
        rw [List.length_cons] at hlength
        rw [List.drop_append, List.drop_eq_nil_of_le (by omega), List.nil_append]
        exact fun e he => hws e (List.mem_of_mem_drop he)
      rw [firstPiece_eq_iff.2 hlonger, hgap, List.filterMap_cons_none rfl,
        List.filterMap_cons_none rfl]
      exact filterMap_pieces_of_blank hleft

theorem tokens_append_blank {text ws : List Char} (hclosed : endsOpen text = false)
    (hws : ∀ c ∈ ws, isBlank c = true) :
    tokens (String.ofList (text ++ ws)) = tokens (String.ofList text) := by
  rw [tokens_eq, tokens_eq, String.toList_ofList, String.toList_ofList]
  cases text with
  | nil => rw [List.nil_append, filterMap_pieces_of_blank hws, pieces_nil, List.filterMap_nil]
  | cons c cs =>
    obtain ⟨front, last, later, hpieces, hwhole, happend⟩ := exists_pieces_append c cs
    have hlast : (firstPiece last later).isOpen = false := by
      rw [endsOpen, hpieces, List.getLast?_concat] at hclosed
      exact hclosed
    rw [happend, hpieces, List.filterMap_append, List.filterMap_append,
      filterMap_pieces_append_blank hwhole hlast hws]

/-- A quotation that is not closed takes in all the text. -/
theorem pieces_of_not_closes {opening close : Char} {later : List Char}
    (hclose : closingQuote? opening = some close) (h : closes close later = false) :
    pieces (opening :: later) =
      [.token (quotationToken opening (unquoted close later)) (opening :: later)] := by
  have hfirst : FirstPiece opening later (.token (quotationToken opening (unquoted close later))
      (opening :: quotedText close later)) := .quotation hclose
  rw [quotedText_of_not_closes h] at hfirst
  have hnothing : later.drop ((opening :: later).length - 1) = [] :=
    List.drop_eq_nil_of_le (Nat.le_refl _)
  rw [pieces_cons, firstPiece_eq_iff.2 hfirst, Piece.text, hnothing, pieces_nil]

/-- What is added to a text that ends inside a quotation is read on from the opening quote. -/
theorem exists_pieces_append_of_endsOpen {text : List Char} (h : endsOpen text = true) :
    ∃ front opening close later, closingQuote? opening = some close ∧
      closes close later = false ∧
      ∀ t, pieces (text ++ t) = front ++ pieces (opening :: later ++ t) := by
  cases text with
  | nil => exact Bool.noConfusion h
  | cons c cs =>
    obtain ⟨front, opening, later, hpieces, hwhole, happend⟩ := exists_pieces_append c cs
    rw [endsOpen, hpieces, List.getLast?_concat, Option.any_some, Piece.isOpen, hwhole] at h
    obtain ⟨close, hclose, hlater⟩ := (Option.any_eq_true ..).1 h
    exact ⟨front, opening, close, later, hclose, by simpa using hlater, happend⟩

/-- White space after an open quotation goes into it. -/
theorem exists_pieces_append_blank {text : List Char} (h : endsOpen text = true) :
    ∃ front opening close later, closingQuote? opening = some close ∧
      ∀ ws, (∀ c ∈ ws, isBlank c = true) → closes close (later ++ ws) = false ∧
        pieces (text ++ ws) = front ++
          [.token (quotationToken opening (unquoted close (later ++ ws)))
            (opening :: (later ++ ws))] := by
  obtain ⟨front, opening, close, later, hclose, hlater, happend⟩ :=
    exists_pieces_append_of_endsOpen h
  refine ⟨front, opening, close, later, hclose, fun ws hws => ?_⟩
  -- White space holds no closing quote, so the quotation takes it in and stays open.
  have hopen : closes close (later ++ ws) = false :=
    closes_append hlater fun hmem => ne_close_of_isBlank (hws close hmem) hclose rfl
  refine ⟨hopen, ?_⟩
  rw [happend, List.cons_append, pieces_of_not_closes hclose hopen]

theorem endsOpen_append_blank {text ws : List Char} (h : endsOpen text = true)
    (hws : ∀ c ∈ ws, isBlank c = true) : endsOpen (text ++ ws) = true := by
  obtain ⟨front, opening, close, later, hclose, hpieces⟩ := exists_pieces_append_blank h
  obtain ⟨hopen, hpieces⟩ := hpieces ws hws
  rw [endsOpen, hpieces, List.getLast?_concat]
  simp only [Option.any_some, Piece.isOpen, Piece.text, hclose, hopen, Bool.not_false]

/-- White space round a text changes none of its tokens, unless the text ends inside a quotation. -/
theorem tokens_trim {text : List Char} (hclosed : endsOpen text = false) :
    tokens (String.ofList (trim text)) = tokens (String.ofList text) := by
  obtain ⟨front, back, hsplit, hfront, hback⟩ := exists_trim text
  -- Trimming cannot open a quotation: an open one would have taken in what was trimmed.
  have htrimmed : endsOpen (trim text) = false := by
    rw [Bool.eq_false_iff]
    intro hopen
    have hopen := endsOpen_of_blank_append hfront (endsOpen_append_blank hopen hback)
    rw [← hsplit, hclosed] at hopen
    exact Bool.noConfusion hopen
  rw [← tokens_append_blank htrimmed hback, ← tokens_blank_append hfront, ← hsplit]

theorem quotationToken_ne_symbol (opening : Char) (content : List Char) (mark : Symbol) :
    quotationToken opening content ≠ .symbol mark := by
  unfold quotationToken
  split <;> exact Token.noConfusion

theorem exists_of_append_eq {α : Type} {as bs front rest : List α} {x : α}
    (h : as ++ bs = front ++ x :: rest) (hx : x ∉ bs) : ∃ mid, as = front ++ x :: mid := by
  rcases List.append_eq_append_iff.1 h with ⟨mid, rfl, hbs⟩ | ⟨mid, rfl, hrest⟩
  · rw [hbs] at hx
    exact absurd (List.mem_append_right mid (List.mem_cons_self ..)) hx
  · rcases List.cons_eq_append_iff.1 hrest with ⟨rfl, hbs⟩ | ⟨more, rfl, _⟩
    · rw [hbs] at hx
      exact absurd (List.mem_cons_self ..) hx
    · exact ⟨more, rfl⟩

/-- White space at the end leaves all tokens up to any symbol, even where a quotation is still
open. -/
theorem exists_tokens_append_blank {text ws : List Char} (hws : ∀ c ∈ ws, isBlank c = true)
    {front rest : List Token} {mark : Symbol}
    (h : tokens (String.ofList (text ++ ws)) = front ++ .symbol mark :: rest) :
    ∃ rest', tokens (String.ofList text) = front ++ .symbol mark :: rest' := by
  by_cases hopen : endsOpen text = true
  · obtain ⟨before, opening, close, later, -, hpieces⟩ := exists_pieces_append_blank hopen
    have hlonger := (hpieces ws hws).2
    have hshorter := (hpieces [] nofun).2
    rw [List.append_nil, List.append_nil] at hshorter
    rw [tokens_eq, String.toList_ofList, hlonger, List.filterMap_append, List.append_assoc] at h
    rw [tokens_eq, String.toList_ofList, hshorter, List.filterMap_append, List.append_assoc]
    -- Neither the open quotation nor the end of the draft is a symbol.
    obtain ⟨mid, hbefore⟩ := exists_of_append_eq h (by
      simp [Piece.token?, (quotationToken_ne_symbol _ _ mark).symm])
    rw [hbefore, List.append_assoc, List.cons_append]
    exact ⟨_, rfl⟩
  · rw [tokens_append_blank (Bool.eq_false_iff.2 hopen) hws] at h
    exact ⟨rest, h⟩

theorem exists_tokens_trim {text : List Char} {front rest : List Token} {mark : Symbol}
    (h : tokens (String.ofList text) = front ++ .symbol mark :: rest) :
    ∃ rest', tokens (String.ofList (trim text)) = front ++ .symbol mark :: rest' := by
  obtain ⟨before, back, hsplit, hbefore, hback⟩ := exists_trim text
  rw [hsplit, tokens_blank_append hbefore] at h
  exact exists_tokens_append_blank hback h

end SqlDraft
