import SqlDraft.Proofs.Writing

/-!
# Tokens in print

Tokens are printed with one space between them: keywords in capitals, names and literals between
quotes, numbers and marks as they are.  `tokens_printed` says that such a text is read back as the
tokens that it was printed from.
-/

namespace SqlDraft

namespace Token

def print : Token → List Char
  | keyword k => k.spelling.toList
  | ident name => quoted '"' '"' name.toList
  | str content => quoted '\'' '\'' content.toList
  | num digits => digits.toList
  | symbol mark => [mark.char]
  | eof => []

/-- Whether a token can be printed.  The end of a draft cannot, nor can a number that is none. -/
def IsPrintable : Token → Prop
  | num digits => IsNumber digits.toList
  | eof => False
  | _ => True

end Token

def printed (ts : List Token) : List Char :=
  [' '].intercalate (ts.map Token.print)

/-! ## Tokens in front of a space -/

theorem isWord_spelling (k : Keyword) : isWord k.spelling.toList = true := by
  cases k <;> decide

theorem ofWord_spelling (k : Keyword) : Token.ofWord k.spelling.toList = .keyword k := by
  cases k <;> decide

/-- Every token in print ends in front of a space, and where the text does. -/
theorem Written.print {gap rest : List Char} {t : Token} {ls : List Lexeme} (ht : t.IsPrintable)
    (hgap : GapText gap) (hrest : ∀ c ∈ rest.head?, c = ' ') (h : Written ls rest) :
    Written (⟨gap, t.print, t⟩ :: ls) (gap ++ (t.print ++ rest)) := by
  have hquote {close : Char} (hclose : close ≠ ' ') : rest.head? ≠ some close :=
    fun hhead => hclose (hrest close hhead)
  cases t with
  | keyword k =>
    have hword := h.word hgap (isWord_spelling k) fun c hc => hrest c hc ▸ by decide
    rwa [Lexeme.ofWord, ofWord_spelling] at hword
  | ident name =>
    have hquotation : Written (.ofQuotation gap '"' '"' name.toList :: ls) _ :=
      h.quotation hgap rfl (hquote (by decide))
    rwa [Lexeme.ofQuotation, quotationToken, if_neg (by decide), String.ofList_toList] at hquotation
  | str content =>
    have hquotation : Written (.ofQuotation gap '\'' '\'' content.toList :: ls) _ :=
      h.quotation hgap rfl (hquote (by decide))
    rwa [Lexeme.ofQuotation, quotationToken, if_pos rfl, String.ofList_toList] at hquotation
  | num digits =>
    have hnumber := h.number hgap ht fun c hc => hrest c hc ▸ by decide
    rwa [Lexeme.ofNumber, String.ofList_toList] at hnumber
  | symbol mark => exact h.mark hgap
  | eof => exact ht.elim

theorem exists_written_printed {t : Token} {ts : List Token}
    (h : ∀ u ∈ t :: ts, u.IsPrintable) {gap : List Char} (hgap : GapText gap) :
    ∃ ls, Written ls (gap ++ printed (t :: ts)) ∧ ls.map Lexeme.token = t :: ts ++ [.eof] := by
  induction ts generalizing t gap with
  | nil =>
    have hend : ∀ c ∈ ([] : List Char).head?, c = ' ' :=
      fun c hc => absurd hc (Option.not_mem_none c)
    have hwritten := (Written.eof .nil).print (h t (List.mem_singleton_self t)) hgap hend
    rw [List.append_nil] at hwritten
    refine ⟨[⟨gap, t.print, t⟩, ⟨[], [], .eof⟩], ?_, rfl⟩
    rw [printed, List.map_singleton, List.intercalate_singleton]
    exact hwritten
  | cons u ts ih =>
    obtain ⟨ht, hlater⟩ := List.forall_mem_cons.1 h
    have hspace : GapText [' '] := .blank (by decide) .nil
    obtain ⟨ls, hls, htokens⟩ := ih hlater hspace
    have hwritten := hls.print ht hgap fun c hc => by simpa using hc.symm
    refine ⟨⟨gap, t.print, t⟩ :: ls, ?_, congrArg (t :: ·) htokens⟩
    rw [printed, List.map_cons, List.map_cons, List.intercalate_cons_cons, List.append_assoc]
    exact hwritten

/-- Tokens in print are read back as they are, whatever their names and literals hold. -/
theorem tokens_printed (ts : List Token) (h : ∀ t ∈ ts, t.IsPrintable) :
    tokens (String.ofList (printed ts)) = ts ++ [.eof] := by
  cases ts with
  | nil => rfl
  | cons t ts =>
    obtain ⟨ls, hwritten, htokens⟩ := exists_written_printed h .nil
    have hread := textLexemes_of_written hwritten
    rw [textLexemes, List.nil_append] at hread
    rw [tokens, lexemes, String.toList_ofList, hread, htokens]

/-- Names and literals that hold quotes, and marks next to numbers that they could run into. -/
theorem tokens_printed_quotes :
    let ts : List Token := [.keyword .INSERT, .ident "a\"b -- ", .symbol .dot, .num "1.",
      .symbol .dot, .num "-2.50", .str "it's /* ", .keyword .VALUES]
    String.ofList (printed ts) =
        "INSERT \"a\"\"b -- \" . 1. . -2.50 'it''s /* ' VALUES" ∧
      (∀ t ∈ ts, t.IsPrintable) ∧ tokens (String.ofList (printed ts)) = ts ++ [.eof] := by
  intro ts
  have hdigit {c : Char} (hc : c.isDigit = true) : ∀ d ∈ [c], d.isDigit = true :=
    List.forall_mem_singleton.2 hc
  have hwhole : IsNumber "1.".toList := ⟨[], ['1'], ['.'], by decide, by decide, hdigit rfl,
    .inr ⟨[], nofun, rfl⟩, rfl⟩
  have hsigned : IsNumber "-2.50".toList := ⟨['-'], ['2'], ['.', '5', '0'], by decide, by decide,
    hdigit rfl, .inr ⟨['5', '0'], List.forall_mem_cons.2 ⟨rfl, hdigit rfl⟩, rfl⟩, rfl⟩
  have hprintable : ∀ t ∈ ts, t.IsPrintable := by
    simp only [ts, List.forall_mem_cons]
    exact ⟨trivial, trivial, trivial, hwhole, trivial, hsigned, trivial, trivial, nofun⟩
  exact ⟨by decide +kernel, hprintable, tokens_printed ts hprintable⟩

end SqlDraft
