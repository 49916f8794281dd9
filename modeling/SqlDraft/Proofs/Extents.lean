import Mathlib.Data.List.TakeWhile
import SqlDraft.Proofs.Spans
import SqlDraft.Proofs.Writing

/-!
# How far lexemes reach

A lexeme is what its own text says, wherever it stands, and it ends where the next character shows
that it does not go on.  `reads_alone` says that the text of a lexeme is read as that lexeme and
nothing else, and what the lexeme holds of it.  `lexeme_stays` says that a lexeme which ends before
the draft does is read the same way when more is typed.
-/

namespace SqlDraft

/-! ## What tokens hold of their text -/

/-- Whether a token is spelled by a text: as a word, a number or a mark, or between quotes, of which
the closing one may be missing. -/
inductive Spells : List Char → Token → Prop
  | word {text : List Char} (h : isWord text = true) : Spells text (.ofWord text)
  | number {text : List Char} : Spells text (.num (String.ofList text))
  | symbol (mark : Symbol) : Spells [mark.char] (.symbol mark)
  | closed {opening close : Char} (h : closingQuote? opening = some close) (content : List Char) :
      Spells (quoted opening close content) (quotationToken opening content)
  | unclosed {opening close : Char} (h : closingQuote? opening = some close)
      (content : List Char) :
      Spells (opening :: doubled close content) (quotationToken opening content)

theorem unquoted_doubled (close : Char) (content : List Char) :
    unquoted close (doubled close content) = content := by
  induction content with
  | nil => rfl
  | cons c cs ih =>
    rw [doubled_cons]
    by_cases hc : c = close
    · subst hc
      simp only [↓reduceIte, List.cons_append, List.nil_append, unquoted, ih]
    · simp only [if_neg hc, List.cons_append, List.nil_append, unquoted_cons_of_ne hc, ih]

theorem quotedText_doubled (close : Char) (content : List Char) :
    quotedText close (doubled close content) = doubled close content := by
  have htext := quotedText_doubled_append close content []
  rwa [quotedText, List.append_nil] at htext

/-- In a quotation every closing quote is doubled but the one that ends it, if one does. -/
theorem quotation_cases (close : Char) (cs : List Char) :
    ∃ tail, (tail = [] ∨ tail = [close]) ∧
      quotedText close cs = doubled close (unquoted close cs) ++ tail := by
  fun_induction quotedText close cs with
  | case1 => exact ⟨[], .inl rfl, rfl⟩
  | case2 c =>
    by_cases hc : c = close
    · subst hc
      refine ⟨[c], .inr rfl, ?_⟩
      rw [unquoted, if_pos rfl]
      rfl
    · refine ⟨[], .inl rfl, ?_⟩
      rw [unquoted, if_neg hc, doubled_cons, if_neg hc]
      rfl
  | case3 cs ih =>
    obtain ⟨tail, htail, ih⟩ := ih
    refine ⟨tail, htail, ?_⟩
    rw [unquoted, if_pos rfl, if_pos rfl, doubled_cons, if_pos rfl, ih]
    rfl
  | case4 d cs hd =>
    refine ⟨[close], .inr rfl, ?_⟩
    rw [unquoted, if_pos rfl, if_neg hd]
    rfl
  | case5 c d cs hc ih =>
    obtain ⟨tail, htail, ih⟩ := ih
    refine ⟨tail, htail, ?_⟩
    rw [unquoted, if_neg hc, doubled_cons, if_neg hc, ih]
    rfl

theorem FirstPiece.spells {c : Char} {cs text : List Char} {t : Token}
    (h : FirstPiece c cs (.token t text)) : Spells text t := by
  cases h with
  | symbol h =>
    rw [Symbol.char_of_ofChar? h]
    exact .symbol _
  | @quotation close h =>
    obtain ⟨tail, rfl | rfl, htext⟩ := quotation_cases close cs
    all_goals rw [htext]
    · rw [List.append_nil]
      exact .unclosed h _
    · exact .closed h _
  | number => exact .number
  | word h =>
    refine .word ?_
    rw [isWord, h, Bool.true_and]
    exact List.all_takeWhile

/-! ## Lexemes by themselves -/

theorem digitsText_digitsText (pointSeen : Bool) (cs : List Char) :
    digitsText pointSeen (digitsText pointSeen cs) = digitsText pointSeen cs := by
  fun_induction digitsText pointSeen cs with
  | case1 => rfl
  | case2 pointSeen c cs hdigit ih => rw [digitsText, if_pos hdigit, ih]
  | case3 pointSeen c cs hdigit hpoint ih => rw [digitsText, if_neg hdigit, if_pos hpoint, ih]
  | case4 => rfl

theorem quotation_quotedText (close : Char) (cs : List Char) :
    quotedText close (quotedText close cs) = quotedText close cs ∧
      unquoted close (quotedText close cs) = unquoted close cs := by
  obtain ⟨tail, rfl | rfl, htext⟩ := quotation_cases close cs
  all_goals rw [htext]
  · rw [List.append_nil]
    exact ⟨quotedText_doubled close _, unquoted_doubled close _⟩
  · exact quotation_doubled_append (by simp) _

/-- A token is the first piece of its own text. -/
theorem FirstPiece.alone {c : Char} {cs text : List Char} {t : Token}
    (h : FirstPiece c cs (.token t text)) :
    ∃ later, text = c :: later ∧ FirstPiece c later (.token t text) := by
  cases h with
  | symbol h => exact ⟨[], rfl, .symbol h⟩
  | @quotation close h =>
    obtain ⟨htext, hcontent⟩ := quotation_quotedText close cs
    have hself : FirstPiece c (quotedText close cs) _ := .quotation h
    rw [htext, hcontent] at hself
    exact ⟨_, rfl, hself⟩
  | number h =>
    have hself : numberPiece c (digitsText false cs) = numberPiece c cs := by
      rw [numberPiece, digitsText_digitsText, numberPiece]
    refine ⟨_, rfl, ?_⟩
    have hnumber : FirstPiece c (digitsText false cs) (numberPiece c (digitsText false cs)) := by
      rcases h with hdigit | ⟨hc, d, rest, rfl, hdigit⟩
      · exact .number (.inl hdigit)
      · refine .number (.inr ⟨hc, d, digitsText false rest, ?_, hdigit⟩)
        rw [digitsText, if_pos hdigit]
    rwa [hself] at hnumber
  | word h =>
    have hself : FirstPiece c (cs.takeWhile isWordChar) _ := .word h
    rw [List.takeWhile_idem] at hself
    exact ⟨_, rfl, hself⟩

theorem firstPiece_of_mem_lexemes {draft : String} {l : Lexeme} (hl : l ∈ lexemes draft)
    (hend : l.token ≠ .eof) : ∃ c cs, FirstPiece c cs (.token l.token l.text) := by
  rcases Lexeme.mem_ofPieces hl with ⟨heof, _⟩ | hmem
  · exact absurd heof hend
  · obtain ⟨c, cs, hfirst⟩ := exists_firstPiece_of_mem hmem
    exact ⟨c, cs, hfirst ▸ firstPiece_kind c cs⟩

theorem slice?_self {ls : List Lexeme} {i : Nat} {l : Lexeme} {p : Span} (hl : ls[i]? = some l)
    (hp : (spans ls)[i]? = some p) : p.slice? (Lexeme.fullText ls) = some l.text := by
  obtain ⟨hi, rfl⟩ := List.getElem?_eq_some_iff.1 hl
  have hone : (ls.drop i).take (i + 1 - i) = [ls[i]] := by
    rw [Nat.add_sub_cancel_left, List.drop_eq_getElem_cons hi, List.take_succ_cons, List.take_zero]
  have hslice := slice?_spans (Nat.le_refl i) hp hp
  rw [hone, Lexeme.source, List.flatMap_nil, List.append_nil] at hslice
  exact hslice

/-- The text in the place of a lexeme is read as that lexeme and nothing else, and the lexeme holds
what the text spells. -/
theorem reads_alone {draft : String} {i : Nat} {l : Lexeme} {p : Span}
    (hl : (lexemes draft)[i]? = some l) (hp : (spans (lexemes draft))[i]? = some p)
    (hend : l.token ≠ .eof) :
    ∃ text, p.slice? draft.toList = some text ∧
      lexemes (String.ofList text) = [⟨[], text, l.token⟩, ⟨[], [], .eof⟩] ∧
      spans (lexemes (String.ofList text)) =
        [⟨0, byteSize text⟩, ⟨byteSize text, byteSize text⟩] ∧
      Spells text l.token := by
  obtain ⟨c, cs, hfirst⟩ := firstPiece_of_mem_lexemes (List.mem_of_getElem? hl) hend
  have hslice := slice?_self hl hp
  rw [fullText_lexemes] at hslice
  have hread : lexemes (String.ofList l.text) = [⟨[], l.text, l.token⟩, ⟨[], [], .eof⟩] := by
    obtain ⟨later, htext, halone⟩ := hfirst.alone
    have hwhole : c :: later = (Piece.token l.token l.text).text ++ [] := by
      rw [List.append_nil, Piece.text, htext]
    rw [lexemes, String.toList_ofList, htext, pieces_of_firstPiece halone hwhole, ← htext]
    rfl
  refine ⟨l.text, hslice, hread, ?_, hfirst.spells⟩
  rw [hread]
  simp [spans, spansFrom]

/-- A quotation that is open at the end of a draft is open by itself too. -/
theorem reads_alone_unclosed :
    let l : Lexeme := ⟨[], "'O''Brien".toList, .str "O'Brien"⟩
    (lexemes "VALUES ('O''Brien")[2]? = some l ∧
      (spans (lexemes "VALUES ('O''Brien"))[2]? = some ⟨8, 17⟩ ∧ l.token ≠ .eof ∧
      ∃ text, Span.slice? ⟨8, 17⟩ "VALUES ('O''Brien".toList = some text ∧
        lexemes (String.ofList text) = [⟨[], text, .str "O'Brien"⟩, ⟨[], [], .eof⟩] ∧
        spans (lexemes (String.ofList text)) =
          [⟨0, byteSize text⟩, ⟨byteSize text, byteSize text⟩] ∧
        Spells text (.str "O'Brien") := by
  intro l
  have hl : (lexemes "VALUES ('O''Brien")[2]? = some l := by decide +kernel
  have hp : (spans (lexemes "VALUES ('O''Brien"))[2]? = some ⟨8, 17⟩ := by decide +kernel
  have hend : l.token ≠ .eof := Token.noConfusion
  exact ⟨hl, hp, hend, reads_alone hl hp hend⟩

/-! ## Lexemes of a longer draft -/

theorem exists_lexemes_append_of_ne_nil {s : String} {front back : List Lexeme} {l : Lexeme}
    (h : lexemes s = front ++ l :: back) (hend : l.token ≠ .eof)
    (hback : Lexeme.fullText back ≠ []) (t : String) :
    ∃ back', lexemes (s ++ t) = front ++ l :: back' := by
  obtain ⟨before, after, hpieces, rfl, htext, hread⟩ := exists_append_of_ofPieces h hend
  obtain ⟨c, rest, hafter⟩ := List.exists_cons_of_ne_nil hback
  rw [Lexeme.fullText_ofPieces] at hafter
  rw [← List.singleton_append (l := after), ← List.append_assoc] at hpieces
  have hs : s.toList =
      (before ++ [Piece.token l.token l.text]).flatMap Piece.text ++ c :: rest := by
    rw [← pieces_text s.toList, hpieces, List.flatMap_append, hafter]
  rw [hs] at hpieces
  have hlong := pieces_append_of_append hpieces (rest ++ t.toList)
  refine ⟨Lexeme.ofPieces (pieces (c :: (rest ++ t.toList))), ?_⟩
  rw [lexemes, String.toList_append, hs, List.append_assoc, List.cons_append, hlong,
    List.append_assoc, List.singleton_append, hread, Lexeme.ofPieces, Lexeme.addLead,
    List.append_nil]

/-- What follows a lexeme is read as it is by itself. -/
theorem textLexemes_fullText {draft : String} {front back : List Lexeme} {l : Lexeme}
    (h : lexemes draft = front ++ l :: back) (hend : l.token ≠ .eof) :
    textLexemes (Lexeme.fullText back) = back := by
  obtain ⟨before, after, hpieces, rfl, -, -⟩ := exists_append_of_ofPieces h hend
  rw [List.append_cons] at hpieces
  rw [Lexeme.fullText_ofPieces, textLexemes, pieces_flatMap_of_append hpieces]

theorem FirstPiece.eq_of_opening {c close : Char} {cs : List Char} {p : Piece}
    (h : FirstPiece c cs p) (hclose : closingQuote? c = some close) :
    p = .token (quotationToken c (unquoted close cs)) (c :: quotedText close cs) := by
  rw [← firstPiece_eq_iff.2 h]
  exact firstPiece_eq_iff.2 (.quotation hclose)

theorem quotedText_ne_nil (close c : Char) (cs : List Char) : quotedText close (c :: cs) ≠ [] := by
  cases cs with
  | nil => exact List.cons_ne_nil _ _
  | cons d ds =>
    rw [quotedText]
    repeat' split
    all_goals exact List.cons_ne_nil _ _

/-- Nothing but the end follows a quotation that lacks its closing quote. -/
theorem eq_of_unclosed {draft : String} {front back : List Lexeme} {l : Lexeme}
    {opening close : Char} {content : List Char} (h : lexemes draft = front ++ l :: back)
    (hend : l.token ≠ .eof) (hclose : closingQuote? opening = some close)
    (htext : l.text = opening :: doubled close content) : back = [⟨[], [], .eof⟩] := by
  obtain ⟨before, after, hpieces, rfl, -, -⟩ := exists_append_of_ofPieces h hend
  have hfirst : pieces (opening :: (doubled close content ++ after.flatMap Piece.text)) =
      .token l.token (opening :: doubled close content) :: after := by
    have hlater := pieces_flatMap_of_append hpieces
    rwa [List.flatMap_cons, Piece.text, htext] at hlater
  rw [pieces_cons, firstPiece_eq_iff.2 (.quotation hclose), quotedText_doubled_append] at hfirst
  have hquoted : doubled close content ++ quotedText close (after.flatMap Piece.text) =
      doubled close content := (List.cons.inj (Piece.token.inj (List.cons.inj hfirst).1).2).2
  have hnone : quotedText close (after.flatMap Piece.text) = [] :=
    List.append_right_eq_self.1 hquoted
  cases hafter : after.flatMap Piece.text with
  | nil =>
    rw [List.append_cons] at hpieces
    rw [← pieces_flatMap_of_append hpieces, hafter]
    rfl
  | cons c cs =>
    rw [hafter] at hnone
    exact absurd hnone (quotedText_ne_nil _ _ _)

/-- What starts with a quote is a quotation, and its closing quote is missing at the end of the
draft only. -/
theorem exists_quotation {draft : String} {front back : List Lexeme} {l : Lexeme}
    {opening close : Char} {later : List Char} (h : lexemes draft = front ++ l :: back)
    (hend : l.token ≠ .eof) (hclose : closingQuote? opening = some close)
    (htext : l.text = opening :: later) :
    ∃ content, l.token = quotationToken opening content ∧
      (l.text = quoted opening close content ∨ back = [⟨[], [], .eof⟩]) := by
  have hmem : l ∈ lexemes draft := by
    rw [h]
    exact List.mem_append_right _ (List.mem_cons_self ..)
  obtain ⟨c, cs, hfirst⟩ := firstPiece_of_mem_lexemes hmem hend
  obtain ⟨_, hsame, -⟩ := hfirst.alone
  obtain rfl : opening = c := (List.cons.inj (htext.symm.trans hsame)).1
  obtain ⟨htoken, hquoted⟩ := Piece.token.inj (hfirst.eq_of_opening hclose)
  obtain ⟨tail, htail, hcontent⟩ := quotation_cases close cs
  refine ⟨_, htoken, ?_⟩
  rw [hcontent] at hquoted
  rcases htail with rfl | rfl
  · rw [List.append_nil] at hquoted
    exact .inr (eq_of_unclosed h hend hclose hquoted)
  · exact .inl hquoted

theorem stop_le {ls : List Lexeme} {i : Nat} {p : Span} (hp : (spans ls)[i]? = some p) :
    p.stop ≤ byteSize (Lexeme.fullText ls) := by
  obtain ⟨_, -, -, hstop⟩ := getElem?_spans hp
  conv => rhs; rw [← List.take_append_drop (i + 1) ls]
  rw [hstop, Lexeme.fullText_append, byteSize_append]
  exact Nat.le_add_right ..

/-- Only the last lexeme in front of the end can reach up to the end. -/
theorem stop_lt_or_last {s : String} {i : Nat} {l : Lexeme} {p : Span}
    (hl : (lexemes s)[i]? = some l) (hp : (spans (lexemes s))[i]? = some p)
    (hend : l.token ≠ .eof) :
    p.stop < byteSize s.toList ∨ (p.stop = byteSize s.toList ∧ i + 2 = (lexemes s).length) := by
  obtain ⟨front, trail, hlexemes, hfront⟩ := exists_lexemes_concat s
  have hi : i < front.length := by
    by_contra hi
    rw [hlexemes, List.getElem?_append_right (Nat.le_of_not_lt hi)] at hl
    have hmem := List.mem_of_getElem? hl
    rw [List.mem_singleton] at hmem
    exact hend (hmem ▸ rfl)
  have hle := stop_le hp
  rw [fullText_lexemes] at hle
  by_cases hlast : i + 1 = front.length
  · rcases Nat.lt_or_eq_of_le hle with hlt | heq
    · exact .inl hlt
    · refine .inr ⟨heq, ?_⟩
      rw [hlexemes, List.length_append, List.length_singleton, ← hlast]
  · -- The next lexeme is not the end either, so it takes up bytes of its own.
    left
    have hnext : i + 1 < front.length := by omega
    have hm : (lexemes s)[i + 1]? = some front[i + 1] := by
      rw [hlexemes, List.getElem?_append_left hnext, List.getElem?_eq_getElem hnext]
    have hq : i + 1 < (spans (lexemes s)).length := by
      rw [spans, spansFrom_length, hlexemes, List.length_append]
      omega
    have hq := List.getElem?_eq_getElem hq
    have htext := text_ne_nil_of_mem_lexemes (List.mem_of_getElem? hm)
      (hfront _ (List.getElem_mem hnext))
    have hstart := le_start_of_lt (Nat.lt_succ_self i) hp hq
    have hstop := start_lt_stop hm hq htext
    have hwhole := stop_le hq
    rw [fullText_lexemes] at hwhole
    omega

/-- A lexeme that ends before the draft does stays what and where it is, whatever is typed at the
end.  One lexeme at most does not, the last one. -/
theorem lexeme_stays {s : String} {i : Nat} {l : Lexeme} {p : Span}
    (hl : (lexemes s)[i]? = some l) (hp : (spans (lexemes s))[i]? = some p)
    (hend : l.token ≠ .eof) :
    (p.stop < byteSize s.toList → ∀ t, (lexemes (s ++ t))[i]? = some l ∧
      (spans (lexemes (s ++ t)))[i]? = some p) ∧
    (p.stop < byteSize s.toList ∨
      (p.stop = byteSize s.toList ∧ i + 2 = (lexemes s).length)) := by
  refine ⟨fun hlt t => ?_, stop_lt_or_last hl hp hend⟩
  obtain ⟨m, hm, hstart, hstop⟩ := getElem?_spans hp
  obtain rfl : l = m := Option.some.inj (hl.symm.trans hm)
  obtain ⟨hi, rfl⟩ := List.getElem?_eq_some_iff.1 hl
  have htake : (lexemes s).take (i + 1) = (lexemes s).take i ++ [(lexemes s)[i]] := by
    rw [List.take_add_one, hl, Option.toList_some]
  have hsplit : lexemes s = (lexemes s).take i ++ (lexemes s)[i] :: (lexemes s).drop (i + 1) := by
    rw [← List.drop_eq_getElem_cons hi, List.take_append_drop]
  have hback : Lexeme.fullText ((lexemes s).drop (i + 1)) ≠ [] := by
    intro hnil
    have hwhole := congrArg byteSize (fullText_lexemes s)
    rw [← List.take_append_drop (i + 1) (lexemes s), Lexeme.fullText_append, hnil, List.append_nil,
      ← hstop] at hwhole
    omega
  obtain ⟨back, hlong⟩ := exists_lexemes_append_of_ne_nil hsplit hend hback t
  have hlength : ((lexemes s).take i).length = i := List.length_take_of_le (Nat.le_of_lt hi)
  have hat : (lexemes (s ++ t))[i]? = some (lexemes s)[i] := by
    rw [hlong, List.getElem?_append_right (Nat.le_of_eq hlength), hlength, Nat.sub_self]
    rfl
  refine ⟨hat, ?_⟩
  have hfront : (lexemes (s ++ t)).take i = (lexemes s).take i := by
    rw [hlong]
    exact List.take_left' hlength
  have hplace : p = ⟨p.start, p.stop⟩ := rfl
  rw [spans, getElem?_spansFrom, hat, Option.map_some, List.take_add_one, hat, Option.toList_some,
    hfront, ← htake, Nat.zero_add, Nat.zero_add, ← hstart, ← hstop]

/-- The name after the comma may still grow, the one in front of it may not. -/
theorem lexeme_stays_columns :
    let s := "SELECT a, b"
    let l : Lexeme := ⟨[' '], ['a'], .ident "a"⟩
    let last : Lexeme := ⟨[' '], ['b'], .ident "b"⟩
    ((lexemes s)[1]? = some l ∧ (spans (lexemes s))[1]? = some ⟨7, 8⟩ ∧ l.token ≠ .eof ∧
        8 < byteSize s.toList ∧ (lexemes (s ++ "cd"))[1]? = some l ∧
        (spans (lexemes (s ++ "cd")))[1]? = some ⟨7, 8⟩) ∧
      (lexemes s)[3]? = some last ∧ (spans (lexemes s))[3]? = some ⟨10, 11⟩ ∧
        last.token ≠ .eof ∧ (lexemes (s ++ "cd"))[3]? ≠ some last ∧ 3 + 2 = (lexemes s).length := by
  intro s l last
  have hl : (lexemes s)[1]? = some l := by decide +kernel
  have hp : (spans (lexemes s))[1]? = some ⟨7, 8⟩ := by decide +kernel
  have hend : l.token ≠ .eof := Token.noConfusion
  have hlt : 8 < byteSize s.toList := by decide
  have hlast : (lexemes s)[3]? = some last := by decide +kernel
  have hq : (spans (lexemes s))[3]? = some ⟨10, 11⟩ := by decide +kernel
  have hother : last.token ≠ .eof := Token.noConfusion
  have htouches : ¬ (⟨10, 11⟩ : Span).stop < byteSize s.toList := by decide
  exact ⟨⟨hl, hp, hend, hlt, (lexeme_stays hl hp hend).1 hlt "cd"⟩, hlast, hq, hother,
    by decide +kernel, ((lexeme_stays hlast hq hother).2.resolve_left htouches).2⟩

end SqlDraft
