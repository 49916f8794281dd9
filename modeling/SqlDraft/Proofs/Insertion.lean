import SqlDraft.Proofs.Bracket
import SqlDraft.Proofs.Nesting
import SqlDraft.Proofs.Quoting
import SqlDraft.Reading.Rows

/-!
# Insertions

A statement can be written for any rows and any table: the name between double quotes, every value
between apostrophes.  `reads_insertion` says that such a statement reads as what it was written for,
whatever the name and the values say.
-/

namespace SqlDraft

/-! ## How an insertion is written -/

def listText (items : List (List Char)) : List Char :=
  [',', ' '].intercalate items

def valueText (value : String) : List Char :=
  quoted '\'' '\'' value.toList

def rowText (row : List String) : List Char :=
  '(' :: (listText (row.map valueText) ++ [')'])

def insertion (table : String) (rows : List (List String)) : String :=
  "INSERT INTO " ++ String.ofList (quoted '"' '"' table.toList) ++ " VALUES " ++
    String.ofList (listText (rows.map rowText))

/-! ## Its tokens -/

theorem listText_cons_cons (item next : List Char) (items : List (List Char)) :
    listText (item :: next :: items) = item ++ ',' :: ' ' :: listText (next :: items) := by
  rw [listText, List.intercalate_cons_cons, List.append_assoc]
  rfl

/-- The tokens of items in a list are theirs alone, with commas between them. -/
theorem textTokens_listText_append {α : Type} {text : α → List Char} {ts : α → List Token}
    (hitem : ∀ item rest, rest.head? ≠ some '\'' →
      textTokens (text item ++ rest) = ts item ++ textTokens rest)
    (items : List α) {rest : List Char} (hrest : rest.head? ≠ some '\'') :
    textTokens (listText (items.map text) ++ rest) =
      [.symbol .comma].intercalate (items.map ts) ++ textTokens rest := by
  match items with
  | [] => rfl
  | [item] => simpa [listText] using hitem item rest hrest
  | item :: next :: items =>
    have ih := textTokens_listText_append hitem (next :: items) hrest
    have hcomma (cs : List Char) :
        textTokens (',' :: ' ' :: cs) = .symbol .comma :: textTokens cs := by
      rw [← textTokens_blank_cons (c := ' ') (by decide) cs]
      exact textTokens_symbol_cons .comma _
    calc textTokens (listText ((item :: next :: items).map text) ++ rest)
        = textTokens
            (text item ++ ',' :: ' ' :: (listText ((next :: items).map text) ++ rest)) := by
          rw [List.map_cons, List.map_cons, listText_cons_cons, List.append_assoc, List.cons_append,
            List.cons_append]
      _ = ts item ++ .symbol .comma ::
            ([.symbol .comma].intercalate ((next :: items).map ts) ++ textTokens rest) := by
          rw [hitem item _ (by simp), hcomma, ih]
      _ = [.symbol .comma].intercalate ((item :: next :: items).map ts) ++ textTokens rest := by
          simp only [List.map_cons, List.intercalate_cons_cons, List.append_assoc,
            List.cons_append, List.nil_append]

def rowTokens (row : List String) : List Token :=
  .symbol .openParen ::
    ([.symbol .comma].intercalate (row.map fun value => [.str value]) ++ [.symbol .closeParen])

theorem textTokens_valueText_append (value : String) {rest : List Char}
    (hrest : rest.head? ≠ some '\'') :
    textTokens (valueText value ++ rest) = [.str value] ++ textTokens rest := by
  rw [valueText, textTokens_quoted_append rfl hrest, quotationToken, if_pos rfl,
    String.ofList_toList]
  rfl

theorem textTokens_rowText_append (row : List String) (rest : List Char) :
    textTokens (rowText row ++ rest) = rowTokens row ++ textTokens rest := by
  have hclose : (')' :: rest).head? ≠ some '\'' := by simp
  have hvalues := textTokens_listText_append textTokens_valueText_append row hclose
  rw [rowText, List.cons_append, List.append_assoc, List.singleton_append]
  rw [show '(' = Symbol.openParen.char from rfl, textTokens_symbol_cons, hvalues,
    show ')' = Symbol.closeParen.char from rfl, textTokens_symbol_cons, rowTokens]
  simp only [List.cons_append, List.append_assoc, List.nil_append]

/-- What an insertion says: its opening, the name, and the rows with commas between them. -/
theorem tokens_insertion (table : String) (rows : List (List String)) :
    tokens (insertion table rows) =
      Opening.insert.tokens ++ .ident table :: .keyword .VALUES ::
        ([.symbol .comma].intercalate (rows.map rowTokens) ++ [.eof]) := by
  have hblank (cs : List Char) : ∀ d ds, ' ' :: cs = d :: ds → isWordChar d = false := by
    intro d ds h
    rw [← (List.cons.inj h).1]
    decide
  have hkeyword (word cs : List Char) (k : Keyword) (hword : isWord word = true)
      (hk : Token.ofWord word = .keyword k) :
      textTokens (word ++ ' ' :: cs) = .keyword k :: textTokens cs := by
    rw [textTokens_word_append hword (hblank cs), textTokens_blank_cons (by decide), hk]
  have hend : ([] : List Char).head? ≠ some '\'' := by simp
  have hrows := textTokens_listText_append (fun row rest _ => textTokens_rowText_append row rest)
    rows hend
  have hname (cs : List Char) : textTokens (quoted '"' '"' table.toList ++ ' ' :: cs) =
      .ident table :: textTokens cs := by
    have hquoted : closingQuote? '"' = some '"' := rfl
    rw [textTokens_quoted_append hquoted (by simp), textTokens_blank_cons (by decide),
      quotationToken, if_neg (by decide), String.ofList_toList]
  rw [List.append_nil] at hrows
  have htext : (insertion table rows).toList =
      "INSERT".toList ++ ' ' :: ("INTO".toList ++ ' ' :: (quoted '"' '"' table.toList ++ ' ' ::
        ("VALUES".toList ++ ' ' :: listText (rows.map rowText)))) := by
    simp [insertion, String.toList_append]
  have htokens : tokens (insertion table rows) =
      textTokens (insertion table rows).toList ++ [.eof] := tokens_eq _
  rw [htokens, htext, hkeyword _ _ .INSERT (by decide) (by decide),
    hkeyword _ _ .INTO (by decide) (by decide), hname,
    hkeyword _ _ .VALUES (by decide) (by decide), hrows, Opening.tokens]
  simp only [List.cons_append, List.append_assoc, List.nil_append]
  rfl

/-! ## How its rows are read -/

namespace Group

theorem readAt_str {depth : Nat} {l : Lexeme} {content : String} (h : l.token = .str content)
    (ls : List Lexeme) : readAt depth (l :: ls) = push l (readAt depth ls) := by
  simp only [readAt, h]

/-- A group of literals is read one by one, up to its closing parenthesis. -/
theorem read_literals {row : List String} (hrow : row ≠ []) {ls : List Lexeme} {ts : List Token}
    (htokens : ls.map Lexeme.token = [.symbol .comma].intercalate (row.map fun v => [.str v]) ++
      .symbol .closeParen :: ts) :
    (read ls).fragments.map cellText = row ∧ (read ls).rest.map Lexeme.token = ts := by
  match row with
  | [] => exact absurd rfl hrow
  | [value] =>
    obtain ⟨l, ls, rfl, hl, htokens⟩ := List.map_eq_cons_iff.1 htokens
    obtain ⟨close, rest, rfl, hclose, hrest⟩ := List.map_eq_cons_iff.1 htokens
    rw [read, readAt_str hl, readAt_zero_closeParen hclose]
    refine ⟨?_, hrest⟩
    simp only [push, fragments, List.map_cons, List.map_nil, cellText, hl]
  | value :: next :: row =>
    rw [List.map_cons, List.map_cons, List.intercalate_cons_cons] at htokens
    obtain ⟨l, ls, rfl, hl, htokens⟩ := List.map_eq_cons_iff.1 htokens
    obtain ⟨comma, ls, rfl, hcomma, htokens⟩ := List.map_eq_cons_iff.1 htokens
    obtain ⟨hcells, hrest⟩ := read_literals (List.cons_ne_nil next row) htokens
    rw [read] at hcells hrest ⊢
    rw [readAt_str hl, readAt_zero_comma hcomma]
    refine ⟨?_, hrest⟩
    simp only [push, pushComma, fragments, List.map_cons, cellText, hl] at hcells ⊢
    rw [hcells]

end Group

/-- The rows of the groups that go on after a group: a comma and another group follow it. -/
def laterRows : List Lexeme → List (List String)
  | comma :: next :: rest =>
    if comma.token = .symbol .comma ∧ next.token = .symbol .openParen then
      rowsAtFront (next :: rest)
    else []
  | _ => []

theorem rowsAtFront_cons {l : Lexeme} (h : l.token = .symbol .openParen) (body : List Lexeme) :
    rowsAtFront (l :: body) =
      (Group.read body).fragments.map cellText :: laterRows (Group.read body).rest := by
  rw [rowsAtFront, if_pos h]
  dsimp only
  split
  next comma next rest hrest =>
    rw [hrest, laterRows]
    split <;> rfl
  next hrest =>
    unfold laterRows
    split
    next comma next rest heq => exact absurd heq (hrest comma next rest)
    next => rfl

theorem exists_rowsAtFront_of_tokens {row : List String} (hrow : row ≠ []) {ls : List Lexeme}
    {ts : List Token} (htokens : ls.map Lexeme.token = rowTokens row ++ ts) :
    ∃ rest, rowsAtFront ls = row :: laterRows rest ∧ rest.map Lexeme.token = ts := by
  rw [rowTokens, List.cons_append, List.append_assoc, List.singleton_append] at htokens
  obtain ⟨l, body, rfl, hl, hbody⟩ := List.map_eq_cons_iff.1 htokens
  obtain ⟨hcells, hrest⟩ := Group.read_literals hrow hbody
  refine ⟨(Group.read body).rest, ?_, hrest⟩
  rw [rowsAtFront_cons hl, hcells]

theorem exists_intercalate_cons {α : Type} (sep first : List α) (others : List (List α)) :
    ∃ rest, sep.intercalate (first :: others) = first ++ rest := by
  cases others with
  | nil => exact ⟨[], by rw [List.intercalate_singleton, List.append_nil]⟩
  | cons next others =>
    exact ⟨sep ++ sep.intercalate (next :: others), by
      rw [List.intercalate_cons_cons, List.append_assoc]⟩

/-- Rows of literals are read as they are, up to the end of the draft. -/
theorem rowsAtFront_of_tokens {rows : List (List String)} (hrows : ∀ row ∈ rows, row ≠ [])
    {ls : List Lexeme}
    (htokens : ls.map Lexeme.token =
      [.symbol .comma].intercalate (rows.map rowTokens) ++ [.eof]) : rowsAtFront ls = rows := by
  match rows with
  | [] =>
    obtain ⟨l, rest, rfl, hl, _⟩ := List.map_eq_cons_iff.1 htokens
    have hend : ¬ l.token = .symbol .openParen := by
      rw [hl]
      exact Token.noConfusion
    rw [rowsAtFront, if_neg hend]
  | [row] =>
    rw [List.map_singleton, List.intercalate_singleton] at htokens
    obtain ⟨rest, hread, hrest⟩ :=
      exists_rowsAtFront_of_tokens (hrows row (List.mem_singleton_self row)) htokens
    -- Nothing but the end of the draft follows the row.
    obtain ⟨last, _, rfl, _, hnil⟩ := List.map_eq_cons_iff.1 hrest
    obtain rfl := List.map_eq_nil_iff.1 hnil
    exact hread
  | row :: next :: rows =>
    rw [List.map_cons, List.map_cons, List.intercalate_cons_cons, List.append_assoc,
      List.append_assoc] at htokens
    obtain ⟨rest, hread, hrest⟩ :=
      exists_rowsAtFront_of_tokens (hrows row (List.mem_cons_self ..)) htokens
    obtain ⟨comma, later, rfl, hcomma, hlater⟩ := List.map_eq_cons_iff.1 hrest
    have ih := rowsAtFront_of_tokens (fun r hr => hrows r (List.mem_cons_of_mem _ hr)) hlater
    obtain ⟨ts, hts⟩ :=
      exists_intercalate_cons [.symbol .comma] (rowTokens next) (rows.map rowTokens)
    rw [hts, rowTokens, List.append_assoc] at hlater
    obtain ⟨l, body, rfl, hl, _⟩ := List.map_eq_cons_iff.1 hlater
    rw [hread, laterRows, if_pos ⟨hcomma, hl⟩, ih]

theorem rowsOf_eq_nil {ls : List Lexeme} (h : Token.keyword .VALUES ∉ ls.map Lexeme.token) :
    rowsOf ls = [] := by
  induction ls with
  | nil => rfl
  | cons l ls ih =>
    rw [List.map_cons, List.mem_cons, not_or] at h
    rw [rowsOf, if_neg (Ne.symm h.1), ih h.2]

/-! ## What an insertion does -/

theorem keyword_not_mem_intercalate {k : Keyword} {items : List (List Token)}
    (h : ∀ item ∈ items, Token.keyword k ∉ item) :
    Token.keyword k ∉ [.symbol .comma].intercalate items := by
  match items with
  | [] => exact List.not_mem_nil
  | [item] =>
    rw [List.intercalate_singleton]
    exact h item (List.mem_singleton_self item)
  | item :: next :: items =>
    have ih := keyword_not_mem_intercalate fun i hi => h i (List.mem_cons_of_mem item hi)
    rw [List.intercalate_cons_cons, List.mem_append, List.mem_append, not_or, not_or]
    exact ⟨⟨h item (List.mem_cons_self ..), by simp⟩, ih⟩

theorem keyword_not_mem_rowTokens (k : Keyword) (row : List String) :
    Token.keyword k ∉ rowTokens row := by
  have hvalues : Token.keyword k ∉ [.symbol .comma].intercalate (row.map fun v => [.str v]) := by
    apply keyword_not_mem_intercalate
    intro item hitem
    obtain ⟨value, _, rfl⟩ := List.mem_map.1 hitem
    simp
  simp [rowTokens, hvalues]

theorem keyword_not_mem_rows (k : Keyword) (rows : List (List String)) :
    Token.keyword k ∉ [.symbol .comma].intercalate (rows.map rowTokens) ++ [.eof] := by
  rw [List.mem_append, not_or]
  refine ⟨keyword_not_mem_intercalate fun item hitem => ?_, by simp⟩
  obtain ⟨row, _, rfl⟩ := List.mem_map.1 hitem
  exact keyword_not_mem_rowTokens k row

theorem occurs_eq_false_of_not_mem {α : Type} [BEq α] [LawfulBEq α] {x : α} {run list : List α}
    (h : x ∉ list) : occurs (x :: run) list = false := by
  rw [occurs]
  induction list with
  | nil => rfl
  | cons y ys ih =>
    rw [List.mem_cons, not_or] at h
    rw [occursBy, ih h.2, startsBy, beq_eq_false_iff_ne.2 (Ne.symm h.1)]
    rfl

/-- An insertion into a table of any name reads as one into that table, of the rows that it was
written for.  Quotes, commas, parentheses, comment marks, keywords and white space in the name and
in the values make no difference.  It changes data and drops no table. -/
theorem reads_insertion (table : String) (rows : List (List String))
    (hrows : ∀ row ∈ rows, row ≠ []) :
    referencedTable? (insertion table rows) = some table ∧
    draftRows (insertion table rows) = rows ∧
    changesData (tokens (insertion table rows)) = true ∧
    dropsTable (tokens (insertion table rows)) = false := by
  have htokens := tokens_insertion table rows
  refine ⟨?_, ?_, ?_, ?_⟩
  · have hname : TableName (.ident table :: .keyword .VALUES ::
        ([.symbol .comma].intercalate (rows.map rowTokens) ++ [.eof])) table _ :=
      .plain fun _ _ h => Token.noConfusion (List.cons.inj h).1
    exact Opening.tableReference?_eq_foldr htokens hname
  · obtain ⟨insert, ls, hls, hinsert, htokens⟩ := List.map_eq_cons_iff.1 htokens
    obtain ⟨into, ls, rfl, hinto, htokens⟩ := List.map_eq_cons_iff.1 htokens
    obtain ⟨name, ls, rfl, hname, htokens⟩ := List.map_eq_cons_iff.1 htokens
    obtain ⟨values, ls, rfl, hvalues, htokens⟩ := List.map_eq_cons_iff.1 htokens
    have hnone : Token.keyword .VALUES ∉ ls.map Lexeme.token := by
      rw [htokens]
      exact keyword_not_mem_rows .VALUES rows
    rw [draftRows, hls]
    simp only [rowsOf, hinsert, hinto, hname, hvalues, rowsAtFront_of_tokens hrows htokens,
      rowsOf_eq_nil hnone, List.append_nil, reduceCtorEq, Token.keyword.injEq, ↓reduceIte]
  · rw [htokens]
    exact Opening.insert.changesData_tokens_append _
  · apply occurs_eq_false_of_not_mem
    rw [htokens, List.mem_append, List.mem_cons, List.mem_cons, not_or, not_or, not_or]
    exact ⟨by decide, Token.noConfusion, by decide, keyword_not_mem_rows .DROP rows⟩

/-- A name and values that look like the rest of a statement. -/
theorem reads_insertion_notes :
    insertion "my \"notes\"" [["it's 1, 2", ""], ["'); DROP TABLE students --"]] =
      "INSERT INTO \"my \"\"notes\"\"\" VALUES ('it''s 1, 2', ''), " ++
        "('''); DROP TABLE students --')" ∧
    (∀ row ∈ [["it's 1, 2", ""], ["'); DROP TABLE students --"]], row ≠ []) ∧
    draftRows (insertion "my \"notes\"" [["it's 1, 2", ""], ["'); DROP TABLE students --"]]) =
      [["it's 1, 2", ""], ["'); DROP TABLE students --"]] := by
  have hrows : ∀ row ∈ [["it's 1, 2", ""], ["'); DROP TABLE students --"]], row ≠ [] := by decide
  exact ⟨by decide +kernel, hrows, (reads_insertion "my \"notes\"" _ hrows).2.1⟩

end SqlDraft
