import SqlDraft.Proofs.CellText

/-!
# Quotes in cells

A value is freed from a quote at its front, and from the same quote at its end if there is one,
whatever stands in between.  `reads_expressions` says what that makes of a cell with several
lexemes, in which the two quotes belong to different literals, and `reads_quotations` what it makes
of a cell that is one quotation: apostrophes in a literal are single again, other doubled quotes are
not.
-/

namespace SqlDraft

theorem withoutQuotes_cons {q : Char} (hq : q ∈ ['\'', '"']) (cs : List Char) :
    withoutQuotes (q :: cs) = if cs.getLast? = some q then cs.dropLast else cs := by
  have hquote : q = '\'' ∨ q = '"' := by simpa using hq
  rw [withoutQuotes, if_pos hquote]
  cases cs.getLast? with
  | none => rfl
  | some last => simp only [Option.some.injEq]

/-- A text stays as it is if it starts with no quote, and only then. -/
theorem withoutQuotes_eq_self_iff {text : List Char} :
    withoutQuotes text = text ↔ ∀ q ∈ ['\'', '"'], text.head? ≠ some q := by
  refine ⟨fun h q hq hhead => ?_, withoutQuotes_of_head?⟩
  obtain ⟨cs, rfl⟩ := List.head?_eq_some_iff.1 hhead
  rw [withoutQuotes_cons hq] at h
  have hlength := congrArg List.length h
  split at hlength
  · rw [List.length_dropLast, List.length_cons] at hlength
    omega
  · rw [List.length_cons] at hlength
    omega

theorem withoutQuotes_quoted {q : Char} (hq : q ∈ ['\'', '"']) (content : List Char) :
    withoutQuotes (quoted q q content) = doubled q content := by
  rw [quoted, withoutQuotes_cons hq, List.getLast?_concat, if_pos rfl, List.dropLast_concat]

/-- Of a quotation with text behind it the first quote is taken off, and one at the very end. -/
theorem withoutQuotes_quoted_append {q : Char} (hq : q ∈ ['\'', '"']) (content : List Char)
    {rest : List Char} (hrest : rest ≠ []) :
    withoutQuotes (quoted q q content ++ rest) = doubled q content ++
      q :: if rest.getLast? = some q then rest.dropLast else rest := by
  have hlast : (doubled q content ++ q :: rest).getLast? = rest.getLast? := by
    rw [List.append_cons, List.getLast?_append_of_ne_nil _ hrest]
  rw [quoted_append, withoutQuotes_cons hq, hlast]
  split
  · rw [List.append_cons, List.dropLast_append_of_ne_nil hrest, List.append_assoc]
    rfl
  · rfl

/-! ## Lexemes and white space -/

theorem FirstPiece.isBlank_eq_false {c : Char} {cs text : List Char} {t : Token}
    (h : FirstPiece c cs (.token t text)) : isBlank c = false := by
  rw [Bool.eq_false_iff]
  intro hblank
  have hfirst := firstPiece_of_isBlank cs hblank
  rw [firstPiece_eq_iff.2 h] at hfirst
  cases hfirst

theorem token_ne_eof_of_append {draft : String} {front back : List Lexeme} {l : Lexeme}
    (h : lexemes draft = front ++ l :: back) (hback : back ≠ []) : l.token ≠ .eof :=
  fun hl => hback (eq_nil_of_eof h hl).2

/-- A lexeme does not start with white space. -/
theorem exists_cons_of_append {draft : String} {front back : List Lexeme} {l : Lexeme}
    (h : lexemes draft = front ++ l :: back) (hback : back ≠ []) :
    ∃ c later, l.text = c :: later ∧ isBlank c = false := by
  have hmem : l ∈ lexemes draft := by
    rw [h]
    exact List.mem_append_right _ (List.mem_cons_self ..)
  obtain ⟨c, cs, hfirst⟩ := firstPiece_of_mem_lexemes hmem (token_ne_eof_of_append h hback)
  obtain ⟨later, htext, -⟩ := hfirst.alone
  exact ⟨c, later, htext, hfirst.isBlank_eq_false⟩

/-- White space holds no lexemes. -/
theorem eq_nil_of_blank {draft : String} {front ls back : List Lexeme}
    (h : lexemes draft = front ++ (ls ++ back)) (hback : back ≠ [])
    (hblank : ∀ c ∈ Lexeme.fullText ls, isBlank c = true) : ls = [] := by
  cases ls with
  | nil => rfl
  | cons l ls =>
    obtain ⟨c, later, htext, hc⟩ := exists_cons_of_append h (by simp [hback])
    have hin : c ∈ Lexeme.fullText (l :: ls) := by
      rw [Lexeme.fullText_cons, Lexeme.source, htext]
      simp
    rw [hblank c hin] at hc
    cases hc

theorem trimEnd_ne_nil {text : List Char} {c : Char} (hmem : c ∈ text) (hc : isBlank c = false) :
    trimEnd text ≠ [] := by
  intro hnil
  obtain ⟨back, hsplit, hback⟩ := exists_trimEnd text
  rw [hnil, List.nil_append] at hsplit
  rw [hsplit] at hmem
  rw [hback c hmem] at hc
  cases hc

theorem trim_quoted {q : Char} (hq : isBlank q = false) (content : List Char) :
    trim (quoted q q content) = quoted q q content := by
  have hlast : trimEnd [q] = [q] := by
    rw [trimEnd, List.reverse_singleton, ← trimStart, trimStart_of_not_blank hq]
    rfl
  have hne : trimEnd [q] ≠ [] := by
    rw [hlast]
    exact List.cons_ne_nil _ _
  rw [quoted, trim, trimStart_of_not_blank hq, ← List.cons_append, trimEnd_append_of_ne_nil hne,
    hlast]

/-! ## Cells with several lexemes -/

/-- The first of several lexemes stays in front when white space is taken off round them, and
something is left behind it. -/
theorem exists_trim_source {draft : String} {front more back : List Lexeme} {l m : Lexeme}
    (h : lexemes draft = front ++ l :: m :: (more ++ back)) (hback : back ≠ []) :
    ∃ rest, rest ≠ [] ∧ trim (Lexeme.source (l :: m :: more)) = l.text ++ rest := by
  have hm : lexemes draft = (front ++ [l]) ++ m :: (more ++ back) := by
    rw [h, List.append_assoc, List.singleton_append]
  obtain ⟨c, later, htext, hc⟩ := exists_cons_of_append h (List.cons_ne_nil _ _)
  obtain ⟨d, others, hmtext, hd⟩ := exists_cons_of_append hm (by simp [hback])
  have hrest : trimEnd ((m :: more).flatMap fun next => next.lead ++ next.text) ≠ [] :=
    trimEnd_ne_nil (by simp [hmtext]) hd
  refine ⟨_, hrest, ?_⟩
  rw [Lexeme.source, trim, htext, List.cons_append, trimStart_of_not_blank hc, ← List.cons_append,
    trimEnd_append_of_ne_nil hrest]

/-- A cell with several lexemes keeps its text if that starts with no quote.  Otherwise the text
starts with a quotation, which loses its opening quote but not its closing one, and what comes after
it loses the same quote if it ends with it. -/
theorem reads_expressions (draft : String) :
    ∃ rows, CellRows draft rows ∧ draftRows draft = rows.map (List.map Cell.value) ∧
      ∀ row ∈ rows, ∀ cell ∈ row, 2 ≤ cell.part.length →
        (cell.value = String.ofList (trim (Lexeme.source cell.part)) ↔
          ∀ q ∈ ['\'', '"'], (Lexeme.source cell.part).head? ≠ some q) ∧
        ∀ q ∈ ['\'', '"'], (Lexeme.source cell.part).head? = some q →
          ∃ l ls content rest, cell.part = l :: ls ∧ l.text = quoted q q content ∧
            trim (Lexeme.source cell.part) = quoted q q content ++ rest ∧ rest ≠ [] ∧
            cell.value.toList = doubled q content ++
              q :: if rest.getLast? = some q then rest.dropLast else rest := by
  obtain ⟨rows, hrows⟩ := exists_cellRows draft
  refine ⟨rows, hrows, hrows.draftRows_eq, fun row hrow cell hcell hlength => ?_⟩
  obtain ⟨front, start, back, hsplit, -, -⟩ := hrows.exists_append hrow hcell
  obtain ⟨l, m, more, hpart⟩ : ∃ l m more, cell.part = l :: m :: more := by
    match cell.part, hlength with
    | l :: m :: more, _ => exact ⟨l, m, more, rfl⟩
  rw [hpart, List.append_cons] at hsplit
  change lexemes draft = (front ++ [start]) ++ l :: m :: (more ++ cell.stop :: back) at hsplit
  have hend : l.token ≠ .eof := token_ne_eof_of_append hsplit (List.cons_ne_nil _ _)
  obtain ⟨c, later, htext, -⟩ := exists_cons_of_append hsplit (List.cons_ne_nil _ _)
  obtain ⟨rest, hrest, htrim⟩ := exists_trim_source hsplit (List.cons_ne_nil _ _)
  have hhead : (Lexeme.source (l :: m :: more)).head? = some c := by
    rw [Lexeme.source, htext]
    rfl
  have hvalue : cell.value = String.ofList (withoutQuotes (l.text ++ rest)) := by
    rw [Cell.value, hpart, ← htrim]
    rfl
  rw [hpart, hvalue, htrim, hhead]
  -- Whether a quote is taken off is told from the first character of the first lexeme.
  constructor
  · rw [String.ofList_inj, withoutQuotes_eq_self_iff, htext]
    rfl
  · rintro q hq hqc
    obtain rfl : c = q := Option.some.inj hqc
    have hclose : closingQuote? c = some c := by
      simp only [List.mem_cons, List.not_mem_nil, or_false] at hq
      rcases hq with rfl | rfl <;> rfl
    obtain ⟨content, -, hquoted | hback⟩ := exists_quotation hsplit hend hclose htext
    · -- The quotation has its closing quote, since there are lexemes behind it.
      refine ⟨l, m :: more, content, rest, rfl, hquoted, by rw [hquoted], hrest, ?_⟩
      rw [String.toList_ofList, hquoted, withoutQuotes_quoted_append hq content hrest]
    · have hlength := congrArg List.length hback
      simp at hlength

/-- Of an expression between two literals the first quote and the last one are taken off, and of a
comparison with a literal in front the first one only. -/
theorem unmatched_quotes_are_lost :
    let draft := "INSERT INTO notes VALUES ('a' || 'b', 'x' = y)"
    (valueGroups (lexemes draft)).map (fun g => g.fragments.map fun part =>
        (part.length, String.ofList (trim (Lexeme.source part)))) =
      [[(2, "'a' || 'b'"), (2, "'x' = y")]] ∧
    draftRows draft = [["a' || 'b", "x' = y"]] := by
  decide +kernel

/-! ## Cells that are one quotation -/

theorem gapText_of_blank {ws : List Char} (hws : ∀ c ∈ ws, isBlank c = true) : GapText ws := by
  induction ws with
  | nil => exact .nil
  | cons c ws ih =>
    obtain ⟨hc, hws⟩ := List.forall_mem_cons.1 hws
    exact .blank hc (ih hws)

/-- What ends a cell does not start with a quote. -/
theorem head?_source_stop {draft : String} {front back : List Lexeme} {stop : Lexeme}
    (h : lexemes draft = front ++ stop :: back) (hstop : stop.IsStop) {q : Char}
    (hq : q ∈ ['\'', '"']) : (Lexeme.source (stop :: back)).head? ≠ some q := by
  have hmark {mark : Symbol} (hmark : stop.token = .symbol mark) :
      (Lexeme.source (stop :: back)).head? = some mark.char := by
    have hmem : stop ∈ lexemes draft := by
      rw [h]
      simp
    have hend : stop.token ≠ .eof := by
      rw [hmark]
      exact Token.noConfusion
    obtain ⟨c, cs, hfirst⟩ := firstPiece_of_mem_lexemes hmem hend
    obtain ⟨later, htext, -⟩ := hfirst.alone
    rw [Lexeme.source, htext, (firstPiece_token (firstPiece_eq_iff.2 hfirst)).2 mark hmark]
    rfl
  have hne : q ≠ ',' ∧ q ≠ ')' := by
    simp only [List.mem_cons, List.not_mem_nil, or_false] at hq
    rcases hq with rfl | rfl <;> decide
  rcases hstop with hcomma | hclose | heof
  · rw [hmark hcomma]
    exact fun h => hne.1 (Option.some.inj h).symm
  · rw [hmark hclose]
    exact fun h => hne.2 (Option.some.inj h).symm
  · obtain ⟨htext, rfl⟩ := eq_nil_of_eof h heof
    rw [Lexeme.source, htext]
    simp

/-- The only lexeme of a cell whose text is a quotation is that quotation. -/
theorem exists_part_of_trim {draft : String} {front back : List Lexeme} {start : Lexeme}
    {cell : Cell} (h : lexemes draft = front ++ start :: (cell.part ++ cell.stop :: back))
    (hstart : start.token ≠ .eof) (hstop : cell.stop.IsStop) {q : Char} (hq : q ∈ ['\'', '"'])
    {content : List Char} (htrim : trim cell.text = quoted q q content) :
    ∃ lead, cell.part = [⟨lead, quoted q q content, quotationToken q content⟩] := by
  have hquote : closingQuote? q = some q ∧ isBlank q = false := by
    simp only [List.mem_cons, List.not_mem_nil, or_false] at hq
    rcases hq with rfl | rfl <;> decide
  have hstopAt : lexemes draft = (front ++ start :: cell.part) ++ cell.stop :: back := by
    rw [h, List.append_assoc, List.cons_append]
  obtain ⟨ws, ws', htext, hws, hws'⟩ := exists_trim cell.text
  rw [htrim] at htext
  -- Behind the lexeme in front of the cell the draft goes on with the quotation.
  have hfull : Lexeme.fullText (cell.part ++ cell.stop :: back) =
      ws ++ (quoted q q content ++ (ws' ++ Lexeme.source (cell.stop :: back))) := by
    rw [Lexeme.fullText_append, Lexeme.fullText_cons, ← List.append_assoc, ← Cell.text, htext,
      List.append_assoc, List.append_assoc]
  have hrest : (ws' ++ Lexeme.source (cell.stop :: back)).head? ≠ some q := by
    cases ws' with
    | nil => exact head?_source_stop hstopAt hstop hq
    | cons d ds =>
      have hd := hws' d (List.mem_cons_self ..)
      intro hhead
      obtain rfl : d = q := Option.some.inj hhead
      exact Bool.false_ne_true (hquote.2.symm.trans hd)
  have hread := textLexemes_fullText h hstart
  rw [hfull, textLexemes_gap_append (gapText_of_blank hws), textLexemes,
    pieces_quoted_append hquote.1 hrest, Lexeme.ofPieces, Lexeme.addLead, List.append_nil] at hread
  obtain ⟨part, stop⟩ := cell
  cases part with
  | nil =>
    obtain ⟨rfl, -⟩ := List.cons.inj hread
    rcases hstop with hmark | hmark | hmark
    · exact absurd hmark (quotationToken_ne_symbol _ _ _)
    · exact absurd hmark (quotationToken_ne_symbol _ _ _)
    · exact absurd hmark (quotationToken_ne_eof _ _)
  | cons l ls =>
    obtain ⟨rfl, -⟩ := List.cons.inj hread
    -- Another lexeme would stand in the white space behind the quotation.
    have hbehind : Lexeme.fullText ls ++ stop.lead = ws' := by
      simpa [Cell.text, Lexeme.fullText] using htext
    have hls : lexemes draft =
        (front ++ [start, ⟨ws, quoted q q content, quotationToken q content⟩]) ++
          (ls ++ stop :: back) := by
      rw [h, List.append_assoc]
      rfl
    obtain rfl := eq_nil_of_blank hls (List.cons_ne_nil _ _) fun c hc =>
      hws' c (hbehind ▸ List.mem_append_left _ hc)
    exact ⟨ws, rfl⟩

/-- A text between apostrophes in a cell is read as it was before its apostrophes were doubled.  A
text between double quotes keeps every quote that was doubled in it. -/
theorem reads_quotations (draft : String) :
    ∃ rows, CellRows draft rows ∧ draftRows draft = rows.map (List.map Cell.value) ∧
      ∀ row ∈ rows, ∀ cell ∈ row, ∀ content,
        (trim cell.text = quoted '\'' '\'' content → cell.value = String.ofList content) ∧
        (trim cell.text = quoted '"' '"' content →
          cell.value = String.ofList (doubled '"' content) ∧
          (cell.value = String.ofList content ↔ '"' ∉ content)) := by
  obtain ⟨rows, hrows⟩ := exists_cellRows draft
  refine ⟨rows, hrows, hrows.draftRows_eq, fun row hrow cell hcell content => ?_⟩
  obtain ⟨front, start, back, hsplit, hstart, hstop⟩ := hrows.exists_append hrow hcell
  have hstart : start.token ≠ .eof := by
    rcases hstart with hmark | hmark
    all_goals
      rw [hmark]
      exact Token.noConfusion
  constructor
  · intro htrim
    obtain ⟨lead, hpart⟩ := exists_part_of_trim hsplit hstart hstop (by simp) htrim
    rw [Cell.value, hpart]
    rfl
  · intro htrim
    obtain ⟨lead, hpart⟩ := exists_part_of_trim hsplit hstart hstop (by simp) htrim
    have hvalue : cell.value = String.ofList (doubled '"' content) := by
      rw [Cell.value, hpart]
      change String.ofList (withoutQuotes (trim (quoted '"' '"' content))) = _
      rw [trim_quoted (by decide), withoutQuotes_quoted (by simp)]
    refine ⟨hvalue, ?_⟩
    rw [hvalue, String.ofList_inj, doubled_eq_self_iff]

/-- The same content between apostrophes and between double quotes is not read as the same. -/
theorem double_quotes_stay_doubled :
    let content := "say \"hi\""
    let single := String.ofList (quoted '\'' '\'' content.toList)
    let double := String.ofList (quoted '"' '"' content.toList)
    draftRows ("INSERT INTO quotes VALUES (" ++ single ++ ", " ++ double ++ ")") =
      [[content, "say \"\"hi\"\""]] := by
  decide +kernel

end SqlDraft
