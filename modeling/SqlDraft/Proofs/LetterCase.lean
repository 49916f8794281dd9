import SqlDraft.Proofs.Derivation
import SqlDraft.Proofs.Respelling

/-!
# The case of letters

A draft in small letters is read as the draft is, with everything that is read put in small letters
too.  So two drafts that differ in the case of ASCII letters only say the same, up to the case of
letters in what they say: `readAlike_of_sameName`.
-/

namespace SqlDraft

/-! ## Characters -/

theorem toLower_of_not_upper {c : Char} (h : ¬ (65 ≤ c.toNat ∧ c.toNat ≤ 90)) : c.toLower = c := by
  unfold Char.toLower
  split
  next hupper => exact absurd hupper h
  next => rfl

/-- What capitals have in common with their small letters every character has in common with its
small letter, since the others are small already. -/
theorem apply_toLower {α : Type} {f : Char → α}
    (h : ∀ n < 26, f (Char.ofNat (65 + n)).toLower = f (Char.ofNat (65 + n))) (c : Char) :
    f c.toLower = f c := by
  by_cases hupper : 65 ≤ c.toNat ∧ c.toNat ≤ 90
  · have hfound := h (c.toNat - 65) (by omega)
    rwa [Nat.add_sub_cancel' hupper.1, Char.ofNat_toNat] at hfound
  · rw [toLower_of_not_upper hupper]

theorem toLower_toLower (c : Char) : c.toLower.toLower = c.toLower :=
  apply_toLower (by decide) c

theorem isBlank_toLower (c : Char) : isBlank c.toLower = isBlank c :=
  apply_toLower (by decide) c

theorem isDigit_toLower (c : Char) : c.toLower.isDigit = c.isDigit :=
  apply_toLower (f := Char.isDigit) (by decide) c

theorem isWordChar_toLower (c : Char) : isWordChar c.toLower = isWordChar c :=
  apply_toLower (by decide) c

theorem isWordStart_toLower (c : Char) : isWordStart c.toLower = isWordStart c :=
  apply_toLower (by decide) c

theorem ofChar?_toLower (c : Char) : Symbol.ofChar? c.toLower = Symbol.ofChar? c :=
  apply_toLower (by decide) c

theorem closingQuote?_toLower (c : Char) : closingQuote? c.toLower = closingQuote? c :=
  apply_toLower (by decide) c

theorem utf8Size_toLower (c : Char) : c.toLower.utf8Size = c.utf8Size :=
  apply_toLower (f := Char.utf8Size) (by decide) c

theorem capital_toLower (c : Char) : capital c.toLower = capital c :=
  apply_toLower (by decide) c

theorem small_toLower (c : Char) : small c.toLower = small c :=
  apply_toLower (by decide) c

theorem toLower_eq_iff {c d : Char} (hd : d.isAlpha = false) : c.toLower = d ↔ c = d := by
  have hletter : ∀ n < 26, (Char.ofNat (65 + n)).isAlpha = true ∧
      (Char.ofNat (65 + n)).toLower.isAlpha = true := by decide
  have hne {c : Char} (hc : c.isAlpha = true) : c ≠ d := by
    rintro rfl
    rw [hd] at hc
    exact Bool.noConfusion hc
  have hsame := apply_toLower (f := fun c => c = d) (fun n hn => by
    rw [eq_false (hne (hletter n hn).1), eq_false (hne (hletter n hn).2)]) c
  exact iff_of_eq hsame

/-! ## Texts -/

def lowered (s : String) : String :=
  String.ofList (s.toList.map Char.toLower)

theorem toList_lowered (s : String) : (lowered s).toList = s.toList.map Char.toLower :=
  String.toList_ofList

theorem lowered_ofList (text : List Char) :
    lowered (String.ofList text) = String.ofList (text.map Char.toLower) := by
  rw [lowered, String.toList_ofList]

theorem lowered_eq_iff {s t : String} : lowered s = lowered t ↔ sameName s t = true := by
  rw [lowered, lowered, String.ofList_inj, sameName, beq_iff_eq]

theorem map_toLower_toLower (text : List Char) :
    (text.map Char.toLower).map Char.toLower = text.map Char.toLower := by
  rw [List.map_map]
  exact List.map_congr_left fun c _ => toLower_toLower c

theorem lowered_lowered (s : String) : lowered (lowered s) = lowered s := by
  rw [lowered, toList_lowered, map_toLower_toLower, lowered]

theorem sameName_lowered (s : String) : sameName s (lowered s) = true :=
  lowered_eq_iff.1 (lowered_lowered s).symm

theorem byteSize_map_toLower (text : List Char) :
    byteSize (text.map Char.toLower) = byteSize text := by
  induction text with
  | nil => rfl
  | cons c text ih => rw [List.map_cons, byteSize_cons, byteSize_cons, ih, utf8Size_toLower]

theorem capitals_map_toLower (text : List Char) :
    capitals (text.map Char.toLower) = capitals text := by
  rw [capitals, capitals, List.flatMap_map]
  exact List.flatMap_congr fun c _ => capital_toLower c

theorem smalls_map_toLower (text : List Char) :
    smalls (text.map Char.toLower) = smalls text := by
  rw [smalls, smalls, List.flatMap_map]
  exact List.flatMap_congr fun c _ => small_toLower c

theorem trim_map_toLower (text : List Char) :
    trim (text.map Char.toLower) = (trim text).map Char.toLower := by
  have hblank : isBlank ∘ Char.toLower = isBlank := funext isBlank_toLower
  simp only [trim, trimStart, trimEnd, List.dropWhile_map, ← List.map_reverse, hblank]

theorem withoutQuotes_map_toLower (text : List Char) :
    withoutQuotes (text.map Char.toLower) = (withoutQuotes text).map Char.toLower := by
  have hquote (c : Char) : (c.toLower = '\'' ∨ c.toLower = '"') ↔ (c = '\'' ∨ c = '"') :=
    or_congr (toLower_eq_iff (by decide)) (toLower_eq_iff (by decide))
  cases text with
  | nil => rfl
  | cons c cs =>
    simp only [withoutQuotes, List.map_cons, hquote]
    split
    next hc =>
      -- A quote is no letter, so at the end of the text stands the same one or none.
      have hletter : c.isAlpha = false := by rcases hc with rfl | rfl <;> decide
      have hsame : c.toLower = c := (toLower_eq_iff hletter).2 rfl
      rw [List.getLast?_map]
      cases cs.getLast? with
      | none => rfl
      | some last =>
        simp only [Option.map_some, hsame, toLower_eq_iff hletter]
        split
        · rw [List.map_dropLast]
        · rfl
    next => rw [List.map_cons]

/-! ## Pieces -/

theorem lineText_map_toLower (cs : List Char) :
    lineText (cs.map Char.toLower) = (lineText cs).map Char.toLower := by
  induction cs with
  | nil => rfl
  | cons c cs ih =>
    rw [List.map_cons, lineText, lineText, ih]
    by_cases hc : c = '\n'
    · rw [if_pos hc, if_pos ((toLower_eq_iff (by decide)).2 hc)]
      rfl
    · rw [if_neg hc, if_neg (mt (toLower_eq_iff (by decide)).1 hc)]
      rfl

theorem blockText_map_toLower (cs : List Char) :
    blockText (cs.map Char.toLower) = (blockText cs).map Char.toLower := by
  have hclose (c d : Char) : (c.toLower = '*' ∧ d.toLower = '/') ↔ (c = '*' ∧ d = '/') :=
    and_congr (toLower_eq_iff (by decide)) (toLower_eq_iff (by decide))
  fun_induction blockText cs with
  | case1 => rfl
  | case2 c => rfl
  | case3 c d cs h =>
    rw [List.map_cons, List.map_cons, blockText, if_pos ((hclose c d).2 h)]
    rfl
  | case4 c d cs h ih =>
    rw [List.map_cons] at ih
    rw [List.map_cons, List.map_cons, blockText, if_neg (mt (hclose c d).1 h), ih]
    rfl

theorem quotation_map_toLower {close : Char} (hclose : close.isAlpha = false) (cs : List Char) :
    quotedText close (cs.map Char.toLower) = (quotedText close cs).map Char.toLower ∧
      unquoted close (cs.map Char.toLower) = (unquoted close cs).map Char.toLower := by
  have hsame : close.toLower = close := (toLower_eq_iff hclose).2 rfl
  fun_induction quotedText close cs with
  | case1 => exact ⟨rfl, rfl⟩
  | case2 c =>
    refine ⟨rfl, ?_⟩
    simp only [List.map_cons, List.map_nil, unquoted, toLower_eq_iff hclose]
    split <;> rfl
  | case3 cs ih =>
    simp only [List.map_cons, quotedText, unquoted, hsame, ↓reduceIte, ih.1, ih.2, and_self]
  | case4 d cs hd =>
    simp only [List.map_cons, List.map_nil, quotedText, unquoted, hsame, ↓reduceIte,
      toLower_eq_iff hclose, if_neg hd, and_self]
  | case5 c d cs hc ih =>
    obtain ⟨hquoted, hcontent⟩ := ih
    rw [List.map_cons] at hquoted hcontent
    simp only [List.map_cons, quotedText, unquoted, toLower_eq_iff hclose, if_neg hc, hquoted,
      hcontent, and_self]

theorem digitsText_map_toLower (pointSeen : Bool) (cs : List Char) :
    digitsText pointSeen (cs.map Char.toLower) = (digitsText pointSeen cs).map Char.toLower := by
  have hpoint (c : Char) (pointSeen : Bool) :
      (c.toLower = '.' ∧ pointSeen = false) ↔ (c = '.' ∧ pointSeen = false) :=
    and_congr_left' (toLower_eq_iff (by decide))
  fun_induction digitsText pointSeen cs with
  | case1 => rfl
  | case2 pointSeen c cs hc ih =>
    rw [List.map_cons, digitsText, isDigit_toLower, if_pos hc, ih]
    rfl
  | case3 pointSeen c cs hc hdot ih =>
    rw [List.map_cons, digitsText, isDigit_toLower, if_neg hc, if_pos ((hpoint c _).2 hdot), ih]
    rfl
  | case4 pointSeen c cs hc hdot =>
    rw [List.map_cons, digitsText, isDigit_toLower, if_neg hc, if_neg (mt (hpoint c _).1 hdot)]
    rfl

theorem takeWhile_map_toLower (cs : List Char) :
    (cs.map Char.toLower).takeWhile isWordChar =
      (cs.takeWhile isWordChar).map Char.toLower := by
  rw [List.takeWhile_map]
  exact congrArg _ (congrArg (List.takeWhile · cs) (funext isWordChar_toLower))

def Token.lowered : Token → Token
  | ident name => ident (SqlDraft.lowered name)
  | str content => str (SqlDraft.lowered content)
  | num digits => num (SqlDraft.lowered digits)
  | keyword k => keyword k
  | symbol mark => symbol mark
  | eof => eof

def Piece.lowered : Piece → Piece
  | gap kind text => gap kind (text.map Char.toLower)
  | token t text => token t.lowered (text.map Char.toLower)

theorem Piece.text_lowered (p : Piece) : p.lowered.text = p.text.map Char.toLower := by
  cases p <;> rfl

theorem ofWord_map_toLower (word : List Char) :
    Token.ofWord (word.map Char.toLower) = (Token.ofWord word).lowered := by
  have hkeyword : Keyword.ofWord? (word.map Char.toLower) = Keyword.ofWord? word := by
    rw [Keyword.ofWord?, Keyword.ofWord?, capitals_map_toLower]
  rw [Token.ofWord, Token.ofWord, hkeyword]
  cases Keyword.ofWord? word with
  | some k => rfl
  | none => exact congrArg Token.ident (lowered_ofList word).symm

theorem quotationToken_map_toLower {opening : Char} (content : List Char) :
    quotationToken opening (content.map Char.toLower) =
      (quotationToken opening content).lowered := by
  rw [quotationToken, quotationToken, ← lowered_ofList]
  split <;> rfl

theorem FirstPiece.lowered {c : Char} {cs : List Char} {p : Piece} (h : FirstPiece c cs p) :
    FirstPiece c.toLower (cs.map Char.toLower) p.lowered := by
  cases h with
  | blank h => exact .blank ((isBlank_toLower c).trans h)
  | @lineComment rest h hcs =>
    rw [Piece.lowered, List.map_cons, ← lineText_map_toLower]
    exact .lineComment (by rw [h]; decide) (congrArg (List.map Char.toLower) hcs)
  | @blockComment rest h hcs =>
    rw [Piece.lowered, List.map_cons, List.map_cons, ← blockText_map_toLower]
    exact .blockComment (by rw [h]; decide) (congrArg (List.map Char.toLower) hcs)
  | symbol h => exact .symbol ((ofChar?_toLower c).trans h)
  | @quotation close h =>
    have hquotes : c.toLower = c ∧ close.isAlpha = false := by
      rcases opening_cases h with ⟨rfl, rfl⟩ | ⟨rfl, rfl⟩ | ⟨rfl, rfl⟩ | ⟨rfl, rfl⟩ <;> decide
    obtain ⟨hquoted, hcontent⟩ := quotation_map_toLower hquotes.2 cs
    rw [Piece.lowered, ← quotationToken_map_toLower, List.map_cons, ← hquoted, ← hcontent,
      hquotes.1]
    exact .quotation h
  | number h =>
    have hnumber : (numberPiece c cs).lowered = numberPiece c.toLower (cs.map Char.toLower) := by
      rw [numberPiece, numberPiece, digitsText_map_toLower, ← List.map_cons, ← lowered_ofList]
      rfl
    rw [hnumber]
    rcases h with hdigit | ⟨hc, d, rest, hcs, hdigit⟩
    · exact .number (.inl ((isDigit_toLower c).trans hdigit))
    · exact .number (.inr ⟨by rw [hc]; decide, d.toLower, rest.map Char.toLower,
        congrArg (List.map Char.toLower) hcs, (isDigit_toLower d).trans hdigit⟩)
  | word h =>
    rw [Piece.lowered, ← ofWord_map_toLower, List.map_cons, ← takeWhile_map_toLower]
    exact .word ((isWordStart_toLower c).trans h)
  | stray hblank hminus hslash hsymbol hquote hdigit hword =>
    refine .stray ((isBlank_toLower c).trans hblank) (fun hc d rest heq => ?_)
      (fun hc rest heq => ?_) ((ofChar?_toLower c).trans hsymbol)
      ((closingQuote?_toLower c).trans hquote) ((isDigit_toLower c).trans hdigit)
      ((isWordStart_toLower c).trans hword)
    · obtain ⟨e, es, rfl, rfl, rfl⟩ := List.map_eq_cons_iff.1 heq
      obtain ⟨he, hnumber⟩ := hminus ((toLower_eq_iff (by decide)).1 hc) e es rfl
      exact ⟨mt (toLower_eq_iff (by decide)).1 he, (isDigit_toLower e).trans hnumber⟩
    · obtain ⟨e, es, rfl, he, rfl⟩ := List.map_eq_cons_iff.1 heq
      obtain rfl : e = '*' := (toLower_eq_iff (by decide)).1 he
      exact hslash ((toLower_eq_iff (by decide)).1 hc) es rfl

/-- The pieces of a text in small letters are those of the text. -/
theorem pieces_map_toLower (text : List Char) :
    pieces (text.map Char.toLower) = (pieces text).map Piece.lowered := by
  have hafter (skip : Nat) (cs : List Char) :
      piecesAfter skip (cs.map Char.toLower) = (piecesAfter skip cs).map Piece.lowered := by
    fun_induction piecesAfter skip cs with
    | case1 => rfl
    | case2 skip c cs ih => exact ih
    | case3 c cs piece ih =>
      have hfirst : firstPiece c.toLower (cs.map Char.toLower) = piece.lowered :=
        firstPiece_eq_iff.2 (firstPiece_kind c cs).lowered
      rw [List.map_cons, piecesAfter, hfirst, Piece.text_lowered, List.length_map, ih]
      rfl
  exact hafter 0 text

/-! ## Lexemes -/

def Lexeme.lowered (l : Lexeme) : Lexeme :=
  ⟨l.lead.map Char.toLower, l.text.map Char.toLower, l.token.lowered⟩

theorem addLead_map_lowered (text : List Char) (ls : List Lexeme) :
    Lexeme.addLead (text.map Char.toLower) (ls.map Lexeme.lowered) =
      (Lexeme.addLead text ls).map Lexeme.lowered := by
  cases ls with
  | nil => rfl
  | cons l ls => simp only [List.map_cons, Lexeme.addLead, Lexeme.lowered, List.map_append]

theorem ofPieces_map_lowered (ps : List Piece) :
    Lexeme.ofPieces (ps.map Piece.lowered) = (Lexeme.ofPieces ps).map Lexeme.lowered := by
  induction ps with
  | nil => rfl
  | cons p ps ih =>
    cases p with
    | gap kind text =>
      rw [List.map_cons, Piece.lowered, Lexeme.ofPieces, ih, addLead_map_lowered]
      rfl
    | token t text =>
      rw [List.map_cons, Piece.lowered, Lexeme.ofPieces, ih]
      rfl

/-- The lexemes of a draft in small letters are those of the draft. -/
theorem lexemes_lowered (draft : String) :
    lexemes (lowered draft) = (lexemes draft).map Lexeme.lowered := by
  rw [lexemes, toList_lowered, pieces_map_toLower, ofPieces_map_lowered]
  rfl

theorem tokens_lowered (draft : String) :
    tokens (lowered draft) = (tokens draft).map Token.lowered := by
  rw [tokens, lexemes_lowered, List.map_map, tokens, List.map_map]
  rfl

/-- Small letters stand where the letters stand. -/
theorem spans_map_lowered (ls : List Lexeme) : spans (ls.map Lexeme.lowered) = spans ls := by
  have hfrom (offset : Nat) : spansFrom offset (ls.map Lexeme.lowered) = spansFrom offset ls := by
    induction ls generalizing offset with
    | nil => rfl
    | cons l ls ih =>
      simp only [List.map_cons, spansFrom, ih, Lexeme.lowered, byteSize_map_toLower]
  exact hfrom 0

theorem source_map_lowered (ls : List Lexeme) :
    Lexeme.source (ls.map Lexeme.lowered) = (Lexeme.source ls).map Char.toLower := by
  cases ls with
  | nil => rfl
  | cons l ls =>
    rw [List.map_cons, Lexeme.source, Lexeme.source, List.map_append, List.map_flatMap,
      List.flatMap_map]
    exact congrArg _ (List.flatMap_congr fun next _ => (List.map_append ..).symm)

theorem respelling_lowered : Respelling lowered Lexeme.lowered where
  token l := by
    rw [Lexeme.lowered]
    cases l.token <;> constructor
  sameName := sameName_lowered

theorem word?_lowered (l : Lexeme) : l.lowered.word? = l.word?.map lowered := by
  rw [Lexeme.word?, Lexeme.word?, Lexeme.lowered]
  cases l.token with
  | keyword k => exact congrArg some (lowered_ofList l.text).symm
  | _ => rfl

/-! ## Values -/

theorem cellText_map_lowered (part : List Lexeme) :
    cellText (part.map Lexeme.lowered) = lowered (cellText part) := by
  have htext (text : List Char) :
      String.ofList (withoutQuotes (trim (text.map Char.toLower))) =
        lowered (String.ofList (withoutQuotes (trim text))) := by
    rw [trim_map_toLower, withoutQuotes_map_toLower, lowered_ofList]
  match part with
  | [] => rfl
  | [l] =>
    rw [List.map_singleton, cellText, cellText, Lexeme.lowered]
    cases l.token with
    | str content => rfl
    | _ => exact htext l.text
  | l :: m :: part =>
    rw [List.map_cons, List.map_cons, cellText, cellText, ← List.map_cons, ← List.map_cons,
      source_map_lowered, htext]
    all_goals simp

theorem draftRows_lowered (draft : String) :
    draftRows (lowered draft) = (draftRows draft).map (List.map lowered) := by
  have hrow (g : Group) : (g.map Lexeme.lowered).row = g.row.map lowered := by
    change List.map cellText (g.fragments.map (List.map Lexeme.lowered)) = _
    rw [Group.row, List.map_map, List.map_map]
    exact List.map_congr_left fun part _ => cellText_map_lowered part
  rw [draftRows, lexemes_lowered, rowsOf_eq_map, respelling_lowered.valueGroups_map, List.map_map,
    draftRows, rowsOf_eq_map, List.map_map]
  exact List.map_congr_left fun g _ => hrow g

/-! ## Tables -/

theorem referencedTable?_lowered (draft : String) :
    referencedTable? (lowered draft) = (referencedTable? draft).map lowered := by
  rw [referencedTable?, lexemes_lowered, respelling_lowered.tableReference?_map, referencedTable?]

theorem infer_map_toLower (text : List Char) :
    ColumnType.infer (text.map Char.toLower) = ColumnType.infer text := by
  rw [ColumnType.infer, ColumnType.infer, smalls_map_toLower]

theorem ofDraft?_lowered (draft : String) :
    Definition.ofDraft? (lowered draft) =
      (Definition.ofDraft? draft).map (Definition.respell lowered) := by
  have htype (ls : List Lexeme) :
      ColumnType.infer (Lexeme.source (ls.map Lexeme.lowered)) =
        ColumnType.infer (Lexeme.source ls) := by
    rw [source_map_lowered, infer_map_toLower]
  rw [Definition.ofDraft?, lexemes_lowered]
  exact respelling_lowered.ofLexemes?_map
    (respelling_lowered.ofFragment?_map word?_lowered fun ls _ => htype ls) (lexemes draft)

/-! ## Previews

Only names and values are put in small letters: a preview keeps the origin of its schema and of its
rows, the types of its columns, and the places where a row has no value. -/

def Schema.lowered (s : Schema) : Schema :=
  ⟨SqlDraft.lowered s.table, s.columns.map (Column.respell SqlDraft.lowered), s.origin⟩

def Row.lowered (r : Row) : Row :=
  ⟨r.origin, r.cells.map (Option.map SqlDraft.lowered)⟩

namespace Preview

def lowered (p : Preview) : Preview :=
  ⟨p.schema.map Schema.lowered, p.rows.map Row.lowered⟩

theorem knownSchema?_lowered (table : String) (previous : Option Schema) :
    knownSchema? (SqlDraft.lowered table) previous = knownSchema? table previous := by
  have hdescribes (s : Schema) : s.describes (SqlDraft.lowered table) = s.describes table :=
    sameName_rename (sameName_lowered table) s.table
  simp only [knownSchema?, catalogueSchema?, hdescribes]

theorem lowered_ofDefinition (d : Definition) :
    (Schema.ofDefinition (d.respell SqlDraft.lowered)).lowered =
      (Schema.ofDefinition d).lowered := by
  have hcolumn (c : Column) :
      (c.respell SqlDraft.lowered).respell SqlDraft.lowered = c.respell SqlDraft.lowered := by
    rw [Column.respell, Column.respell, lowered_lowered]
  simp only [Schema.ofDefinition, Schema.lowered, Definition.respell, lowered_lowered,
    List.map_map, Schema.mk.injEq, true_and, and_true]
  exact List.map_congr_left fun c _ => hcolumn c

/-- A draft in small letters is about the same schema, unless it defines one of its own, and that
is then in small letters. -/
theorem schemaAfter_lowered (draft : String) (previous : Option Schema) :
    (schemaAfter (lexemes (SqlDraft.lowered draft)) previous).map Schema.lowered =
      (schemaAfter (lexemes draft) previous).map Schema.lowered := by
  have hdrop : dropsTable ((lexemes (SqlDraft.lowered draft)).map Lexeme.token) =
      dropsTable ((lexemes draft).map Lexeme.token) := by
    rw [lexemes_lowered]
    exact dropsTable_respelled (respelling_lowered.tokens _)
  have hdefinition := ofDraft?_lowered draft
  have htable := referencedTable?_lowered draft
  rw [Definition.ofDraft?, Definition.ofDraft?] at hdefinition
  rw [referencedTable?, referencedTable?] at htable
  rw [schemaAfter, schemaAfter, hdrop, schemaFor?, schemaFor?, hdefinition, htable]
  split
  · rfl
  · cases Definition.ofLexemes? (lexemes draft) with
    | some d => exact congrArg some (lowered_ofDefinition d)
    | none =>
      cases tableReference? (lexemes draft) with
      | none => rfl
      | some table =>
        simp only [Option.map_some, Option.map_none, Option.bind_some, knownSchema?_lowered]

theorem lowered_fit (origin : RowOrigin) (values : List String) (width : Nat) :
    (Row.fit origin values width).lowered =
      Row.fit origin (values.map SqlDraft.lowered) width := by
  rw [Row.fit, Row.fit, Row.lowered, List.map_map]
  simp only [Function.comp_def, List.getElem?_map]

theorem lowered_show? {s s' : Option Schema} {rows rows' : List (List String)}
    (hschema : s'.map Schema.lowered = s.map Schema.lowered)
    (hrows : rows'.map (List.map SqlDraft.lowered) = rows.map (List.map SqlDraft.lowered))
    (remote : Option Snapshot) :
    (show? s' remote rows').lowered = (show? s remote rows).lowered := by
  match s, s' with
  | none, none => rfl
  | some s, some s' =>
    have hsame : s'.lowered = s.lowered := Option.some.inj hschema
    obtain ⟨htable, hcolumns, -⟩ := Schema.mk.inj hsame
    have hwidth : s'.columns.length = s.columns.length := by
      simpa only [List.length_map] using congrArg List.length hcolumns
    have hfetched : fetchedRows s' remote = fetchedRows s remote := by
      cases remote with
      | none => rfl
      | some snapshot =>
        have hdescribes : s'.describes snapshot.table = s.describes snapshot.table := by
          rw [Schema.describes, Schema.describes, Bool.eq_iff_iff, ← lowered_eq_iff,
            ← lowered_eq_iff, htable]
        rw [fetchedRows, fetchedRows, hdescribes]
    have hfit (width : Nat) (rows : List (List String)) :
        (rows.map fun values => Row.fit .draft values width).map Row.lowered =
          (rows.map (List.map SqlDraft.lowered)).map fun values => Row.fit .draft values width := by
      rw [List.map_map, List.map_map]
      exact List.map_congr_left fun values _ => lowered_fit .draft values width
    simp only [show?, ofSchema, lowered, Option.map_some, hsame, hwidth, hfetched, List.map_append,
      hfit, hrows]

/-- The preview of a draft in small letters is that of the draft, up to the case of letters. -/
theorem lowered_derive (draft : String) (previous : Preview) (remote : Option Snapshot) :
    (derive (SqlDraft.lowered draft) previous remote).lowered =
      (derive draft previous remote).lowered := by
  have hrows : (draftRows (SqlDraft.lowered draft)).map (List.map SqlDraft.lowered) =
      (draftRows draft).map (List.map SqlDraft.lowered) := by
    rw [draftRows_lowered, List.map_map]
    exact List.map_congr_left fun row _ => by
      rw [Function.comp_apply, List.map_map]
      exact List.map_congr_left fun s _ => lowered_lowered s
  rw [derive_eq_show?, derive_eq_show?]
  exact lowered_show? (schemaAfter_lowered draft previous.schema) hrows remote

end Preview

/-! ## Drafts -/

/-- Whether two drafts are read alike, up to the case of the letters in what is read. -/
structure ReadAlike (draft draft' : String) : Prop where
  spans : spans (lexemes draft) = spans (lexemes draft')
  tokens : (tokens draft).map Token.lowered = (tokens draft').map Token.lowered
  table : (referencedTable? draft).map lowered = (referencedTable? draft').map lowered
  /-- The columns have the same types, since only names are changed. -/
  definition : (Definition.ofDraft? draft).map (Definition.respell lowered) =
    (Definition.ofDraft? draft').map (Definition.respell lowered)
  rows : (draftRows draft).map (List.map lowered) = (draftRows draft').map (List.map lowered)
  drops : dropsTable (SqlDraft.tokens draft) = dropsTable (SqlDraft.tokens draft')
  changes : changesData (SqlDraft.tokens draft) = changesData (SqlDraft.tokens draft')
  checks (check : Check) : check.holds draft = check.holds draft'
  /-- Whatever was shown and fetched before, the previews have the same origin and types of columns,
  the same origins of rows and nothing in the same places. -/
  previews (previous : Preview) (remote : Option Snapshot) :
    (Preview.derive draft previous remote).lowered =
      (Preview.derive draft' previous remote).lowered

theorem tokens_respelled_lowered (draft : String) :
    List.Forall₂ (Token.Respelled lowered) (tokens draft) (tokens (lowered draft)) := by
  rw [tokens, tokens, lexemes_lowered]
  exact respelling_lowered.tokens (lexemes draft)

/-- Drafts that differ in the case of ASCII letters only are read alike. -/
theorem readAlike_of_sameName {draft draft' : String} (h : sameName draft draft' = true) :
    ReadAlike draft draft' := by
  -- Each of them is read as what both are in small letters.
  have hsame : lowered draft = lowered draft' := lowered_eq_iff.2 h
  have hdrops (d : String) : dropsTable (tokens (lowered d)) = dropsTable (tokens d) :=
    dropsTable_respelled (tokens_respelled_lowered d)
  have hchanges (d : String) : changesData (tokens (lowered d)) = changesData (tokens d) :=
    changesData_respelled sameName_lowered (tokens_respelled_lowered d)
  have hholds (check : Check) (d : String) : check.holds (lowered d) = check.holds d :=
    holdsIn_respelled sameName_lowered check (tokens_respelled_lowered d)
  constructor
  case spans =>
    rw [← spans_map_lowered, ← lexemes_lowered, hsame, lexemes_lowered, spans_map_lowered]
  case tokens => rw [← tokens_lowered, hsame, tokens_lowered]
  case table => rw [← referencedTable?_lowered, hsame, referencedTable?_lowered]
  case definition => rw [← ofDraft?_lowered, hsame, ofDraft?_lowered]
  case rows => rw [← draftRows_lowered, hsame, draftRows_lowered]
  case drops => rw [← hdrops, hsame, hdrops]
  case changes => rw [← hchanges, hsame, hchanges]
  case checks => exact fun check => by rw [← hholds, hsame, hholds]
  case previews =>
    intro previous remote
    rw [← Preview.lowered_derive, hsame, Preview.lowered_derive]

theorem readAlike_pets :
    sameName "create Table pets (id INT); insert into Pets VALUES ('a')"
        "CREATE TABLE Pets (ID int); INSERT INTO pets values ('A')" = true ∧
      ReadAlike "create Table pets (id INT); insert into Pets VALUES ('a')"
        "CREATE TABLE Pets (ID int); INSERT INTO pets values ('A')" := by
  have hsame : sameName "create Table pets (id INT); insert into Pets VALUES ('a')"
      "CREATE TABLE Pets (ID int); INSERT INTO pets values ('A')" = true := by decide
  exact ⟨hsame, readAlike_of_sameName hsame⟩

end SqlDraft
