import SqlDraft.Proofs.Respelling

/-!
# What literals hold

What stands in a literal is content and nothing else, be it a statement, a comment or a parenthesis.
`LiteralAt.saySame` says that two drafts which differ in what one literal holds say the same, but
for the values in which that literal stands.
-/

namespace SqlDraft

/-! ## A literal in a draft -/

/-- The draft in which a text stands between apostrophes, with other texts round it. -/
def quotedBetween (before content after : List Char) : String :=
  String.ofList (before ++ (quoted '\'' '\'' content ++ after))

def Lexeme.ofLiteral (lead content : List Char) : Lexeme :=
  ⟨lead, quoted '\'' '\'' content, .str (String.ofList content)⟩

/-- Whether the text between apostrophes is read as a literal, between the given lexemes. -/
structure LiteralAt (before content after : List Char) (front : List Lexeme) (lead : List Char)
    (back : List Lexeme) : Prop where
  read : lexemes (quotedBetween before content after) =
    front ++ Lexeme.ofLiteral lead content :: back
  /-- The literal is not another one with the same content. -/
  placed : Lexeme.fullText front ++ lead = before

/-- A literal ends where it does because no further apostrophe follows it. -/
theorem head?_of_firstPiece_quoted {content after : List Char} {t : Token}
    (h : firstPiece '\'' (doubled '\'' content ++ '\'' :: after) =
      .token t (quoted '\'' '\'' content)) : after.head? ≠ some '\'' := by
  rw [firstPiece_eq_iff.2 (.quotation rfl), quotedText_doubled_append] at h
  have htext : doubled '\'' content ++ quotedText '\'' ('\'' :: after) =
      doubled '\'' content ++ ['\''] := (List.cons.inj (Piece.token.inj h).2).2
  have hclose : quotedText '\'' ('\'' :: after) = ['\''] := List.append_cancel_left htext
  intro hafter
  obtain ⟨rest, rfl⟩ := List.head?_eq_some_iff.1 hafter
  rw [quotedText, if_pos rfl, if_pos rfl] at hclose
  exact absurd (List.cons.inj hclose).2 (List.cons_ne_nil _ _)

/-- Whatever else stands between the apostrophes is read as a literal too, between the same
lexemes. -/
theorem LiteralAt.of_content {before content after lead : List Char} {front back : List Lexeme}
    (h : LiteralAt before content after front lead back) (content' : List Char) :
    LiteralAt before content' after front lead back := by
  have hread := h.read
  rw [lexemes, quotedBetween, String.toList_ofList] at hread
  obtain ⟨ps, later, hpieces, hback, hbefore, hofPieces⟩ :=
    exists_append_of_ofPieces hread Token.noConfusion
  have hbefore : before = ps.flatMap Piece.text := (hbefore.trans h.placed).symm
  -- The pieces in front of the literal end there, whatever it holds.
  have hsplit (content' : List Char) : pieces (before ++ (quoted '\'' '\'' content' ++ after)) =
      ps ++ pieces (quoted '\'' '\'' content' ++ after) := by
    rw [quoted_append] at hpieces ⊢
    rw [hbefore] at hpieces ⊢
    exact pieces_append_of_append hpieces _
  have hliteral := hpieces
  rw [hsplit] at hliteral
  have hliteral := List.append_cancel_left hliteral
  have hafter : after.head? ≠ some '\'' := by
    rw [quoted_append, pieces_cons] at hliteral
    exact head?_of_firstPiece_quoted (List.cons.inj hliteral).1
  have hlater : pieces after = later := by
    rw [pieces_quoted_append rfl hafter] at hliteral
    exact (List.cons.inj hliteral).2
  refine ⟨?_, h.placed⟩
  rw [lexemes, quotedBetween, String.toList_ofList, hsplit, pieces_quoted_append rfl hafter, hlater,
    hofPieces, Lexeme.ofPieces, ← hback]
  change front ++ Lexeme.mk (lead ++ []) _ _ :: back = _
  rw [List.append_nil]
  rfl

/-! ## Literals that are left open -/

/-- Puts one lexeme in the place of another. -/
def swap (old new l : Lexeme) : Lexeme :=
  if l = old then new else l

theorem map_swap_of_not_mem {old : Lexeme} {ls : List Lexeme} (h : old ∉ ls) (new : Lexeme) :
    ls.map (swap old new) = ls := by
  have hsame : ∀ l ∈ ls, swap old new l = id l := by
    intro l hl
    have hne : l ≠ old := fun heq => h (heq ▸ hl)
    exact if_neg hne
  rw [List.map_congr_left hsame, List.map_id]

theorem respelling_swap {old new : Lexeme} {content content' : String}
    (hold : old.token = .str content) (hnew : new.token = .str content') :
    Respelling id (swap old new) where
  token l := by
    rw [swap]
    split
    next hl => rw [hl, hold, hnew]; exact .str _ _
    next => cases l.token <;> constructor
  sameName := sameName_refl

/-- A place for a literal.  No lexeme of a draft is one, since all but the end have a text. -/
def Lexeme.hole (lead : List Char) : Lexeme :=
  ⟨lead, [], .str ""⟩

def fill (lead content : List Char) (l : Lexeme) : Lexeme :=
  if l = .hole lead then .ofLiteral lead content else l

theorem fill_hole (lead content : List Char) :
    fill lead content (.hole lead) = .ofLiteral lead content :=
  if_pos rfl

theorem map_fill_of_not_mem {lead : List Char} {ls : List Lexeme} (h : Lexeme.hole lead ∉ ls)
    (content : List Char) : ls.map (fill lead content) = ls :=
  map_swap_of_not_mem h (.ofLiteral lead content)

theorem respelling_fill (lead content : List Char) : Respelling id (fill lead content) :=
  @respelling_swap (.hole lead) (.ofLiteral lead content) _ _ rfl rfl

theorem hole_not_mem_lexemes (lead : List Char) (draft : String) :
    Lexeme.hole lead ∉ lexemes draft :=
  fun h => text_ne_nil_of_mem_lexemes h Token.noConfusion rfl

section Readings

variable (lead content : List Char) (ls : List Lexeme)

theorem tableReference?_map_fill :
    tableReference? (ls.map (fill lead content)) = tableReference? ls := by
  rw [(respelling_fill lead content).tableReference?_map, Option.map_id, id]

theorem ofLexemes?_map_fill :
    Definition.ofLexemes? (ls.map (fill lead content)) = Definition.ofLexemes? ls := by
  have hword (l : Lexeme) : (fill lead content l).word? = l.word?.map id := by
    rw [Option.map_id, id, fill]
    split
    next hl => rw [hl]; rfl
    next => rfl
  -- A literal ends the type of a column, so none is part of it.
  have htype (ls : List Lexeme) (h : ∀ l ∈ ls, endsType l.token = false) :
      ColumnType.infer (Lexeme.source (ls.map (fill lead content))) =
        ColumnType.infer (Lexeme.source ls) := by
    rw [map_fill_of_not_mem fun hmem => Bool.noConfusion (h _ hmem)]
  have hsame (d : Definition) : d.respell id = d := by
    have hcolumn : Column.respell id = id := rfl
    rw [Definition.respell, hcolumn, List.map_id]
    rfl
  have hread := respelling_fill lead content
  rw [hread.ofLexemes?_map (hread.ofFragment?_map hword htype)]
  cases Definition.ofLexemes? ls with
  | none => rfl
  | some d => exact congrArg some (hsame d)

end Readings

/-- Whether two parts of groups are the same, or else differ in nothing but a literal, round which
both of them go on as the draft does. -/
inductive SameBut (front back : List Lexeme) (l l' : Lexeme) : List Lexeme → List Lexeme → Prop
  | apart (part : List Lexeme) : SameBut front back l l' part part
  | around {before after : List Lexeme} (hbefore : before <:+ front) (hafter : after <+: back) :
      SameBut front back l l' (before ++ l :: after) (before ++ l' :: after)

theorem sameBut_map_fill {front back part : List Lexeme} {lead : List Char}
    (hfront : Lexeme.hole lead ∉ front) (hback : Lexeme.hole lead ∉ back)
    (hpart : part <:+: front ++ .hole lead :: back) (content content' : List Char) :
    SameBut front back (.ofLiteral lead content) (.ofLiteral lead content')
      (part.map (fill lead content)) (part.map (fill lead content')) := by
  by_cases hmem : Lexeme.hole lead ∈ part
  · obtain ⟨before, after, rfl⟩ := List.append_of_mem hmem
    obtain ⟨s, t, hsplit⟩ := hpart
    have hplace : front ++ .hole lead :: back = (s ++ before) ++ .hole lead :: (after ++ t) := by
      simp [← hsplit]
    -- There is one such place only.
    obtain ⟨rfl, -, rfl⟩ := (List.append_cons_inj_of_notMem hfront hback).1 hplace
    have hbefore : Lexeme.hole lead ∉ before := fun h => hfront (List.mem_append_right s h)
    have hafter : Lexeme.hole lead ∉ after := fun h => hback (List.mem_append_left t h)
    simp only [List.map_append, List.map_cons, fill_hole, map_fill_of_not_mem hbefore,
      map_fill_of_not_mem hafter]
    exact .around (List.suffix_append s before) (List.prefix_append after t)
  · rw [map_fill_of_not_mem hmem, map_fill_of_not_mem hmem]
    exact .apart part

/-! ## Drafts -/

section Filled

variable {before content after lead : List Char} {front back : List Lexeme}

theorem LiteralAt.hole_not_mem (h : LiteralAt before content after front lead back) :
    Lexeme.hole lead ∉ front ∧ Lexeme.hole lead ∉ back := by
  have hnot := hole_not_mem_lexemes lead (quotedBetween before content after)
  rw [h.read, List.mem_append, List.mem_cons, not_or, not_or] at hnot
  exact ⟨hnot.1, hnot.2.2⟩

/-- Whatever the literal holds, the draft is one row of lexemes with the place of the literal
filled. -/
theorem LiteralAt.lexemes_eq (h : LiteralAt before content after front lead back) :
    lexemes (quotedBetween before content after) =
      (front ++ .hole lead :: back).map (fill lead content) := by
  obtain ⟨hfront, hback⟩ := h.hole_not_mem
  rw [h.read, List.map_append, List.map_cons, fill_hole, map_fill_of_not_mem hfront,
    map_fill_of_not_mem hback]

theorem LiteralAt.tokens_respelled (h : LiteralAt before content after front lead back) :
    List.Forall₂ (Token.Respelled id) ((front ++ .hole lead :: back).map Lexeme.token)
      (tokens (quotedBetween before content after)) := by
  rw [tokens, h.lexemes_eq]
  exact (respelling_fill lead content).tokens _

theorem LiteralAt.valueGroups_eq (h : LiteralAt before content after front lead back) :
    valueGroups (lexemes (quotedBetween before content after)) =
      (valueGroups (front ++ .hole lead :: back)).map (Group.map (fill lead content)) := by
  rw [h.lexemes_eq, (respelling_fill lead content).valueGroups_map]

theorem LiteralAt.widths_eq (h : LiteralAt before content after front lead back) :
    (draftRows (quotedBetween before content after)).map List.length =
      (valueGroups (front ++ .hole lead :: back)).map fun g => g.fragments.length := by
  rw [draftRows, rowsOf_eq_map, h.valueGroups_eq, List.map_map, List.map_map]
  exact List.map_congr_left fun g _ => by simp [Group.row, Group.map, Group.fragments]

end Filled

/-- Whether two drafts say the same, but for parts of the groups of values that differ in some
way. -/
structure SaySame (differ : List Lexeme → List Lexeme → Prop) (draft draft' : String) : Prop where
  table : referencedTable? draft = referencedTable? draft'
  definition : Definition.ofDraft? draft = Definition.ofDraft? draft'
  drops : dropsTable (tokens draft) = dropsTable (tokens draft')
  changes : changesData (tokens draft) = changesData (tokens draft')
  checks (check : Check) : check.holds draft = check.holds draft'
  widths : (draftRows draft).map List.length = (draftRows draft').map List.length
  /-- Every value is the text of a part of a group. -/
  rows : draftRows draft = (valueGroups (lexemes draft)).map Group.row ∧
    draftRows draft' = (valueGroups (lexemes draft')).map Group.row
  parts : List.Forall₂ (fun g g' => List.Forall₂ differ g.fragments g'.fragments)
    (valueGroups (lexemes draft)) (valueGroups (lexemes draft'))

/-- What a literal holds says nothing about a draft but the values in which it stands. -/
theorem LiteralAt.saySame {before content after lead : List Char} {front back : List Lexeme}
    (h : LiteralAt before content after front lead back) (content' : List Char) :
    SaySame (SameBut front back (.ofLiteral lead content) (.ofLiteral lead content'))
      (quotedBetween before content after) (quotedBetween before content' after) := by
  have h' := h.of_content content'
  constructor
  case table =>
    rw [referencedTable?, referencedTable?, h.lexemes_eq, h'.lexemes_eq, tableReference?_map_fill,
      tableReference?_map_fill]
  case definition =>
    rw [Definition.ofDraft?, Definition.ofDraft?, h.lexemes_eq, h'.lexemes_eq,
      ofLexemes?_map_fill, ofLexemes?_map_fill]
  case drops =>
    rw [dropsTable_respelled h.tokens_respelled, dropsTable_respelled h'.tokens_respelled]
  case changes =>
    rw [changesData_respelled sameName_refl h.tokens_respelled,
      changesData_respelled sameName_refl h'.tokens_respelled]
  case checks =>
    intro check
    rw [Check.holds, Check.holds, holdsIn_respelled sameName_refl check h.tokens_respelled,
      holdsIn_respelled sameName_refl check h'.tokens_respelled]
  case widths => rw [h.widths_eq, h'.widths_eq]
  case rows => exact ⟨rowsOf_eq_map _, rowsOf_eq_map _⟩
  case parts =>
    obtain ⟨hfront, hback⟩ := h.hole_not_mem
    rw [h.valueGroups_eq, h'.valueGroups_eq, List.forall₂_map_left_iff,
      List.forall₂_map_right_iff, List.forall₂_same]
    intro g hg
    change List.Forall₂ _ (g.fragments.map (List.map _)) (g.fragments.map (List.map _))
    rw [List.forall₂_map_left_iff, List.forall₂_map_right_iff, List.forall₂_same]
    intro part hpart
    exact sameBut_map_fill hfront hback (isInfix_of_mem_valueGroups hg hpart) content content'

/-- A note is not carried out, nor does its parenthesis end the row in which it stands. -/
theorem saySame_notes :
    ∃ front back,
      LiteralAt "INSERT INTO notes VALUES (1, ".toList "1); DROP TABLE notes; --".toList
        ", 2)".toList front [' '] back ∧
      SaySame (SameBut front back (.ofLiteral [' '] "1); DROP TABLE notes; --".toList)
          (.ofLiteral [' '] "it's".toList))
        (quotedBetween "INSERT INTO notes VALUES (1, ".toList "1); DROP TABLE notes; --".toList
          ", 2)".toList)
        (quotedBetween "INSERT INTO notes VALUES (1, ".toList "it's".toList ", 2)".toList) := by
  have hliteral : LiteralAt "INSERT INTO notes VALUES (1, ".toList
      "1); DROP TABLE notes; --".toList ", 2)".toList
      (lexemes "INSERT INTO notes VALUES (1,").dropLast [' '] (lexemes ", 2)") :=
    ⟨by decide +kernel, by decide +kernel⟩
  exact ⟨_, _, hliteral, hliteral.saySame "it's".toList⟩

end SqlDraft
