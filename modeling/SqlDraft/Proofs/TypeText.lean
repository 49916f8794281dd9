import SqlDraft.Proofs.Respelling

/-!
# Type texts

What a type text stands for hangs on its first word and on the number markers in it.  Where a text
is cut so that no word goes on across the cut, its words and markers are those of its parts, so its
type can be told from the parts: `infer_around`.  `ofParts_eq_iff` says when a part between two
others changes the type, and `ofDraft?_eq_map` that a definition is what it is with its type texts,
with the types inferred from these.
-/

namespace SqlDraft

/-! ## Types -/

namespace ColumnType

/-- The first word of some texts, in small letters. -/
def firstWord (parts : List (List Char)) : List Char :=
  (parts.flatMap fun part => words (smalls part)).headD []

/-- Whether the first word of some texts is the name of a type that holds text. -/
def namesText (parts : List (List Char)) : Bool :=
  textNames.any fun textName => textName.toList == firstWord parts

/-- Whether a number marker occurs in one of some texts. -/
def marksNumber (parts : List (List Char)) : Bool :=
  parts.any fun part => numberMarkers.any fun marker => occurs marker.toList (smalls part)

/-- The type that a type text in parts stands for. -/
def ofParts (parts : List (List Char)) : ColumnType :=
  if namesText parts then .text else if marksNumber parts then .number else .text

theorem infer_eq_ofParts (text : List Char) : infer text = ofParts [text] := by
  simp only [infer, ofSmalls, ofParts, namesText, firstWord, marksNumber, List.flatMap_singleton,
    List.any_cons, List.any_nil, Bool.or_false]

/-- A text says what its parts say. -/
theorem ofParts_split {s t : List Char} (h : Apart (smalls s) (smalls t))
    (front back : List (List Char)) :
    ofParts (front ++ (s ++ t) :: back) = ofParts (front ++ s :: t :: back) := by
  have hall : (numberMarkers.all fun marker => marker.toList.all isAlphanumeric) = true := by
    decide +kernel
  have hletters (marker : String) (hmarker : marker ∈ numberMarkers) :
      ∀ c ∈ marker.toList, isAlphanumeric c = true :=
    List.all_eq_true.1 (List.all_eq_true.1 hall marker hmarker)
  have hmarks : (numberMarkers.any fun marker => occurs marker.toList (smalls (s ++ t))) =
      ((numberMarkers.any fun marker => occurs marker.toList (smalls s)) ||
        numberMarkers.any fun marker => occurs marker.toList (smalls t)) := by
    rw [Bool.eq_iff_iff, Bool.or_eq_true, List.any_eq_true, List.any_eq_true, List.any_eq_true,
      ← exists_or]
    refine exists_congr fun marker => ?_
    rw [← and_or_left]
    refine and_congr_right fun hmarker => ?_
    rw [smalls_append, occurs_append (hletters marker hmarker) h, Bool.or_eq_true]
  have hword : firstWord (front ++ (s ++ t) :: back) = firstWord (front ++ s :: t :: back) := by
    simp only [firstWord, List.flatMap_append, List.flatMap_cons, smalls_append, words_append h,
      List.append_assoc]
  simp only [ofParts, namesText, hword, marksNumber, List.any_append, List.any_cons, hmarks,
    Bool.or_assoc]

theorem infer_around {before part after : List Char}
    (hbefore : Apart (smalls before) (smalls (part ++ after)))
    (hafter : Apart (smalls part) (smalls after)) :
    infer (before ++ (part ++ after)) = ofParts [before, part, after] := by
  rw [infer_eq_ofParts]
  exact (ofParts_split hbefore [] []).trans (ofParts_split hafter [before] [])

theorem infer_around_space (before after : List Char) :
    infer (before ++ ([' '] ++ after)) = ofParts [before, after] := by
  have hspace : Apart (smalls before) (smalls ([' '] ++ after)) := apart_cons (by decide) _ _
  have hafter : Apart (smalls [' ']) (smalls after) := apart_concat (by decide) [] _
  rw [infer_around hspace hafter]
  have hword : firstWord [before, [' '], after] = firstWord [before, after] := rfl
  have hmarks : marksNumber [before, [' '], after] = marksNumber [before, after] := rfl
  rw [ofParts, namesText, hword, hmarks]
  rfl

/-- Whether a text changes the type for which a type text stands when it is put in place of a space
between two parts of it. -/
inductive Tips (before part after : List Char) : Prop
  /-- Text becomes a number. -/
  | marks (hmarked : marksNumber [part] = true) (hplain : marksNumber [before, after] = false)
      (hnumber : namesText [before, part, after] = false) : Tips before part after
  /-- A number becomes text or text a number, since another word is the first one. -/
  | names (hfirst : words (smalls before) = []) (hmarked : marksNumber [before, after] = true)
      (hother : namesText [before, part, after] ≠ namesText [before, after]) :
      Tips before part after

theorem namesText_of_words {before : List Char} (h : words (smalls before) ≠ [])
    (parts : List (List Char)) : namesText (before :: parts) = namesText [before] := by
  obtain ⟨word, later, hwords⟩ := List.exists_cons_of_ne_nil h
  simp only [namesText, firstWord, List.flatMap_cons, hwords, List.cons_append, List.headD_cons]

theorem ofParts_eq_iff (before part after : List Char) :
    ofParts [before, part, after] = ofParts [before, after] ↔ ¬ Tips before part after := by
  have hmarks : marksNumber [before, part, after] =
      (marksNumber [part] || marksNumber [before, after]) := by
    simp only [marksNumber, List.any_cons, List.any_nil, Bool.or_false]
    exact Bool.or_left_comm ..
  constructor
  · intro hsame htips
    cases htips with
    | marks hmarked hplain hnumber =>
      rw [ofParts, ofParts, hmarks, hmarked, hplain, hnumber] at hsame
      simp at hsame
    | names _ hmarked hother =>
      rw [ofParts, ofParts, hmarks, hmarked, Bool.or_true] at hsame
      cases hwith : namesText [before, part, after] <;>
        cases hwithout : namesText [before, after] <;> simp_all
  · intro hnot
    cases hmarked : marksNumber [before, after] with
    | true =>
      have hname : namesText [before, part, after] = namesText [before, after] := by
        by_cases hfirst : words (smalls before) = []
        · exact Decidable.not_not.1 fun hother => hnot (.names hfirst hmarked hother)
        · exact (namesText_of_words hfirst _).trans (namesText_of_words hfirst _).symm
      rw [ofParts, ofParts, hname, hmarks, hmarked, Bool.or_true]
    | false =>
      -- Without the part the text marks no number, so it stands for text either way.
      have htext : ofParts [before, after] = .text := by
        simp [ofParts, hmarked]
      cases hnumber : namesText [before, part, after] with
      | true => rw [htext, ofParts, hnumber, if_pos rfl]
      | false =>
        have hunmarked : marksNumber [part] = false := by
          rw [Bool.eq_false_iff]
          exact fun hpart => hnot (.marks hpart hmarked hnumber)
        rw [htext, ofParts, hmarks, hmarked, hunmarked]
        simp

end ColumnType

/-! ## Definitions with their type texts -/

def Definition.names (d : Definition) : String × List String :=
  (d.table, d.columns.map Column.name)

/-- A table with something for each of its columns, next to the column's name. -/
structure TableOf (α : Type) where
  name : String
  columns : List (String × α)
  deriving DecidableEq, Repr

namespace TableOf

def map {α β : Type} (f : α → β) (t : TableOf α) : TableOf β :=
  ⟨t.name, t.columns.map (Prod.map id f)⟩

theorem map_map {α β γ : Type} (f : α → β) (g : β → γ) (t : TableOf α) :
    (t.map f).map g = t.map (g ∘ f) := by
  simp [map, List.map_map]

theorem map_congr {α β : Type} {f g : α → β} {t : TableOf α}
    (h : ∀ column ∈ t.columns, f column.2 = g column.2) : t.map f = t.map g := by
  have hsame : t.columns.map (Prod.map id f) = t.columns.map (Prod.map id g) :=
    List.map_congr_left fun column hcolumn => Prod.ext rfl (h column hcolumn)
  rw [map, map, hsame]

def definition (t : TableOf (List Char)) : Definition :=
  ⟨t.name, t.columns.map fun column => ⟨column.1, .infer column.2⟩⟩

theorem definition_map_eq_iff {α : Type} {f g : α → List Char} {t : TableOf α} :
    (t.map f).definition = (t.map g).definition ↔
      ∀ column ∈ t.columns, ColumnType.infer (f column.2) = ColumnType.infer (g column.2) := by
  simp only [definition, map, List.map_map, Definition.mk.injEq, true_and, List.map_inj_left]
  exact forall₂_congr fun column _ => ⟨congrArg Column.type, congrArg (Column.mk column.1)⟩

/-- The names do not hang on the type texts. -/
theorem names_definition_map {α : Type} (f : α → List Char) (t : TableOf α) :
    (t.map f).definition.names = (t.name, t.columns.map Prod.fst) := by
  simp [Definition.names, definition, map, List.map_map, Function.comp_def]

end TableOf

/-- The name of the column that a part of a definition describes, and the lexemes of its type. -/
def typedColumn? : List Lexeme → Option (String × List Lexeme)
  | [] => none
  | l :: ls => do
    let name ← l.word?
    if constraintWords.any fun word => sameName word name then none
    else some (name, typeLexemes ls)

/-- The definition that starts at the front of some lexemes, with the lexemes of the types. -/
def typedAtFront? (ls : List Lexeme) : Option (TableOf (List Lexeme)) := do
  let rest ← after? [.keyword .CREATE, .keyword .TABLE] ls
  let (table, rest) ← tableName? (afterOptional ifNotExists rest)
  let body ← after? [.symbol .openParen] rest
  return ⟨table, (Group.read body).fragments.filterMap typedColumn?⟩

def typedTable? (ls : List Lexeme) : Option (TableOf (List Lexeme)) :=
  firstFrom typedAtFront? ls

/-- The first definition in a draft, with the source texts of the types. -/
def typeTexts? (draft : String) : Option (TableOf (List Char)) :=
  (typedTable? (lexemes draft)).map (TableOf.map Lexeme.source)

theorem ofFragment?_eq_map (part : List Lexeme) :
    Column.ofFragment? part = (typedColumn? part).map fun column =>
      ⟨column.1, .infer (Lexeme.source column.2)⟩ := by
  cases part with
  | nil => rfl
  | cons l ls =>
    rw [Column.ofFragment?, typedColumn?]
    cases l.word? with
    | none => rfl
    | some name =>
      simp only [Option.bind_eq_bind, Option.bind_some]
      split <;> rfl

theorem atFront?_eq_map (ls : List Lexeme) :
    Definition.atFront? ls =
      (typedAtFront? ls).map fun t => (t.map Lexeme.source).definition := by
  have hcolumns (body : List Lexeme) :
      (Group.read body).fragments.filterMap Column.ofFragment? =
        ((Group.read body).fragments.filterMap typedColumn?).map fun column =>
          ⟨column.1, .infer (Lexeme.source column.2)⟩ := by
    rw [List.map_filterMap]
    exact List.filterMap_congr fun part _ => ofFragment?_eq_map part
  rw [Definition.atFront?, typedAtFront?]
  cases after? [.keyword .CREATE, .keyword .TABLE] ls with
  | none => rfl
  | some rest =>
    simp only [Option.bind_eq_bind, Option.bind_some]
    cases tableName? (afterOptional ifNotExists rest) with
    | none => rfl
    | some found =>
      simp only [Option.bind_some]
      cases after? [.symbol .openParen] found.2 with
      | none => rfl
      | some body =>
        simp [hcolumns, TableOf.map, TableOf.definition]

/-- A definition is what it is with its type texts, with the types inferred from these. -/
theorem ofDraft?_eq_map (draft : String) :
    Definition.ofDraft? draft = (typeTexts? draft).map TableOf.definition := by
  have hread (ls : List Lexeme) : Definition.ofLexemes? ls =
      (typedTable? ls).map fun t => (t.map Lexeme.source).definition := by
    have hsame (ls : List Lexeme) : Definition.atFront? (ls.map id) =
        (typedAtFront? ls).map fun t => (t.map Lexeme.source).definition := by
      rw [List.map_id, atFront?_eq_map]
    have hfirst := firstFrom_map hsame ls
    rwa [List.map_id] at hfirst
  rw [Definition.ofDraft?, hread, typeTexts?, Option.map_map]
  rfl

section Change

variable {change : Lexeme → Lexeme}

theorem typedColumn?_map (h : Respelling id change) (hword : ∀ l, (change l).word? = l.word?)
    (part : List Lexeme) :
    typedColumn? (part.map change) = (typedColumn? part).map (Prod.map id (List.map change)) := by
  cases part with
  | nil => rfl
  | cons l ls =>
    rw [List.map_cons, typedColumn?, typedColumn?, hword, h.typeLexemes_map]
    cases l.word? with
    | none => rfl
    | some name =>
      simp only [Option.bind_eq_bind, Option.bind_some]
      split <;> rfl

theorem typedAtFront?_map (h : Respelling id change) (hword : ∀ l, (change l).word? = l.word?)
    (ls : List Lexeme) :
    typedAtFront? (ls.map change) = (typedAtFront? ls).map (TableOf.map (List.map change)) := by
  have hparts (body : List Lexeme) :
      (Group.read (body.map change)).fragments.filterMap typedColumn? =
        ((Group.read body).fragments.filterMap typedColumn?).map
          (Prod.map id (List.map change)) := by
    rw [h.read_map, List.map_filterMap]
    change List.filterMap _ ((Group.read body).fragments.map (List.map change)) = _
    rw [List.filterMap_map]
    exact List.filterMap_congr fun part _ => typedColumn?_map h hword part
  rw [typedAtFront?, typedAtFront?, h.after?_map (by decide)]
  cases after? [.keyword .CREATE, .keyword .TABLE] ls with
  | none => rfl
  | some rest =>
    have hguard : ∀ t ∈ ifNotExists, t.content? = none := by decide
    simp only [Option.map_some, Option.bind_eq_bind, Option.bind_some, h.afterOptional_map hguard,
      h.tableName?_map]
    cases tableName? (afterOptional ifNotExists rest) with
    | none => rfl
    | some found =>
      have hparen : ∀ t ∈ [Token.symbol .openParen], t.content? = none := by decide
      simp only [Option.map_some, Option.bind_some, Prod.map_fst, Prod.map_snd,
        h.after?_map hparen]
      cases after? [.symbol .openParen] found.2 with
      | none => rfl
      | some body =>
        simp only [Option.map_some, Option.bind_some, hparts]
        rfl

theorem typedTable?_map (h : Respelling id change) (hword : ∀ l, (change l).word? = l.word?)
    (ls : List Lexeme) :
    typedTable? (ls.map change) = (typedTable? ls).map (TableOf.map (List.map change)) :=
  firstFrom_map (typedAtFront?_map h hword) ls

end Change

/-- The lexemes of a type stand in one piece in the draft. -/
theorem isInfix_of_typedTable? {ls : List Lexeme} {t : TableOf (List Lexeme)}
    {column : String × List Lexeme} (h : typedTable? ls = some t) (hcolumn : column ∈ t.columns) :
    column.2 <:+: ls := by
  obtain ⟨front, back, rfl, hback⟩ := exists_of_firstFrom h
  obtain ⟨afterTable, hafter, hback⟩ := Option.bind_eq_some_iff.1 hback
  obtain ⟨⟨table, afterName⟩, hname, hback⟩ := Option.bind_eq_some_iff.1 hback
  obtain ⟨body, hbody, hback⟩ := Option.bind_eq_some_iff.1 hback
  obtain rfl := Option.some.inj hback
  obtain ⟨start, rfl, -⟩ := exists_append_of_after? hafter
  obtain ⟨guard, hguard, -⟩ := exists_append_afterOptional ifNotExists afterTable
  obtain ⟨named, hnamed, -⟩ := exists_append_of_tableName? hname
  obtain ⟨paren, rfl, -⟩ := exists_append_of_after? hbody
  obtain ⟨part, hpart, hcolumn⟩ := List.mem_filterMap.1 hcolumn
  have htype : column.2 <:+: part := by
    cases part with
    | nil => cases hcolumn
    | cons l ls =>
      obtain ⟨name, -, hcolumn⟩ := Option.bind_eq_some_iff.1 hcolumn
      split at hcolumn
      · cases hcolumn
      · obtain rfl := Option.some.inj hcolumn
        exact List.infix_cons (List.takeWhile_prefix _).isInfix
  have hbody : body <:+ front ++ (start ++ (guard ++ (named ++ (paren ++ body)))) :=
    ⟨front ++ (start ++ (guard ++ (named ++ paren))), by simp⟩
  rw [hguard, hnamed]
  exact (htype.trans (Group.isInfix_of_mem_fragments hpart)).trans hbody.isInfix

end SqlDraft
