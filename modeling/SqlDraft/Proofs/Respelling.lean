import SqlDraft.Proofs.ValueGroups
import SqlDraft.Proofs.Words
import SqlDraft.Roadmap.Check

/-!
# Lexemes in other words

What a draft says hangs on its keywords and marks and on the names between them, not on what its
literals hold, nor on the case of the letters in its names.  A change of lexemes that keeps to that
goes through every reading of a draft: the reading of the changed lexemes is the changed reading.
`tableReference?_map`, `ofLexemes?_map` and `valueGroups_map` say so of tables, definitions and
values.
-/

namespace SqlDraft

/-! ## Changes -/

/-- Whether the second token is the first one with its name changed in the given way and any
content if it is a literal. -/
inductive Token.Respelled (rename : String → String) : Token → Token → Prop
  | keyword (k : Keyword) : Respelled rename (.keyword k) (.keyword k)
  | symbol (mark : Symbol) : Respelled rename (.symbol mark) (.symbol mark)
  | ident (name : String) : Respelled rename (.ident name) (.ident (rename name))
  | str (content content' : String) : Respelled rename (.str content) (.str content')
  | num (digits digits' : String) : Respelled rename (.num digits) (.num digits')
  | eof : Respelled rename .eof .eof

/-- Whether a change of lexemes changes names in the given way, which is no more than the case of
their letters, and no other token but literals. -/
structure Respelling (rename : String → String) (change : Lexeme → Lexeme) : Prop where
  token (l : Lexeme) : l.token.Respelled rename (change l).token
  sameName (name : String) : sameName name (rename name) = true

namespace Token.Respelled

variable {rename : String → String} {t u : Token}

/-- Keywords, marks and the end stay what they are, and nothing else becomes one of them. -/
theorem eq_iff (h : t.Respelled rename u) {fixed : Token} (hfixed : fixed.content? = none) :
    u = fixed ↔ t = fixed := by
  cases h <;> cases fixed <;> simp_all [content?]

theorem beq_eq (h : t.Respelled rename u) {fixed : Token} (hfixed : fixed.content? = none) :
    (u == fixed) = (t == fixed) := by
  rw [Bool.eq_iff_iff, beq_iff_eq, beq_iff_eq]
  exact h.eq_iff hfixed

end Token.Respelled

theorem sameName_rename {rename : String → String} {name : String}
    (h : sameName name (rename name) = true) (word : String) :
    sameName word (rename name) = sameName word name := by
  rw [Bool.eq_iff_iff]
  exact ⟨fun hword => sameName_trans hword (sameName_symm h), fun hword => sameName_trans hword h⟩

/-! ## Tokens -/

section Tokens

variable {rename : String → String} {ts us : List Token}

theorem occurs_respelled {run : List Token} (hrun : ∀ t ∈ run, t.content? = none)
    (h : List.Forall₂ (Token.Respelled rename) ts us) : occurs run us = occurs run ts := by
  have hfits : ∀ fixed ∈ run, ∀ t u, Token.Respelled rename t u → (t == fixed) = (u == fixed) :=
    fun fixed hfixed _ _ h => (h.beq_eq (hrun fixed hfixed)).symm
  exact (occursBy_congr hfits h).symm

theorem contains_respelled {fixed : Token} (hfixed : fixed.content? = none)
    (h : List.Forall₂ (Token.Respelled rename) ts us) : us.contains fixed = ts.contains fixed := by
  induction h with
  | nil => rfl
  | cons hfirst _ ih =>
    rw [List.contains_cons, List.contains_cons, ih, BEq.comm, hfirst.beq_eq hfixed, BEq.comm]

theorem dropWhile_respelled {fixed : Token} (hfixed : fixed.content? = none)
    (h : List.Forall₂ (Token.Respelled rename) ts us) :
    List.Forall₂ (Token.Respelled rename) (ts.dropWhile fun t => t != fixed)
      (us.dropWhile fun t => t != fixed) := by
  induction h with
  | nil => exact .nil
  | @cons t u ts us hfirst h ih =>
    have hsame : (u != fixed) = (t != fixed) := congrArg not (hfirst.beq_eq hfixed)
    rw [List.dropWhile_cons, List.dropWhile_cons, hsame]
    split
    · exact ih
    · exact .cons hfirst h

theorem dropsTable_respelled (h : List.Forall₂ (Token.Respelled rename) ts us) :
    dropsTable us = dropsTable ts :=
  occurs_respelled (by decide) h

section Names

variable (hrename : ∀ name, sameName name (rename name) = true)

include hrename

theorem any_sameName_rename (words : List String) (name : String) :
    (words.any fun word => sameName word (rename name)) =
      words.any fun word => sameName word name := by
  simp only [sameName_rename (hrename name)]

theorem changesData_respelled (h : List.Forall₂ (Token.Respelled rename) ts us) :
    changesData us = changesData ts := by
  cases h with
  | nil => rfl
  | cons hfirst _ =>
    cases hfirst with
    | ident name => exact any_sameName_rename hrename changingNames name
    | _ => rfl

theorem isAggregate_respelled {t u : Token} (h : t.Respelled rename u) :
    Check.isAggregate u = Check.isAggregate t := by
  cases h with
  | ident name => exact any_sameName_rename hrename Check.aggregateNames name
  | _ => rfl

theorem holdsIn_respelled (check : Check) (h : List.Forall₂ (Token.Respelled rename) ts us) :
    check.holdsIn us = check.holdsIn ts := by
  cases check with
  | aggregateCall =>
    change us.any Check.isAggregate = ts.any Check.isAggregate
    induction h with
    | nil => rfl
    | cons hfirst _ ih =>
      rw [List.any_cons, List.any_cons, ih, isAggregate_respelled hrename hfirst]
  | fromClause | asAlias | whereClause | selectKeyword => exact contains_respelled rfl h
  | deleteFrom | createTable | ifNotExists => exact occurs_respelled (by decide) h
  | parenGroup => exact contains_respelled rfl (dropWhile_respelled rfl h)

theorem endsType_respelled {t u : Token} (h : t.Respelled rename u) : endsType u = endsType t := by
  cases h with
  | ident name => exact any_sameName_rename hrename clauseNames name
  | _ => rfl

end Names

end Tokens

/-! ## Tables -/

namespace Respelling

variable {rename : String → String} {change : Lexeme → Lexeme}

theorem tokens (h : Respelling rename change) (ls : List Lexeme) :
    List.Forall₂ (Token.Respelled rename) (ls.map Lexeme.token)
      ((ls.map change).map Lexeme.token) := by
  rw [List.map_map, List.forall₂_map_left_iff, List.forall₂_map_right_iff, List.forall₂_same]
  exact fun l _ => h.token l

theorem token_eq_iff (h : Respelling rename change) (l : Lexeme) {fixed : Token}
    (hfixed : fixed.content? = none) : (change l).token = fixed ↔ l.token = fixed :=
  (h.token l).eq_iff hfixed

theorem token_eq (h : Respelling rename change) {l : Lexeme} {fixed : Token}
    (hfixed : fixed.content? = none) (hl : l.token = fixed) : (change l).token = fixed :=
  (h.token_eq_iff l hfixed).2 hl

theorem token_ne (h : Respelling rename change) {l : Lexeme} {fixed : Token}
    (hfixed : fixed.content? = none) (hl : l.token ≠ fixed) : (change l).token ≠ fixed :=
  fun hl' => hl ((h.token_eq_iff l hfixed).1 hl')

theorem after?_map (h : Respelling rename change) {shape : List Token}
    (hshape : ∀ t ∈ shape, t.content? = none) (ls : List Lexeme) :
    after? shape (ls.map change) = (after? shape ls).map (List.map change) := by
  induction shape generalizing ls with
  | nil => rfl
  | cons fixed shape ih =>
    obtain ⟨hfixed, hshape⟩ := List.forall_mem_cons.1 hshape
    cases ls with
    | nil => rfl
    | cons l ls =>
      rw [List.map_cons, after?, after?]
      by_cases hl : l.token = fixed
      · rw [if_pos hl, if_pos (h.token_eq hfixed hl), ih hshape]
      · rw [if_neg hl, if_neg (h.token_ne hfixed hl)]
        rfl

theorem afterOptional_map (h : Respelling rename change) {shape : List Token}
    (hshape : ∀ t ∈ shape, t.content? = none) (ls : List Lexeme) :
    afterOptional shape (ls.map change) = (afterOptional shape ls).map change := by
  rw [afterOptional, afterOptional, h.after?_map hshape]
  cases after? shape ls <;> rfl

theorem tableName?_map (h : Respelling rename change) (ls : List Lexeme) :
    tableName? (ls.map change) =
      (tableName? ls).map (Prod.map rename (List.map change)) := by
  cases ls with
  | nil => rfl
  | cons l ls =>
    have hl := h.token l
    rw [List.map_cons, tableName?, tableName?]
    generalize l.token = t, (change l).token = u at hl
    cases hl with
    | ident name =>
      rcases ls with _ | ⟨point, _ | ⟨inner, rest⟩⟩
      · rfl
      · rfl
      · have hpoint := h.token point
        have hinner := h.token inner
        simp only [List.map_cons]
        generalize point.token = t, (change point).token = u at hpoint
        generalize inner.token = v, (change inner).token = w at hinner
        -- Only after a point a name follows that counts.
        cases hpoint with
        | symbol mark =>
          cases mark with
          | dot => cases hinner <;> rfl
          | _ => rfl
        | _ => rfl
    | _ => rfl

theorem nameAfter?_map (h : Respelling rename change) {shape : List Token}
    (hshape : ∀ t ∈ shape, t.content? = none) (ls : List Lexeme) :
    nameAfter? shape (ls.map change) = (nameAfter? shape ls).map rename := by
  rw [nameAfter?, nameAfter?, h.after?_map hshape]
  cases after? shape ls with
  | none => rfl
  | some rest =>
    simp only [Option.map_some, Option.bind_eq_bind, Option.bind_some, h.tableName?_map]
    cases tableName? rest <;> rfl

theorem nameAfterTable?_map (h : Respelling rename change) (ls : List Lexeme) :
    nameAfterTable? (ls.map change) = (nameAfterTable? ls).map rename := by
  rw [nameAfterTable?, nameAfterTable?, h.after?_map (by decide)]
  cases after? [.keyword .TABLE] ls with
  | none => rfl
  | some rest =>
    have hcreate : ∀ t ∈ ifNotExists, t.content? = none := by decide
    have hdrop : ∀ t ∈ ifExists, t.content? = none := by decide
    simp only [Option.map_some, Option.bind_eq_bind, Option.bind_some,
      h.afterOptional_map hcreate, h.afterOptional_map hdrop, h.tableName?_map]
    cases tableName? (afterOptional ifExists (afterOptional ifNotExists rest)) <;> rfl

end Respelling

theorem firstFrom_map {α β : Type} {reading : List Lexeme → Option α}
    {reading' : List Lexeme → Option β} {change : Lexeme → Lexeme} {f : α → β}
    (h : ∀ ls, reading' (ls.map change) = (reading ls).map f) (ls : List Lexeme) :
    firstFrom reading' (ls.map change) = (firstFrom reading ls).map f := by
  induction ls with
  | nil => rfl
  | cons l ls ih =>
    rw [List.map_cons, firstFrom, firstFrom, ih, ← List.map_cons, h]
    cases reading (l :: ls) <;> rfl

/-- The table that changed lexemes refer to is the one that they referred to before. -/
theorem Respelling.tableReference?_map {rename : String → String} {change : Lexeme → Lexeme}
    (h : Respelling rename change) (ls : List Lexeme) :
    tableReference? (ls.map change) = (tableReference? ls).map rename := by
  rw [tableReference?, tableReference?, firstFrom_map (h.nameAfter?_map (by decide)),
    firstFrom_map (h.nameAfter?_map (by decide)), firstFrom_map (h.nameAfter?_map (by decide)),
    firstFrom_map h.nameAfterTable?_map]
  simp only [Option.map_or]

/-! ## Groups -/

def Group.map (change : Lexeme → Lexeme) (g : Group) : Group :=
  ⟨g.first.map change, g.others.map (List.map change), g.rest.map change⟩

namespace Respelling

variable {rename : String → String} {change : Lexeme → Lexeme}

theorem readAt_map (h : Respelling rename change) (depth : Nat) (ls : List Lexeme) :
    Group.readAt depth (ls.map change) = (Group.readAt depth ls).map change := by
  have hpush (l : Lexeme) (g : Group) :
      (Group.push l g).map change = Group.push (change l) (g.map change) := rfl
  fun_induction Group.readAt depth ls with
  | case1 => rfl
  | case2 depth l ls hl => exact Group.readAt_eof (h.token_eq rfl hl) _
  | case3 depth l ls hl ih =>
    rw [List.map_cons, Group.readAt_openParen (h.token_eq rfl hl), ih, hpush]
  | case4 l ls hl => exact Group.readAt_zero_closeParen (h.token_eq rfl hl) _
  | case5 l ls hl depth ih =>
    rw [List.map_cons, Group.readAt_succ_closeParen (h.token_eq rfl hl), ih, hpush]
  | case6 l ls hl ih =>
    rw [List.map_cons, Group.readAt_zero_comma (h.token_eq rfl hl), ih]
    rfl
  | case7 l ls hl depth ih =>
    have hcomma : (change l).token = .symbol .comma := h.token_eq rfl hl
    rw [List.map_cons, Group.readAt_plain (by simp [hcomma]) (by simp [hcomma]) (by simp [hcomma])
      fun _ => Nat.succ_ne_zero depth, ih, hpush]
  | case8 depth l ls heof hopen hclose hcomma ih =>
    rw [List.map_cons, Group.readAt_plain (h.token_ne rfl hopen) (h.token_ne rfl hclose)
      (h.token_ne rfl heof) fun hl => absurd hl (h.token_ne rfl hcomma), ih, hpush]

theorem read_map (h : Respelling rename change) (ls : List Lexeme) :
    Group.read (ls.map change) = (Group.read ls).map change :=
  h.readAt_map 0 ls

theorem groupsAtFront_map (h : Respelling rename change) (ls : List Lexeme) :
    groupsAtFront (ls.map change) = (groupsAtFront ls).map (Group.map change) := by
  -- What follows a group is changed with it, and so is the comma in front of the next one.
  have hcons {paren : Lexeme} {body : List Lexeme} (hparen : paren.token = .symbol .openParen) :
      groupsAtFront ((paren :: body).map change) =
        (Group.read body).map change :: laterGroups ((Group.read body).rest.map change) := by
    rw [List.map_cons, groupsAtFront_cons (h.token_eq rfl hparen), h.read_map]
    rfl
  fun_induction groupsAtFront ls with
  | case1 => rw [List.map_nil, groupsAtFront, List.map_nil]
  | case2 paren body hparen group comma rest hrest _ hcomma ih =>
    rw [hcons hparen, show (Group.read body).rest = _ from hrest, List.map_cons, laterGroups,
      if_pos (h.token_eq rfl hcomma), ih, List.map_cons]
  | case3 paren body hparen group comma rest hrest _ hcomma =>
    rw [hcons hparen, show (Group.read body).rest = _ from hrest, List.map_cons, laterGroups,
      if_neg (h.token_ne rfl hcomma), List.map_singleton]
  | case4 paren body hparen group hrest =>
    rw [hcons hparen, show (Group.read body).rest = _ from hrest, List.map_nil, laterGroups,
      List.map_singleton]
  | case5 paren body hparen => exact groupsAtFront_of_ne (h.token_ne rfl hparen) _

/-- The groups of values of changed lexemes are those that were there before, changed. -/
theorem valueGroups_map (h : Respelling rename change) (ls : List Lexeme) :
    valueGroups (ls.map change) = (valueGroups ls).map (Group.map change) := by
  induction ls with
  | nil => rfl
  | cons l ls ih =>
    rw [List.map_cons, valueGroups, valueGroups, ih, h.groupsAtFront_map]
    by_cases hl : l.token = .keyword .VALUES
    · rw [if_pos hl, if_pos (h.token_eq rfl hl), List.map_append]
    · rw [if_neg hl, if_neg (h.token_ne rfl hl)]

end Respelling

/-! ## Definitions -/

def Column.respell (rename : String → String) (c : Column) : Column :=
  ⟨rename c.name, c.type⟩

def Definition.respell (rename : String → String) (d : Definition) : Definition :=
  ⟨rename d.table, d.columns.map (Column.respell rename)⟩

namespace Respelling

variable {rename : String → String} {change : Lexeme → Lexeme}

theorem typeLexemes_map (h : Respelling rename change) (ls : List Lexeme) :
    typeLexemes (ls.map change) = (typeLexemes ls).map change := by
  rw [typeLexemes, typeLexemes, List.takeWhile_map]
  congr 2
  funext l
  exact congrArg not (endsType_respelled h.sameName (h.token l))

/-- A change leaves columns their types if it changes words the way that it changes names, and if
it leaves the types of type texts. -/
theorem ofFragment?_map (h : Respelling rename change)
    (hword : ∀ l, (change l).word? = l.word?.map rename)
    (htype : ∀ ls, (∀ l ∈ ls, endsType l.token = false) →
      ColumnType.infer (Lexeme.source (ls.map change)) = ColumnType.infer (Lexeme.source ls))
    (part : List Lexeme) :
    Column.ofFragment? (part.map change) =
      (Column.ofFragment? part).map (Column.respell rename) := by
  cases part with
  | nil => rfl
  | cons l ls =>
    have hends : ∀ l ∈ typeLexemes ls, endsType l.token = false := fun l hl => by
      simpa using List.all_eq_true.1 List.all_takeWhile l hl
    rw [List.map_cons, Column.ofFragment?, Column.ofFragment?, hword, h.typeLexemes_map,
      htype _ hends]
    cases l.word? with
    | none => rfl
    | some name =>
      simp only [Option.map_some, Option.bind_eq_bind, Option.bind_some,
        any_sameName_rename h.sameName]
      split <;> rfl

theorem atFront?_map (h : Respelling rename change)
    (hcolumn : ∀ part, Column.ofFragment? (part.map change) =
      (Column.ofFragment? part).map (Column.respell rename)) (ls : List Lexeme) :
    Definition.atFront? (ls.map change) =
      (Definition.atFront? ls).map (Definition.respell rename) := by
  have hparts (body : List Lexeme) :
      (Group.read (body.map change)).fragments.filterMap Column.ofFragment? =
        ((Group.read body).fragments.filterMap Column.ofFragment?).map (Column.respell rename) := by
    rw [h.read_map, List.map_filterMap]
    change List.filterMap _ ((Group.read body).fragments.map (List.map change)) = _
    rw [List.filterMap_map]
    exact List.filterMap_congr fun part _ => hcolumn part
  rw [Definition.atFront?, Definition.atFront?, h.after?_map (by decide)]
  cases after? [.keyword .CREATE, .keyword .TABLE] ls with
  | none => rfl
  | some rest =>
    have hguard : ∀ t ∈ ifNotExists, t.content? = none := by decide
    simp only [Option.map_some, Option.bind_eq_bind, Option.bind_some, h.afterOptional_map hguard,
      h.tableName?_map]
    cases tableName? (afterOptional ifNotExists rest) with
    | none => rfl
    | some found =>
      have hparen : ∀ t ∈ [Token.symbol .openParen], t.content? = none := by decide
      simp only [Option.map_some, Option.bind_some, Prod.map_fst, Prod.map_snd,
        h.after?_map hparen]
      cases after? [.symbol .openParen] found.2 with
      | none => rfl
      | some body =>
        simp only [Option.map_some, Option.bind_some, hparts]
        rfl

theorem ofLexemes?_map (h : Respelling rename change)
    (hcolumn : ∀ part, Column.ofFragment? (part.map change) =
      (Column.ofFragment? part).map (Column.respell rename)) (ls : List Lexeme) :
    Definition.ofLexemes? (ls.map change) =
      (Definition.ofLexemes? ls).map (Definition.respell rename) :=
  firstFrom_map (h.atFront?_map hcolumn) ls

end Respelling

end SqlDraft
