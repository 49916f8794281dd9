import SqlDraft.Proofs.Reference
import SqlDraft.Reading.Definition

/-!
# How a definition starts

A definition has a head, which opens it and names the table, and a body, which starts after a
parenthesis.  A definition is read where a head stands (`atFront?_of_opensDefinition`) and nowhere
else (`exists_opensDefinition`), and its columns are read off the body.
-/

namespace SqlDraft

/-- The tokens that name a table.  The name may have two parts, of which the last is the table's. -/
inductive NameTokens (table : String) : List Token → Prop
  | plain : NameTokens table [.ident table]
  | qualified {schema : String} : NameTokens table [.ident schema, .symbol .dot, .ident table]

theorem NameTokens.exists_ident {table : String} {ts : List Token} (h : NameTokens table ts) :
    ∃ first more, ts = .ident first :: more := by
  cases h with
  | plain => exact ⟨_, _, rfl⟩
  | qualified => exact ⟨_, _, rfl⟩

/-- The tokens that start a definition of a table, up to its name.  A condition may stand in front
of the name. -/
inductive DefinitionHead (table : String) : List Token → Prop
  | named {guard named : List Token} (hguard : guard = [] ∨ guard = ifNotExists)
      (hnamed : NameTokens table named) :
      DefinitionHead table ([.keyword .CREATE, .keyword .TABLE] ++ (guard ++ named))

/-- Whether lexemes start with the head of a definition and the parenthesis in front of its body. -/
def OpensDefinition (ls : List Lexeme) (table : String) (body : List Lexeme) : Prop :=
  ∃ head paren, ls = head ++ paren :: body ∧ DefinitionHead table (head.map Lexeme.token) ∧
    paren.token = .symbol .openParen

/-- The columns of a definition with the given body. -/
def columnsOf (body : List Lexeme) : List Column :=
  (Group.read body).fragments.filterMap Column.ofFragment?

/-! ## Shapes and names as lexemes -/

theorem after?_append {shape : List Token} {front : List Lexeme}
    (h : front.map Lexeme.token = shape) (rest : List Lexeme) :
    after? shape (front ++ rest) = some rest := by
  induction front generalizing shape with
  | nil =>
    obtain rfl : [] = shape := h
    rfl
  | cons l front ih =>
    obtain rfl : l.token :: front.map Lexeme.token = shape := h
    rw [List.cons_append, after?, if_pos rfl, ih rfl]

theorem exists_append_of_after? {shape : List Token} {ls rest : List Lexeme}
    (h : after? shape ls = some rest) :
    ∃ front, ls = front ++ rest ∧ front.map Lexeme.token = shape := by
  fun_induction after? shape ls with
  | case1 ls =>
    obtain rfl := Option.some.inj h
    exact ⟨[], rfl, rfl⟩
  | case2 => cases h
  | case3 shape l ls ih =>
    obtain ⟨front, rfl, hfront⟩ := ih h
    exact ⟨l :: front, rfl, by rw [List.map_cons, hfront]⟩
  | case4 => cases h

theorem exists_append_afterOptional (shape : List Token) (ls : List Lexeme) :
    ∃ front, ls = front ++ afterOptional shape ls ∧
      (front.map Lexeme.token = [] ∨ front.map Lexeme.token = shape) := by
  rw [afterOptional]
  cases hafter : after? shape ls with
  | none => exact ⟨[], rfl, .inl rfl⟩
  | some rest =>
    obtain ⟨front, rfl, hfront⟩ := exists_append_of_after? hafter
    exact ⟨front, rfl, .inr hfront⟩

theorem exists_append_of_tableName? {ls rest : List Lexeme} {table : String}
    (h : tableName? ls = some (table, rest)) :
    ∃ named, ls = named ++ rest ∧ NameTokens table (named.map Lexeme.token) := by
  cases ls with
  | nil => cases h
  | cons l ls =>
    have hplain {first : String} (hfirst : l.token = .ident first)
        (h : some (first, ls) = some (table, rest)) :
        ∃ named, l :: ls = named ++ rest ∧ NameTokens table (named.map Lexeme.token) := by
      obtain ⟨rfl, rfl⟩ := Prod.mk.inj (Option.some.inj h)
      refine ⟨[l], rfl, ?_⟩
      rw [List.map_singleton, hfirst]
      exact .plain
    simp only [tableName?] at h
    split at h
    next first hfirst =>
      split at h
      next point inner more =>
        split at h
        next innerName hpoint hinner =>
          obtain ⟨rfl, rfl⟩ := Prod.mk.inj (Option.some.inj h)
          refine ⟨[l, point, inner], rfl, ?_⟩
          simp only [List.map_cons, List.map_nil, hfirst, hpoint, hinner]
          exact .qualified
        next => exact hplain hfirst h
      next => exact hplain hfirst h
    next => cases h

theorem tableName?_append {named : List Lexeme} {paren : Lexeme} {table : String}
    (h : NameTokens table (named.map Lexeme.token)) (hparen : paren.token = .symbol .openParen)
    (rest : List Lexeme) :
    tableName? (named ++ paren :: rest) = some (table, paren :: rest) := by
  generalize htokens : named.map Lexeme.token = ts at h
  cases h with
  | plain =>
    obtain ⟨l, nothing, rfl, hl, hnothing⟩ := List.map_eq_cons_iff.1 htokens
    obtain rfl := List.map_eq_nil_iff.1 hnothing
    cases rest with
    | nil => simp only [List.cons_append, List.nil_append, tableName?, hl]
    | cons inner rest => simp only [List.cons_append, List.nil_append, tableName?, hl, hparen]
  | qualified =>
    obtain ⟨l, named, rfl, hl, htokens⟩ := List.map_eq_cons_iff.1 htokens
    obtain ⟨point, named, rfl, hpoint, htokens⟩ := List.map_eq_cons_iff.1 htokens
    obtain ⟨inner, nothing, rfl, hinner, hnothing⟩ := List.map_eq_cons_iff.1 htokens
    obtain rfl := List.map_eq_nil_iff.1 hnothing
    simp only [List.cons_append, List.nil_append, tableName?, hl, hpoint, hinner]

/-! ## Reading a definition -/

theorem atFront?_of_opensDefinition {ls body : List Lexeme} {table : String}
    (h : OpensDefinition ls table body) :
    Definition.atFront? ls = some ⟨table, columnsOf body⟩ := by
  obtain ⟨head, paren, rfl, hhead, hparen⟩ := h
  generalize htokens : head.map Lexeme.token = ts at hhead
  obtain ⟨hguard, hnamed⟩ := hhead
  obtain ⟨start, conditions, rfl, hstart, htokens⟩ := List.map_eq_append_iff.1 htokens
  obtain ⟨guard, named, rfl, rfl, rfl⟩ := List.map_eq_append_iff.1 htokens
  have hoptional : afterOptional ifNotExists (guard ++ (named ++ paren :: body)) =
      named ++ paren :: body := by
    rcases hguard with hguard | hguard
    · obtain rfl := List.map_eq_nil_iff.1 hguard
      -- A name does not start the way a condition does.
      have hnot : ¬ ifNotExists <+: (named ++ paren :: body).map Lexeme.token := by
        obtain ⟨first, more, hfirst⟩ := hnamed.exists_ident
        simp [hfirst, ifNotExists]
      rw [List.nil_append, afterOptional, after?_eq_none hnot, Option.getD_none]
    · rw [afterOptional, after?_append hguard, Option.getD_some]
  have hbody : after? [.symbol .openParen] (paren :: body) = some body := by
    rw [after?, if_pos hparen, after?]
  simp only [Definition.atFront?, List.append_assoc, after?_append hstart, hoptional,
    tableName?_append hnamed hparen, hbody, bind, Option.bind]
  rfl

theorem exists_opensDefinition {ls : List Lexeme} {d : Definition}
    (h : Definition.atFront? ls = some d) :
    ∃ body, OpensDefinition ls d.table body ∧ d.columns = columnsOf body := by
  obtain ⟨condition, hafter, h⟩ := Option.bind_eq_some_iff.1 h
  obtain ⟨⟨table, rest⟩, hname, h⟩ := Option.bind_eq_some_iff.1 h
  obtain ⟨body, hbody, h⟩ := Option.bind_eq_some_iff.1 h
  obtain rfl := Option.some.inj h
  obtain ⟨start, rfl, hstart⟩ := exists_append_of_after? hafter
  obtain ⟨guard, hsplit, hguard⟩ := exists_append_afterOptional ifNotExists condition
  obtain ⟨named, hnamedSplit, hnamed⟩ := exists_append_of_tableName? hname
  obtain ⟨parens, rfl, hparens⟩ := exists_append_of_after? hbody
  obtain ⟨paren, nothing, rfl, hparen, hnothing⟩ := List.map_eq_cons_iff.1 hparens
  obtain rfl := List.map_eq_nil_iff.1 hnothing
  refine ⟨body, ⟨start ++ guard ++ named, paren, ?_, ?_, hparen⟩, rfl⟩
  · rw [hsplit, hnamedSplit]
    simp only [List.append_assoc, List.cons_append, List.nil_append]
  · rw [List.append_assoc, List.map_append, List.map_append, hstart]
    exact .named hguard hnamed

end SqlDraft
