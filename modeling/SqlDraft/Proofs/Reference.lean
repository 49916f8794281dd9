import SqlDraft.Reading.Reference

/-!
# Table references and tokens

Which table lexemes refer to can be told from their tokens: the gaps and the spelling have no say in
it.  `FirstNamed` describes the name that a shape leads to, and `firstFrom_nameAfter?_eq_some_iff`
says that this name is the one that is found.  After `TABLE`, where conditions may stand in front of
the name, `nameAfterTable?_eq_some_iff` describes what is read.
-/

namespace SqlDraft

/-! ## Shapes -/

theorem tokens_of_after? {shape : List Token} {ls rest : List Lexeme}
    (h : after? shape ls = some rest) :
    ls.map Lexeme.token = shape ++ rest.map Lexeme.token := by
  fun_induction after? shape ls with
  | case1 ls =>
    cases h
    rfl
  | case2 => cases h
  | case3 ts l ls ih => rw [List.map_cons, ih h, List.cons_append]
  | case4 => cases h

theorem exists_after?_of_tokens {shape ts : List Token} {ls : List Lexeme}
    (h : ls.map Lexeme.token = shape ++ ts) :
    ∃ rest, after? shape ls = some rest ∧ rest.map Lexeme.token = ts := by
  fun_induction after? shape ls with
  | case1 ls => exact ⟨ls, rfl, h⟩
  | case2 => cases h
  | case3 shape l ls ih => exact ih (List.cons.inj h).2
  | case4 t' shape l ls hne => exact absurd (List.cons.inj h).1 hne

theorem after?_eq_none {shape : List Token} {ls : List Lexeme}
    (h : ¬ shape <+: ls.map Lexeme.token) : after? shape ls = none := by
  cases hafter : after? shape ls with
  | none => rfl
  | some rest =>
    rw [tokens_of_after? hafter] at h
    exact absurd (List.prefix_append _ _) h

/-- A shape that may stand in front is taken off, and nothing else is. -/
theorem exists_afterOptional (shape : List Token) (ls : List Lexeme) :
    ∃ guard, (guard = [] ∨ guard = shape) ∧
      ls.map Lexeme.token = guard ++ (afterOptional shape ls).map Lexeme.token := by
  cases hafter : after? shape ls with
  | none =>
    refine ⟨[], .inl rfl, ?_⟩
    rw [afterOptional, hafter]
    rfl
  | some rest =>
    refine ⟨shape, .inr rfl, ?_⟩
    rw [afterOptional, hafter]
    exact tokens_of_after? hafter

theorem tokens_afterOptional {shape guard ts : List Token} {ls : List Lexeme}
    (hguard : guard = [] ∨ guard = shape) (hnot : ¬ shape <+: ts)
    (h : ls.map Lexeme.token = guard ++ ts) : (afterOptional shape ls).map Lexeme.token = ts := by
  rcases hguard with rfl | rfl
  · rw [List.nil_append] at h
    rw [← h] at hnot
    rw [afterOptional, after?_eq_none hnot]
    exact h
  · obtain ⟨rest, hrest, htokens⟩ := exists_after?_of_tokens h
    rw [afterOptional, hrest]
    exact htokens

/-! ## Names -/

/-- Whether tokens start with the name of a table, and what follows it.  Of a name in two parts, the
last part is the table's. -/
inductive TableName : List Token → String → List Token → Prop
  | plain {name : String} {rest : List Token}
      (hwhole : ∀ inner more, rest ≠ .symbol .dot :: .ident inner :: more) :
      TableName (.ident name :: rest) name rest
  | qualified {schema name : String} {rest : List Token} :
      TableName (.ident schema :: .symbol .dot :: .ident name :: rest) name rest

theorem TableName.exists_ident {ts rest : List Token} {name : String}
    (h : TableName ts name rest) : ∃ first more, ts = .ident first :: more := by
  cases h with
  | plain => exact ⟨_, _, rfl⟩
  | qualified => exact ⟨_, _, rfl⟩

theorem tableName_of_tableName? {ls rest : List Lexeme} {name : String}
    (h : tableName? ls = some (name, rest)) :
    TableName (ls.map Lexeme.token) name (rest.map Lexeme.token) := by
  unfold tableName? at h
  split at h
  · cases h
  split at h
  next l ls first hfirst =>
    rw [List.map_cons, hfirst]
    split at h
    next point inner more =>
      split at h
      next innerName hpoint hinner =>
        obtain ⟨rfl, rfl⟩ := Prod.mk.inj (Option.some.inj h)
        rw [List.map_cons, List.map_cons, hpoint, hinner]
        exact .qualified
      next hnot =>
        obtain ⟨rfl, rfl⟩ := Prod.mk.inj (Option.some.inj h)
        refine .plain fun innerName others heq => ?_
        obtain ⟨hpoint, heq⟩ := List.cons.inj heq
        exact hnot innerName hpoint (List.cons.inj heq).1
    next hshort =>
      obtain ⟨rfl, rfl⟩ := Prod.mk.inj (Option.some.inj h)
      refine .plain fun innerName others heq => ?_
      -- A point and a name are two lexemes, and there are not that many.
      obtain ⟨point, after, rfl, _, heq⟩ := List.map_eq_cons_iff.1 heq
      obtain ⟨inner, more, rfl, _, _⟩ := List.map_eq_cons_iff.1 heq
      exact hshort point inner more rfl
  · cases h

theorem exists_tableName?_of_tableName {ls : List Lexeme} {name : String} {ts : List Token}
    (h : TableName (ls.map Lexeme.token) name ts) :
    ∃ rest, tableName? ls = some (name, rest) ∧ rest.map Lexeme.token = ts := by
  generalize htokens : ls.map Lexeme.token = all at h
  cases h with
  | @plain _ _ hwhole =>
    obtain ⟨l, rest, rfl, hl, hrest⟩ := List.map_eq_cons_iff.1 htokens
    refine ⟨rest, ?_, hrest⟩
    simp only [tableName?, hl]
    split
    next point inner more =>
      split
      next innerName hpoint hinner =>
        rw [List.map_cons, List.map_cons, hpoint, hinner] at hrest
        exact absurd hrest.symm (hwhole innerName _)
      · rfl
    · rfl
  | qualified =>
    obtain ⟨l, rest, rfl, hl, htokens⟩ := List.map_eq_cons_iff.1 htokens
    obtain ⟨point, rest, rfl, hpoint, htokens⟩ := List.map_eq_cons_iff.1 htokens
    obtain ⟨inner, rest, rfl, hinner, htokens⟩ := List.map_eq_cons_iff.1 htokens
    refine ⟨rest, ?_, htokens⟩
    simp only [tableName?, hl, hpoint, hinner]

/-- Whether tokens start with a shape and the name of a table after it. -/
def NamedAfter (shape ts : List Token) (name : String) : Prop :=
  ∃ named rest, ts = shape ++ named ∧ TableName named name rest

theorem nameAfter?_eq_some_iff {shape : List Token} {ls : List Lexeme} {name : String} :
    nameAfter? shape ls = some name ↔ NamedAfter shape (ls.map Lexeme.token) name := by
  constructor
  · intro h
    obtain ⟨named, hafter, h⟩ := Option.bind_eq_some_iff.1 h
    obtain ⟨⟨found, rest⟩, hname, h⟩ := Option.bind_eq_some_iff.1 h
    obtain rfl : found = name := Option.some.inj h
    exact ⟨_, _, tokens_of_after? hafter, tableName_of_tableName? hname⟩
  · rintro ⟨named, rest, htokens, hname⟩
    obtain ⟨more, hafter, rfl⟩ := exists_after?_of_tokens htokens
    obtain ⟨_, hfound, _⟩ := exists_tableName?_of_tableName hname
    simp only [nameAfter?, hafter, hfound, Option.bind_eq_bind, Option.bind_some, pure]

/-- Whether tokens start with `TABLE` and the name of a table after it.  Conditions may stand in
front of the name. -/
def NamedAfterTable (ts : List Token) (name : String) : Prop :=
  ∃ create drop named rest, (create = [] ∨ create = ifNotExists) ∧ (drop = [] ∨ drop = ifExists) ∧
    ts = .keyword .TABLE :: (create ++ (drop ++ named)) ∧ TableName named name rest

theorem namedAfterTable_of_guard {guard named rest : List Token} {name : String}
    (hguard : guard = [] ∨ guard = ifNotExists ∨ guard = ifExists)
    (hname : TableName named name rest) :
    NamedAfterTable (.keyword .TABLE :: (guard ++ named)) name := by
  rcases hguard with rfl | rfl | rfl
  · exact ⟨[], [], named, rest, .inl rfl, .inl rfl, rfl, hname⟩
  · exact ⟨ifNotExists, [], named, rest, .inr rfl, .inl rfl, rfl, hname⟩
  · exact ⟨[], ifExists, named, rest, .inl rfl, .inr rfl, rfl, hname⟩

theorem nameAfterTable?_eq_some_iff {ls : List Lexeme} {name : String} :
    nameAfterTable? ls = some name ↔ NamedAfterTable (ls.map Lexeme.token) name := by
  constructor
  · intro h
    obtain ⟨conditions, hafter, h⟩ := Option.bind_eq_some_iff.1 h
    obtain ⟨⟨found, rest⟩, hname, h⟩ := Option.bind_eq_some_iff.1 h
    obtain rfl : found = name := Option.some.inj h
    obtain ⟨create, hcreate, hcreated⟩ := exists_afterOptional ifNotExists conditions
    obtain ⟨drop, hdrop, hdropped⟩ :=
      exists_afterOptional ifExists (afterOptional ifNotExists conditions)
    refine ⟨create, drop, _, _, hcreate, hdrop, ?_, tableName_of_tableName? hname⟩
    rw [tokens_of_after? hafter, hcreated, hdropped]
    rfl
  · rintro ⟨create, drop, named, rest, hcreate, hdrop, htokens, hname⟩
    obtain ⟨conditions, hafter, hconditions⟩ :=
      @exists_after?_of_tokens [.keyword .TABLE] (create ++ (drop ++ named)) ls htokens
    obtain ⟨first, more, hfirst⟩ := hname.exists_ident
    -- What follows a condition does not start with another one of its kind.
    have hcreated : ¬ ifNotExists <+: drop ++ named := by
      rcases hdrop with rfl | rfl <;> simp [hfirst, ifNotExists, ifExists]
    have hdropped : ¬ ifExists <+: named := by
      simp [hfirst, ifExists]
    have hguarded := tokens_afterOptional hdrop hdropped
      (tokens_afterOptional hcreate hcreated hconditions)
    rw [← hguarded] at hname
    obtain ⟨_, hfound, _⟩ := exists_tableName?_of_tableName hname
    simp only [nameAfterTable?, hafter, hfound, Option.bind_eq_bind, Option.bind_some, pure]

/-! ## First matches -/

theorem firstFrom_of_here {α : Type} {reading : List Lexeme → Option α} {l : Lexeme}
    {ls : List Lexeme} {a : α} (h : reading (l :: ls) = some a) :
    firstFrom reading (l :: ls) = some a := by
  rw [firstFrom, h, Option.some_or]

theorem firstFrom_of_not_here {α : Type} {reading : List Lexeme → Option α} {l : Lexeme}
    {ls : List Lexeme} (h : reading (l :: ls) = none) :
    firstFrom reading (l :: ls) = firstFrom reading ls := by
  rw [firstFrom, h, Option.none_or]

/-- The name that belongs to the first place from which on any does. -/
inductive FirstPlace (names : List Token → String → Prop) : List Token → String → Prop
  | here {t : Token} {ts : List Token} {name : String} (h : names (t :: ts) name) :
      FirstPlace names (t :: ts) name
  | later {t : Token} {ts : List Token} {name : String}
      (hnot : ∀ other, ¬ names (t :: ts) other) (h : FirstPlace names ts name) :
      FirstPlace names (t :: ts) name

theorem firstFrom_eq_some_iff {reading : List Lexeme → Option String}
    {names : List Token → String → Prop}
    (hreading : ∀ {ls name}, reading ls = some name ↔ names (ls.map Lexeme.token) name)
    {ls : List Lexeme} {name : String} :
    firstFrom reading ls = some name ↔ FirstPlace names (ls.map Lexeme.token) name := by
  induction ls with
  | nil => exact ⟨nofun, nofun⟩
  | cons l ls ih =>
    cases hhere : reading (l :: ls) with
    | some found =>
      have hfound := hreading.1 hhere
      rw [firstFrom_of_here hhere]
      constructor
      · intro h
        obtain rfl := Option.some.inj h
        exact .here hfound
      · intro h
        cases h with
        | here h =>
          rw [← hhere]
          exact hreading.2 h
        | later hnot _ => exact absurd hfound (hnot found)
    | none =>
      have hnot : ∀ other, ¬ names ((l :: ls).map Lexeme.token) other := by
        intro other h
        rw [← hreading, hhere] at h
        cases h
      rw [firstFrom_of_not_here hhere, ih]
      constructor
      · exact .later hnot
      · intro h
        cases h with
        | here h => exact absurd h (hnot name)
        | later _ h => exact h

/-- The name at the first place where a shape has the name of a table after it. -/
inductive FirstNamed (shape : List Token) : List Token → String → Prop
  | here {t : Token} {ts : List Token} {name : String} (h : NamedAfter shape (t :: ts) name) :
      FirstNamed shape (t :: ts) name
  | later {t : Token} {ts : List Token} {name : String}
      (hnot : ∀ other, ¬ NamedAfter shape (t :: ts) other) (h : FirstNamed shape ts name) :
      FirstNamed shape (t :: ts) name

theorem firstNamed_iff {shape ts : List Token} {name : String} :
    FirstNamed shape ts name ↔ FirstPlace (NamedAfter shape) ts name := by
  constructor
  · intro h
    induction h with
    | here h => exact .here h
    | later hnot _ ih => exact .later hnot ih
  · intro h
    induction h with
    | here h => exact .here h
    | later hnot _ ih => exact .later hnot ih

theorem firstFrom_nameAfter?_eq_some_iff {shape : List Token} {ls : List Lexeme} {name : String} :
    firstFrom (nameAfter? shape) ls = some name ↔
      FirstNamed shape (ls.map Lexeme.token) name := by
  rw [firstNamed_iff]
  exact firstFrom_eq_some_iff nameAfter?_eq_some_iff

/-- A shape that leads to a name has a name directly after it somewhere. -/
theorem FirstNamed.exists_infix {shape ts : List Token} {name : String}
    (h : FirstNamed shape ts name) : ∃ first, shape ++ [.ident first] <:+: ts := by
  induction h with
  | here h =>
    obtain ⟨named, rest, htokens, hname⟩ := h
    obtain ⟨first, more, rfl⟩ := hname.exists_ident
    refine ⟨first, [], more, ?_⟩
    rw [htokens, List.nil_append, List.append_assoc, List.singleton_append]
  | later _ _ ih =>
    obtain ⟨first, hinfix⟩ := ih
    exact ⟨first, List.infix_cons hinfix⟩

theorem exists_firstPlace_append {names : List Token → String → Prop} {t : Token}
    {ts : List Token} {name : String} (h : names (t :: ts) name) (front : List Token) :
    ∃ first, FirstPlace names (front ++ t :: ts) first := by
  induction front with
  | nil => exact ⟨name, .here h⟩
  | cons t' front ih =>
    by_cases hhere : ∃ first, names (t' :: (front ++ t :: ts)) first
    · obtain ⟨first, hfirst⟩ := hhere
      exact ⟨first, .here hfirst⟩
    · obtain ⟨first, hfirst⟩ := ih
      exact ⟨first, .later (fun other hother => hhere ⟨other, hother⟩) hfirst⟩

/-- Places whose first token rules every name out can be passed over. -/
theorem firstPlace_append_iff {names : List Token → String → Prop} {front rest : List Token}
    {name : String} (h : ∀ t ∈ front, ∀ ts other, ¬ names (t :: ts) other) :
    FirstPlace names (front ++ rest) name ↔ FirstPlace names rest name := by
  induction front with
  | nil => rfl
  | cons t front ih =>
    have hnot := h t (List.mem_cons_self ..) (front ++ rest)
    rw [← ih fun t' ht => h t' (List.mem_cons_of_mem t ht), List.cons_append]
    constructor
    · intro hfirst
      cases hfirst with
      | here hhere => exact absurd hhere (hnot name)
      | later _ hlater => exact hlater
    · exact .later hnot

/-- A shape is not found where its first token does not stand. -/
theorem firstNamed_append_iff {t : Token} {shape front rest : List Token} {name : String}
    (h : t ∉ front) :
    FirstNamed (t :: shape) (front ++ rest) name ↔ FirstNamed (t :: shape) rest name := by
  rw [firstNamed_iff, firstNamed_iff]
  apply firstPlace_append_iff
  rintro t' ht ts other ⟨named, more, heq, _⟩
  obtain rfl := (List.cons.inj heq).1
  exact h ht

theorem firstNamedAfterTable_append_iff {front rest : List Token} {name : String}
    (h : Token.keyword .TABLE ∉ front) :
    FirstPlace NamedAfterTable (front ++ rest) name ↔ FirstPlace NamedAfterTable rest name := by
  apply firstPlace_append_iff
  rintro t ht ts other ⟨_, _, named, more, _, _, heq, _⟩
  obtain rfl := (List.cons.inj heq).1
  exact h ht

/-- What a reading finds, it reads at some place. -/
theorem exists_of_firstFrom {α : Type} {reading : List Lexeme → Option α} {ls : List Lexeme} {a : α}
    (h : firstFrom reading ls = some a) :
    ∃ front back, ls = front ++ back ∧ reading back = some a := by
  induction ls with
  | nil => cases h
  | cons l ls ih =>
    cases hhere : reading (l :: ls) with
    | some found =>
      rw [firstFrom_of_here hhere] at h
      exact ⟨[], l :: ls, rfl, hhere.trans h⟩
    | none =>
      rw [firstFrom_of_not_here hhere] at h
      obtain ⟨front, back, rfl, hback⟩ := ih h
      exact ⟨l :: front, back, rfl, hback⟩

end SqlDraft
