import SqlDraft.Proofs.Appending
import SqlDraft.Proofs.Plan
import SqlDraft.Proofs.Reference

/-!
# Which table a submission fetches

A statement that changes a table names it right at its start, and what follows may name other
tables.  The submission is put between two fetches of the table that the draft refers to, and there
precedence decides: `INSERT INTO` before `FROM`, `FROM` before `UPDATE`, `UPDATE` before `TABLE`,
wherever they stand.  `Session.beginRun_brackets` says which table that is.
-/

namespace SqlDraft

/-- How a statement that changes a table opens, up to the name of the table.  With a guard,
`IF NOT EXISTS` or `IF EXISTS` belongs to it. -/
inductive Opening
  | insert
  | update
  | delete
  | create (guarded : Bool)
  | drop (guarded : Bool)

namespace Opening

def tokens : Opening → List Token
  | insert => [.keyword .INSERT, .keyword .INTO]
  | update => [.keyword .UPDATE]
  | delete => [.keyword .DELETE, .keyword .FROM]
  | create guarded => .keyword .CREATE :: .keyword .TABLE :: if guarded then ifNotExists else []
  | drop guarded => .keyword .DROP :: .keyword .TABLE :: if guarded then ifExists else []

/-- The shapes that have precedence over the one that an opening ends with, the highest first. -/
def outranking : Opening → List (List Token)
  | insert => []
  | delete => [[.keyword .INSERT, .keyword .INTO]]
  | update => [[.keyword .INSERT, .keyword .INTO], [.keyword .FROM]]
  | create _ | drop _ =>
    [[.keyword .INSERT, .keyword .INTO], [.keyword .FROM], [.keyword .UPDATE]]

theorem changesData_tokens_append (opening : Opening) (ts : List Token) :
    changesData (opening.tokens ++ ts) = true := by
  cases opening <;> rfl

end Opening

/-- The name that wins out of one that stands at the start and those that shapes lead to in the
rest: the first one after the highest shape that leads to any, and without such a shape the one at
the start. -/
inductive ByPrecedence (rest : List Token) (name : String) : List (List Token) → String → Prop
  | own : ByPrecedence rest name [] name
  | outranked {shape : List Token} {shapes : List (List Token)} {other : String}
      (h : FirstNamed shape rest other) : ByPrecedence rest name (shape :: shapes) other
  | passed {shape : List Token} {shapes : List (List Token)} {other : String}
      (hnone : ∀ found, ¬ FirstNamed shape rest found)
      (h : ByPrecedence rest name shapes other) : ByPrecedence rest name (shape :: shapes) other

theorem exists_byPrecedence (ls : List Lexeme) (name : String) (shapes : List (List Token)) :
    ∃ table, ByPrecedence (ls.map Lexeme.token) name shapes table ∧
      shapes.foldr (fun shape later => (firstFrom (nameAfter? shape) ls).or later) (some name) =
        some table := by
  induction shapes with
  | nil => exact ⟨name, .own, rfl⟩
  | cons shape shapes ih =>
    cases hfound : firstFrom (nameAfter? shape) ls with
    | some table =>
      refine ⟨table, .outranked (firstFrom_nameAfter?_eq_some_iff.1 hfound), ?_⟩
      rw [List.foldr_cons, hfound, Option.some_or]
    | none =>
      obtain ⟨table, hprecedence, hfold⟩ := ih
      refine ⟨table, .passed (fun found h => ?_) hprecedence, ?_⟩
      · rw [← firstFrom_nameAfter?_eq_some_iff, hfound] at h
        cases h
      · rw [List.foldr_cons, hfound, Option.none_or, hfold]

theorem ByPrecedence.of_append {front rest : List Token} {name table : String}
    {shapes : List (List Token)} (h : ByPrecedence (front ++ rest) name shapes table)
    (hfront : ∀ shape ∈ shapes, ∃ t ts, shape = t :: ts ∧ t ∉ front) :
    ByPrecedence rest name shapes table := by
  induction h with
  | own => exact .own
  | outranked h =>
    obtain ⟨t, ts, rfl, ht⟩ := hfront _ (List.mem_cons_self ..)
    exact .outranked ((firstNamed_append_iff ht).1 h)
  | passed hnone _ ih =>
    obtain ⟨t, ts, rfl, ht⟩ := hfront _ (List.mem_cons_self ..)
    refine .passed (fun found h => hnone found ((firstNamed_append_iff ht).2 h)) (ih ?_)
    exact fun shape hshape => hfront shape (List.mem_cons_of_mem _ hshape)

theorem ByPrecedence.eq_own {rest : List Token} {name table : String} {shapes : List (List Token)}
    (h : ByPrecedence rest name shapes table)
    (hnone : ∀ shape ∈ shapes, ∀ first, ¬ shape ++ [.ident first] <:+: rest) : table = name := by
  induction h with
  | own => rfl
  | outranked h =>
    obtain ⟨first, hinfix⟩ := h.exists_infix
    exact absurd hinfix (hnone _ (List.mem_cons_self ..) first)
  | passed _ _ ih => exact ih fun shape hshape => hnone shape (List.mem_cons_of_mem _ hshape)

/-! ## What a statement refers to -/

theorem TableName.exists_spelled {ts rest : List Token} {name : String}
    (h : TableName ts name rest) :
    ∃ spelled, ts = spelled ++ rest ∧ ∀ k, Token.keyword k ∉ spelled := by
  cases h with
  | @plain name rest => exact ⟨[.ident name], rfl, by simp⟩
  | @qualified schema name rest =>
    exact ⟨[.ident schema, .symbol .dot, .ident name], rfl, by simp⟩

namespace Opening

/-- No outranking shape starts in the opening or in the name after it. -/
theorem not_mem_of_outranking {opening : Opening} {spelled : List Token}
    (hspelled : ∀ k, Token.keyword k ∉ spelled) :
    ∀ shape ∈ opening.outranking, ∃ t ts, shape = t :: ts ∧ t ∉ opening.tokens ++ spelled := by
  intro shape hshape
  cases opening with
  | insert => cases hshape
  | delete | update =>
    simp only [outranking, List.mem_cons, List.not_mem_nil, or_false] at hshape
    rcases hshape with rfl | rfl <;> simp [tokens, hspelled]
  | create guarded | drop guarded =>
    simp only [outranking, List.mem_cons, List.not_mem_nil, or_false] at hshape
    rcases hshape with rfl | rfl | rfl <;> cases guarded <;>
      simp [tokens, hspelled, ifNotExists, ifExists]

theorem firstNamed_of_here {shape named rest : List Token} {t : Token} {name : String}
    (hname : TableName named name rest) : FirstNamed (t :: shape) (t :: shape ++ named) name :=
  .here ⟨named, rest, rfl, hname⟩

/-- The table that lexemes refer to that open like a statement that changes a table. -/
theorem tableReference?_eq_foldr {opening : Opening} {named rest : List Token} {name : String}
    {ls : List Lexeme} (htokens : ls.map Lexeme.token = opening.tokens ++ named)
    (hname : TableName named name rest) :
    tableReference? ls =
      opening.outranking.foldr
        (fun shape later => (firstFrom (nameAfter? shape) ls).or later) (some name) := by
  unfold tableReference?
  cases opening with
  | insert =>
    have hown : firstFrom (nameAfter? [.keyword .INSERT, .keyword .INTO]) ls = some name := by
      rw [firstFrom_nameAfter?_eq_some_iff, htokens]
      exact firstNamed_of_here hname
    rw [hown]
    rfl
  | update =>
    have hown : firstFrom (nameAfter? [.keyword .UPDATE]) ls = some name := by
      rw [firstFrom_nameAfter?_eq_some_iff, htokens]
      exact firstNamed_of_here hname
    rw [hown]
    rfl
  | delete =>
    have hown : firstFrom (nameAfter? [.keyword .FROM]) ls = some name := by
      rw [firstFrom_nameAfter?_eq_some_iff, htokens]
      refine .later ?_ (firstNamed_of_here hname)
      rintro other ⟨_, _, heq, _⟩
      cases heq
    rw [hown]
    rfl
  | create guarded | drop guarded =>
    obtain ⟨l, ls, rfl, hl, htable⟩ := List.map_eq_cons_iff.1 htokens
    obtain ⟨l', ls, rfl, hl', _⟩ := List.map_eq_cons_iff.1 htable
    have hnot : nameAfterTable? (l :: l' :: ls) = none := by
      simp [nameAfterTable?, after?, hl]
    have hhere : nameAfterTable? (l' :: ls) = some name := by
      rw [nameAfterTable?_eq_some_iff, htable]
      apply namedAfterTable_of_guard _ hname
      cases guarded <;> simp
    rw [firstFrom_of_not_here hnot, firstFrom_of_here hhere]
    rfl

end Opening

theorem exists_tableReference? {opening : Opening} {named rest : List Token} {name : String}
    {ls : List Lexeme} (htokens : ls.map Lexeme.token = opening.tokens ++ named)
    (hname : TableName named name rest) :
    ∃ table, ByPrecedence rest name opening.outranking table ∧ tableReference? ls = some table := by
  obtain ⟨table, hprecedence, hfold⟩ := exists_byPrecedence ls name opening.outranking
  obtain ⟨spelled, rfl, hspelled⟩ := hname.exists_spelled
  rw [htokens, ← List.append_assoc] at hprecedence
  refine ⟨table, hprecedence.of_append (Opening.not_mem_of_outranking hspelled), ?_⟩
  rw [Opening.tableReference?_eq_foldr htokens hname, hfold]

/-! ## What a submission fetches -/

theorem Run.query_start (draft : String) :
    (Run.start draft).query = String.ofList (trim draft.toList) := by
  unfold Run.start
  dsimp only
  split <;> rfl

/-- What is submitted has the tokens of the draft, unless the draft ends inside a quotation: that
quotation loses the white space at its end. -/
theorem Session.tokens_beginRun_query {s : Session} (hclosed : endsOpen s.draft.toList = false) :
    tokens s.beginRun.query = tokens s.draft := by
  change tokens (Run.start s.draft).query = tokens s.draft
  rw [Run.query_start, tokens_trim hclosed, String.ofList_toList]

theorem Plan.ofDraft_eq_bracketed {draft table : String}
    (hchange : changesData (tokens (Run.start draft).query) = true)
    (htable : referencedTable? (Run.start draft).query = some table) :
    Plan.ofDraft draft = .bracketed (Run.start draft).query table := by
  rw [Run.query_start] at hchange htable ⊢
  have hne : String.ofList (trim draft.toList) ≠ "" := by
    intro hempty
    rw [hempty] at hchange
    exact absurd hchange (by decide +kernel)
  simp only [Plan.ofDraft, if_neg hne, if_pos hchange, htable]

/-- A statement that opens by naming a table that it changes is submitted between two fetches of one
table.  It is the table named, unless in the rest a name stands after a shape that has precedence
over the opening's own; then it is the first name after the highest such shape.  What the submission
reports as the rows before and after are the answers to these fetches.  The statement has the tokens
of the draft unless the draft ends inside a quotation. -/
theorem Session.beginRun_brackets (s : Session) (opening : Opening) (name : String)
    (named rest : List Token) (hstatement : tokens s.beginRun.query = opening.tokens ++ named)
    (hname : TableName named name rest) :
    ∃ table, ByPrecedence rest name opening.outranking table ∧
      ((∀ shape ∈ opening.outranking, ∀ first, ¬ shape ++ [.ident first] <:+: rest) →
        table = name) ∧
      (∀ answers : List Answer,
        (answers.foldl Run.accept s.beginRun).next? =
          [Request.selectAll table, ⟨s.beginRun.query⟩, .selectAll table][answers.length]? ∧
        (answers.foldl Run.accept s.beginRun).submission.before =
          answers[0]?.map (Snapshot.ofAnswer table) ∧
        (answers.foldl Run.accept s.beginRun).submission.after =
          answers[2]?.map (Snapshot.ofAnswer table)) ∧
      (endsOpen s.draft.toList = false → tokens s.beginRun.query = tokens s.draft) := by
  obtain ⟨table, hprecedence, htable⟩ := exists_tableReference? hstatement hname
  refine ⟨table, hprecedence, hprecedence.eq_own, fun answers => ?_, tokens_beginRun_query⟩
  have hplan : Plan.ofDraft s.draft = .bracketed s.beginRun.query table := by
    apply Plan.ofDraft_eq_bracketed _ htable
    change changesData (tokens s.beginRun.query) = true
    rw [hstatement]
    exact opening.changesData_tokens_append named
  have hstart : s.beginRun = (Plan.bracketed s.beginRun.query table).run [] := by
    rw [← hplan]
    exact Plan.start_eq_run s.draft
  have hrun := Plan.foldl_accept_run (.bracketed s.beginRun.query table) [] answers
  rw [← hstart, List.nil_append] at hrun
  rw [hrun, Plan.next?_run, Plan.submission_run]
  exact ⟨rfl, rfl, rfl⟩

/-- A guarded definition is put between two fetches of the table that it defines. -/
theorem Session.beginRun_brackets_pets :
    tokens (new.setDraft "CREATE TABLE IF NOT EXISTS main.pets (id INT)").beginRun.query =
      (Opening.create true).tokens ++ [.ident "main", .symbol .dot, .ident "pets",
        .symbol .openParen, .ident "id", .ident "INT", .symbol .closeParen, .eof] ∧
    (new.setDraft "CREATE TABLE IF NOT EXISTS main.pets (id INT)").beginRun.next? =
      some (.selectAll "pets") := by
  have hstatement : tokens
      (new.setDraft "CREATE TABLE IF NOT EXISTS main.pets (id INT)").beginRun.query =
      (Opening.create true).tokens ++ [.ident "main", .symbol .dot, .ident "pets",
        .symbol .openParen, .ident "id", .ident "INT", .symbol .closeParen, .eof] := by
    decide +kernel
  obtain ⟨table, -, hown, hrequests, -⟩ := beginRun_brackets _ (.create true) "pets" _
    [.symbol .openParen, .ident "id", .ident "INT", .symbol .closeParen, .eof] hstatement
    .qualified
  have htable : table = "pets" := by
    apply hown
    intro shape hshape first hinfix
    -- Every outranking shape starts with a keyword, and the rest holds none.
    have hmem := fun t (ht : t ∈ shape ++ [Token.ident first]) => hinfix.subset ht
    simp only [Opening.outranking, List.mem_cons, List.not_mem_nil, or_false] at hshape
    rcases hshape with rfl | rfl | rfl <;> simpa using hmem _ (List.mem_cons_self ..)
  subst htable
  exact ⟨hstatement, (hrequests []).1⟩

/-- A subquery takes the fetches away from the table that is updated.  A name that is still open at
the end of the draft loses the white space there. -/
theorem Session.update_fetches_subquery_table :
    (tokens "UPDATE courses SET credits = (SELECT MAX(age) FROM students)").take 3 =
      [.keyword .UPDATE, .ident "courses", .ident "SET"] ∧
    Token.symbol .semicolon ∉
      tokens "UPDATE courses SET credits = (SELECT MAX(age) FROM students)" ∧
    (new.setDraft "UPDATE courses SET credits = (SELECT MAX(age) FROM students)").beginRun.next? =
      some (.selectAll "students") ∧
    Request.selectAll "students" ≠ .selectAll "courses" ∧
    tokens "DROP TABLE \"pets " = [.keyword .DROP, .keyword .TABLE, .ident "pets ", .eof] ∧
    (new.setDraft "DROP TABLE \"pets ").beginRun.next? = some (.selectAll "pets") ∧
    Request.selectAll "pets" ≠ .selectAll "pets " := by
  decide +kernel

end SqlDraft
