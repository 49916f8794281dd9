import SqlDraft.Proofs.DefinitionHead
import SqlDraft.Proofs.Insertion
import SqlDraft.Proofs.Lexemes
import SqlDraft.Proofs.Nesting

/-!
# Typing on

A draft is read again after every key.  What has been read of it before stays, as far as it was
complete: text at the end can change the last lexeme and nothing in front of it
(`exists_lexemes_append`).  `append_keeps_complete` says so of the columns of a definition and of
rows of values.
-/

namespace SqlDraft

/-! ## The lexemes of a longer draft -/

/-- What can follow the lexemes of a draft that stay when more is typed: its end, and in front of
it maybe a lexeme that the next key goes into.  That lexeme is no symbol, since a symbol is
complete. -/
inductive Unfinished : List Lexeme → Prop
  | eof {last : Lexeme} (hlast : last.token = .eof) : Unfinished [last]
  | lexeme {l last : Lexeme} (hl : ∀ mark, l.token ≠ .symbol mark) (hend : l.token ≠ .eof)
      (hlast : last.token = .eof) : Unfinished [l, last]

/-- What is typed at the end goes into the last lexeme or comes after it. -/
theorem exists_lexemes_append (s : String) :
    ∃ kept tail, lexemes s = kept ++ tail ∧ (∀ l ∈ kept, l.token ≠ .eof) ∧ Unfinished tail ∧
      ∀ t, ∃ rest, lexemes (s ++ t) = kept ++ rest := by
  cases htext : s.toList with
  | nil =>
    refine ⟨[], lexemes s, rfl, nofun, ?_, fun t => ⟨_, rfl⟩⟩
    rw [lexemes, htext]
    exact .eof rfl
  | cons c cs =>
    obtain ⟨front, last, later, hpieces, hwhole, happend⟩ := exists_pieces_append c cs
    have hfront : ∀ p ∈ front, p.token? ≠ some .eof := fun p hp =>
      token?_ne_eof_of_mem (hpieces ▸ List.mem_append_left _ hp)
    obtain ⟨kept, lead, hkept, hread⟩ := exists_ofPieces_append hfront
    have hshort : lexemes s =
        kept ++ Lexeme.addLead lead (Lexeme.ofPieces [firstPiece last later]) := by
      rw [lexemes, htext, hpieces, hread]
    have hlong (t : String) : lexemes (s ++ t) =
        kept ++ Lexeme.addLead lead (Lexeme.ofPieces (pieces (last :: later ++ t.toList))) := by
      rw [lexemes, String.toList_append, htext, happend, hread]
    cases hlast : firstPiece last later with
    | gap kind text =>
      rw [hlast] at hshort
      exact ⟨kept, _, hshort, hkept, .eof rfl, fun t => ⟨_, hlong t⟩⟩
    | token t text =>
      obtain ⟨heof, hsymbol⟩ := firstPiece_token hlast
      by_cases hmark : ∃ mark, t = .symbol mark
      · obtain ⟨mark, rfl⟩ := hmark
        obtain rfl := hsymbol mark rfl
        rw [firstPiece_symbol] at hshort hwhole
        obtain rfl : [] = later := (List.cons.inj hwhole).2
        -- A symbol is one character and stays one, so it is among the lexemes that stay.
        refine ⟨kept ++ [⟨lead ++ [], [mark.char], .symbol mark⟩], [⟨[], [], .eof⟩], ?_, ?_,
          .eof rfl, fun t => ⟨Lexeme.ofPieces (pieces t.toList), ?_⟩⟩
        · rw [hshort, List.append_assoc]
          rfl
        · intro l hl
          rcases List.mem_append.1 hl with hl | hl
          · exact hkept l hl
          · rw [List.mem_singleton.1 hl]
            exact Token.noConfusion
        · have hpieces : pieces (mark.char :: t.toList) = _ := pieces_symbol_cons mark t.toList
          rw [hlong, List.cons_append, List.nil_append, hpieces, List.append_assoc]
          rfl
      · rw [hlast] at hshort
        exact ⟨kept, _, hshort, hkept, .lexeme (fun mark h => hmark ⟨mark, h⟩) heof rfl,
          fun t => ⟨_, hlong t⟩⟩

theorem Unfinished.ne_symbol {tail : List Lexeme} (h : Unfinished tail) {l : Lexeme} (hl : l ∈ tail)
    (mark : Symbol) : l.token ≠ .symbol mark := by
  cases h with
  | eof hlast =>
    rw [List.mem_singleton.1 hl, hlast]
    exact Token.noConfusion
  | lexeme hsymbol _ hlast =>
    rcases List.mem_cons.1 hl with rfl | hl
    · exact hsymbol mark
    · rw [List.mem_singleton.1 hl, hlast]
      exact Token.noConfusion

/-- A group goes on to the end of the draft if nothing but the unfinished lexeme is left. -/
theorem Unfinished.readAt {tail : List Lexeme} (h : Unfinished tail) (depth : Nat) :
    ∃ first last, Group.readAt depth tail = ⟨first, [], [last]⟩ := by
  cases h with
  | @eof last hlast => exact ⟨[], last, Group.readAt_eof hlast []⟩
  | @lexeme l last hsymbol hend hlast =>
    refine ⟨[l], last, ?_⟩
    rw [Group.readAt_plain (hsymbol _) (hsymbol _) hend fun hcomma => absurd hcomma (hsymbol _),
      Group.readAt_eof hlast]
    rfl

/-! ## Definitions -/

/-- The first definition among some lexemes: its table and its body. -/
inductive FirstDefinition : List Lexeme → String → List Lexeme → Prop
  | here {l : Lexeme} {ls body : List Lexeme} {table : String}
      (h : OpensDefinition (l :: ls) table body) : FirstDefinition (l :: ls) table body
  | later {l : Lexeme} {ls body : List Lexeme} {table : String}
      (hnot : ∀ other more, ¬ OpensDefinition (l :: ls) other more)
      (h : FirstDefinition ls table body) : FirstDefinition (l :: ls) table body

theorem exists_firstDefinition {ls : List Lexeme} {d : Definition}
    (h : Definition.ofLexemes? ls = some d) :
    ∃ body, FirstDefinition ls d.table body ∧ d.columns = columnsOf body := by
  induction ls with
  | nil => cases h
  | cons l ls ih =>
    rw [Definition.ofLexemes?] at h ih
    cases hhere : Definition.atFront? (l :: ls) with
    | some found =>
      rw [firstFrom_of_here hhere] at h
      obtain rfl := Option.some.inj h
      obtain ⟨body, hopens, hcolumns⟩ := exists_opensDefinition hhere
      exact ⟨body, .here hopens, hcolumns⟩
    | none =>
      rw [firstFrom_of_not_here hhere] at h
      obtain ⟨body, hfirst, hcolumns⟩ := ih h
      refine ⟨body, .later (fun other more hopens => ?_) hfirst, hcolumns⟩
      rw [atFront?_of_opensDefinition hopens] at hhere
      cases hhere

theorem ofLexemes?_of_firstDefinition {ls body : List Lexeme} {table : String}
    (h : FirstDefinition ls table body) :
    Definition.ofLexemes? ls = some ⟨table, columnsOf body⟩ := by
  induction h with
  | here h => exact firstFrom_of_here (atFront?_of_opensDefinition h)
  | @later l ls body table hnot _ ih =>
    have hnone : Definition.atFront? (l :: ls) = none := by
      cases hhere : Definition.atFront? (l :: ls) with
      | none => rfl
      | some found =>
        obtain ⟨more, hopens, _⟩ := exists_opensDefinition hhere
        exact absurd hopens (hnot _ _)
    exact (firstFrom_of_not_here hnone).trans ih

theorem DefinitionHead.exists_create {table : String} {ts : List Token}
    (h : DefinitionHead table ts) :
    ∃ more, ts = .keyword .CREATE :: more ∧ Token.keyword .CREATE ∉ more := by
  cases h with
  | @named guard named hguard hnamed =>
    refine ⟨_, rfl, ?_⟩
    rcases hguard with rfl | rfl <;> cases hnamed <;> simp [ifNotExists]

theorem OpensDefinition.exists_append {kept tail body : List Lexeme} {table : String}
    (htail : ∀ l ∈ tail, l.token ≠ .symbol .openParen)
    (h : OpensDefinition (kept ++ tail) table body) :
    ∃ inside, body = inside ++ tail ∧
      (∃ paren, paren.token = .symbol .openParen ∧ paren :: inside <:+ kept) ∧
      (∃ create back, kept = create :: back ∧ create.token = .keyword .CREATE) ∧
      ∀ rest, OpensDefinition (kept ++ rest) table (inside ++ rest) := by
  obtain ⟨head, paren, hsplit, hhead, hparen⟩ := h
  obtain ⟨inside, rfl⟩ := exists_of_append_eq hsplit fun hmem => htail paren hmem hparen
  refine ⟨inside, ?_, ⟨paren, hparen, List.suffix_append head _⟩, ?_,
    fun rest => ⟨head, paren, ?_, hhead, hparen⟩⟩
  · rw [List.append_assoc, List.cons_append] at hsplit
    exact (List.cons.inj (List.append_cancel_left hsplit)).2.symm
  · obtain ⟨more, hcreate, _⟩ := hhead.exists_create
    obtain ⟨create, back, rfl, hcreate, _⟩ := List.map_eq_cons_iff.1 hcreate
    exact ⟨create, _, rfl, hcreate⟩
  · rw [List.append_assoc, List.cons_append]

/-- A definition that starts in front of a `CREATE` has its parenthesis in front of it too. -/
theorem OpensDefinition.of_create {l create : Lexeme} {front back body : List Lexeme}
    {table : String} (hcreate : create.token = .keyword .CREATE)
    (h : OpensDefinition (l :: front ++ create :: back) table body) (rest : List Lexeme) :
    ∃ more, OpensDefinition (l :: front ++ rest) table more := by
  obtain ⟨head, paren, hsplit, hhead, hparen⟩ := h
  rw [← List.singleton_append (l := body), ← List.append_assoc] at hsplit
  rcases List.append_eq_append_iff.1 hsplit with ⟨between, hhere, hback⟩ | ⟨inside, hhere, _⟩
  · cases between with
    | nil =>
      rw [List.append_nil] at hhere
      exact ⟨rest, head, paren, by rw [← hhere]; simp, hhead, hparen⟩
    | cons c between =>
      obtain ⟨rfl, -⟩ := List.cons.inj hback
      -- Nothing in the head but its first lexeme is a `CREATE`, and the parenthesis is none.
      obtain ⟨more, htokens, hnot⟩ := hhead.exists_create
      have hmapped := congrArg (List.map Lexeme.token) hhere
      rw [List.map_append, htokens] at hmapped
      have htail : more ++ [paren].map Lexeme.token =
          (front ++ create :: between).map Lexeme.token := (List.cons.inj hmapped).2
      have hmem : Token.keyword .CREATE ∈ more ++ [paren].map Lexeme.token := by
        rw [htail]
        exact List.mem_map.2 ⟨create, by simp, hcreate⟩
      rcases List.mem_append.1 hmem with hmem | hmem
      · exact absurd hmem hnot
      · rw [List.map_singleton, List.mem_singleton, hparen] at hmem
        exact Token.noConfusion hmem
  · exact ⟨inside ++ rest, head, paren, by rw [hhere]; simp, hhead, hparen⟩

theorem FirstDefinition.exists_openParen {ls body : List Lexeme} {table : String}
    (h : FirstDefinition ls table body) : ∃ l ∈ ls, l.token = .symbol .openParen := by
  induction h with
  | here h =>
    obtain ⟨head, paren, hsplit, _, hparen⟩ := h
    exact ⟨paren, by rw [hsplit]; simp, hparen⟩
  | later _ _ ih =>
    obtain ⟨l, hl, hparen⟩ := ih
    exact ⟨l, List.mem_cons_of_mem _ hl, hparen⟩

/-- The first definition of a draft stays the first one, and its body goes on. -/
theorem FirstDefinition.exists_append {kept tail body : List Lexeme} {table : String}
    (htail : ∀ l ∈ tail, l.token ≠ .symbol .openParen)
    (h : FirstDefinition (kept ++ tail) table body) :
    ∃ inside, body = inside ++ tail ∧
      (∃ paren, paren.token = .symbol .openParen ∧ paren :: inside <:+ kept) ∧
      (∃ front create back, kept = front ++ create :: back ∧ create.token = .keyword .CREATE) ∧
      ∀ rest, FirstDefinition (kept ++ rest) table (inside ++ rest) := by
  induction kept with
  | nil =>
    obtain ⟨l, hl, hparen⟩ := h.exists_openParen
    exact absurd hparen (htail l hl)
  | cons l kept ih =>
    rw [List.cons_append] at h
    cases h with
    | here h =>
      have h : OpensDefinition (l :: kept ++ tail) table body := h
      obtain ⟨inside, rfl, hsuffix, ⟨create, back, heq, hcreate⟩, hopens⟩ := h.exists_append htail
      exact ⟨inside, rfl, hsuffix, ⟨[], create, back, heq, hcreate⟩,
        fun rest => .here (hopens rest)⟩
    | later hnot h =>
      obtain ⟨inside, rfl, ⟨paren, hparen, hsuffix⟩, ⟨front, create, back, rfl, hcreate⟩, hfirst⟩ :=
        ih h
      -- What is typed cannot make a definition of what was none: a `CREATE` stands in between.
      have hstill (rest : List Lexeme) (other : String) (more : List Lexeme) :
          ¬ OpensDefinition (l :: (front ++ create :: back ++ rest)) other more := by
        intro hopens
        have hopens : OpensDefinition (l :: front ++ create :: (back ++ rest)) other more := by
          simpa using hopens
        obtain ⟨more', hbefore⟩ := hopens.of_create hcreate (create :: back ++ tail)
        exact hnot other more' (by simpa using hbefore)
      exact ⟨inside, rfl, ⟨paren, hparen, hsuffix.trans (List.suffix_cons l _)⟩,
        ⟨l :: front, create, back, rfl, hcreate⟩, fun rest => .later (hstill rest) (hfirst rest)⟩

theorem dropLast_append_isPrefix {α : Type} {xs ys : List α} (h : ys.length ≤ 1) :
    (xs ++ ys).dropLast <+: xs := by
  match ys with
  | [] =>
    rw [List.append_nil]
    exact List.dropLast_prefix xs
  | [y] => exact ⟨[], by rw [List.append_nil, List.dropLast_concat]⟩

/-- All columns but the last are those of complete parts. -/
theorem columnsOf_append {inside tail : List Lexeme} (hinside : ∀ l ∈ inside, l.token ≠ .eof)
    (htail : Unfinished tail) (rest : List Lexeme) :
    (columnsOf (inside ++ tail)).dropLast <+: columnsOf (inside ++ rest) := by
  rcases Group.closesIn_or_staysOpen hinside 0 with
    ⟨first, others, more, hcloses⟩ | ⟨depth, first, others, hopen, -⟩
  · have hsame : columnsOf (inside ++ tail) = columnsOf (inside ++ rest) := by
      rw [columnsOf, columnsOf, Group.read, Group.read, hcloses.reads, hcloses.reads]
      rfl
    rw [hsame]
    exact List.dropLast_prefix _
  · obtain ⟨parts, last, hfragments⟩ := Group.fragments_prepend first others
    obtain ⟨left, end_, hleft⟩ := htail.readAt depth
    rw [columnsOf, columnsOf, Group.read, Group.read, hopen.reads, hopen.reads, hfragments,
      hfragments, hleft, List.filterMap_append, List.filterMap_append]
    refine (dropLast_append_isPrefix ?_).trans (List.prefix_append _ _)
    exact List.length_filterMap_le _ _

theorem columnsOf_closed {inner : List Lexeme} {close : Lexeme}
    (hinner : Balanced true (inner.map Lexeme.token)) (hclose : close.token = .symbol .closeParen)
    (rest rest' : List Lexeme) :
    columnsOf (inner ++ close :: rest) = columnsOf (inner ++ close :: rest') := by
  obtain ⟨first, others, hread⟩ := Group.exists_readAt_of_balanced hinner rfl hclose
  rw [columnsOf, columnsOf, Group.read, Group.read, hread, hread]
  rfl

/-- Whether the closing parenthesis of the first definition is among some lexemes. -/
def DefinitionCloses (ls : List Lexeme) : Prop :=
  ∃ table inner close more, FirstDefinition ls table (inner ++ close :: more) ∧
    Balanced true (inner.map Lexeme.token) ∧ close.token = .symbol .closeParen

theorem definitionCloses_of_tokens {ls : List Lexeme} {table : String}
    {head inner more : List Token}
    (h : ls.map Lexeme.token = head ++ .symbol .openParen :: (inner ++ .symbol .closeParen :: more))
    (hhead : DefinitionHead table head) (hinner : Balanced true inner) : DefinitionCloses ls := by
  obtain ⟨front, ls, rfl, rfl, hafter⟩ := List.map_eq_append_iff.1 h
  obtain ⟨paren, ls, rfl, hparen, hbody⟩ := List.map_eq_cons_iff.1 hafter
  obtain ⟨body, ls, rfl, rfl, hend⟩ := List.map_eq_append_iff.1 hbody
  obtain ⟨close, ls, rfl, hclose, -⟩ := List.map_eq_cons_iff.1 hend
  have hopens : OpensDefinition (front ++ paren :: (body ++ close :: ls)) table
      (body ++ close :: ls) := ⟨front, paren, rfl, hhead, hparen⟩
  refine ⟨table, body, close, ls, ?_, hinner, hclose⟩
  cases front with
  | nil => exact .here hopens
  | cons l front => exact .here hopens

theorem ofLexemes?_append {kept tail : List Lexeme} (hkept : ∀ l ∈ kept, l.token ≠ .eof)
    (htail : Unfinished tail) {d : Definition} (h : Definition.ofLexemes? (kept ++ tail) = some d)
    (rest : List Lexeme) :
    ∃ d', Definition.ofLexemes? (kept ++ rest) = some d' ∧ d'.table = d.table ∧
      d.columns.dropLast <+: d'.columns ∧ (DefinitionCloses (kept ++ tail) → d' = d) := by
  have hopen : ∀ l ∈ tail, l.token ≠ .symbol .openParen := fun l hl => htail.ne_symbol hl _
  obtain ⟨body, hfirst, hcolumns⟩ := exists_firstDefinition h
  obtain ⟨inside, rfl, ⟨paren, -, hsuffix⟩, -, hstill⟩ := hfirst.exists_append hopen
  have hlong := ofLexemes?_of_firstDefinition (hstill rest)
  refine ⟨_, hlong, rfl, ?_, ?_⟩
  · rw [hcolumns]
    have hinside : ∀ l ∈ inside, l.token ≠ .eof := fun l hl =>
      hkept l (hsuffix.subset (List.mem_cons_of_mem paren hl))
    exact columnsOf_append hinside htail rest
  · rintro ⟨table, inner, close, more, hcloses, hinner, hclose⟩
    obtain ⟨before, hbody, -, -, hstill⟩ := hcloses.exists_append hopen
    -- A parenthesis is complete, so the one that closes the body is among what stays.
    have hnot : close ∉ tail := fun hmem => htail.ne_symbol hmem _ hclose
    obtain ⟨middle, rfl⟩ := exists_of_append_eq hbody.symm hnot
    have hshort := ofLexemes?_of_firstDefinition (hstill tail)
    have hlong' := ofLexemes?_of_firstDefinition (hstill rest)
    rw [h] at hshort
    rw [hlong] at hlong'
    have hsame : columnsOf (inner ++ close :: middle ++ rest) =
        columnsOf (inner ++ close :: middle ++ tail) := by
      rw [List.append_assoc, List.append_assoc, List.cons_append, List.cons_append]
      exact columnsOf_closed hinner hclose (middle ++ rest) (middle ++ tail)
    calc (⟨d.table, columnsOf (inside ++ rest)⟩ : Definition)
      _ = ⟨table, columnsOf (inner ++ close :: middle ++ rest)⟩ := Option.some.inj hlong'
      _ = ⟨table, columnsOf (inner ++ close :: middle ++ tail)⟩ := by rw [hsame]
      _ = d := (Option.some.inj hshort).symm

/-! ## Rows -/

/-- The groups at the front of some lexemes, with commas between them. -/
inductive FrontGroup : List Lexeme → Group → Prop
  | first {paren : Lexeme} {body : List Lexeme} (hparen : paren.token = .symbol .openParen) :
      FrontGroup (paren :: body) (Group.read body)
  | later {paren comma : Lexeme} {body rest : List Lexeme} {g : Group}
      (hparen : paren.token = .symbol .openParen) (hrest : (Group.read body).rest = comma :: rest)
      (hcomma : comma.token = .symbol .comma) (h : FrontGroup rest g) :
      FrontGroup (paren :: body) g

/-- The groups after a `VALUES`. -/
def ValueGroup (ls : List Lexeme) (g : Group) : Prop :=
  ∃ front values rest, ls = front ++ values :: rest ∧ values.token = .keyword .VALUES ∧
    FrontGroup rest g

/-- Whether a group holds a `VALUES`. -/
def Group.HoldsValues (g : Group) : Prop :=
  ∃ l ∈ g.fragments.flatten, l.token = .keyword .VALUES

theorem rowsAtFront_of_ne {l : Lexeme} (h : l.token ≠ .symbol .openParen) (ls : List Lexeme) :
    rowsAtFront (l :: ls) = [] := by
  rw [rowsAtFront, if_neg h]

theorem laterRows_of_ne {comma : Lexeme} (h : comma.token ≠ .symbol .comma) (ls : List Lexeme) :
    laterRows (comma :: ls) = [] := by
  unfold laterRows
  split
  next heq =>
    obtain ⟨rfl, -⟩ := List.cons.inj heq
    rw [if_neg fun h' => h h'.1]
  next => rfl

theorem laterRows_cons {comma : Lexeme} (h : comma.token = .symbol .comma) (ls : List Lexeme) :
    laterRows (comma :: ls) = rowsAtFront ls := by
  cases ls with
  | nil =>
    rw [rowsAtFront]
    rfl
  | cons next rest =>
    by_cases hnext : next.token = .symbol .openParen
    · rw [laterRows, if_pos ⟨h, hnext⟩]
    · rw [laterRows, if_neg fun h' => hnext h'.2, rowsAtFront_of_ne hnext]

theorem Unfinished.laterRows {tail : List Lexeme} (h : Unfinished tail) : laterRows tail = [] := by
  obtain ⟨l, ls, rfl⟩ : ∃ l ls, tail = l :: ls := by cases h <;> exact ⟨_, _, rfl⟩
  exact laterRows_of_ne (h.ne_symbol (List.mem_cons_self ..) .comma) ls

theorem Unfinished.rowsAtFront {tail : List Lexeme} (h : Unfinished tail) :
    rowsAtFront tail = [] := by
  obtain ⟨l, ls, rfl⟩ : ∃ l ls, tail = l :: ls := by cases h <;> exact ⟨_, _, rfl⟩
  exact rowsAtFront_of_ne (h.ne_symbol (List.mem_cons_self ..) .openParen) ls

theorem Unfinished.rowsOf {tail : List Lexeme} (h : Unfinished tail) : rowsOf tail = [] := by
  have hend {last : Lexeme} (hlast : last.token = .eof) : SqlDraft.rowsOf [last] = [] := by
    apply rowsOf_eq_nil
    simp [hlast]
  cases h with
  | eof hlast => exact hend hlast
  | @lexeme l last _ _ hlast =>
    rw [SqlDraft.rowsOf, hend hlast, (Unfinished.eof hlast).rowsAtFront]
    split <;> rfl

theorem dropLast_cons_isPrefix {α : Type} {x : α} {xs ys : List α} (h : xs.dropLast <+: ys) :
    (x :: xs).dropLast <+: x :: ys := by
  cases xs with
  | nil => exact List.nil_prefix
  | cons y xs =>
    rw [List.dropLast_cons_of_ne_nil (List.cons_ne_nil y xs)]
    exact List.cons_prefix_cons.2 ⟨rfl, h⟩

theorem dropLast_append_isPrefix_append {α : Type} (front : List α) {xs ys : List α}
    (h : xs.dropLast <+: ys) : (front ++ xs).dropLast <+: front ++ ys := by
  induction front with
  | nil => exact h
  | cons x front ih => exact dropLast_cons_isPrefix ih

theorem rowsOf_append_of_none {kept : List Lexeme}
    (h : ¬ ∃ values ∈ kept, values.token = .keyword .VALUES) (tail : List Lexeme) :
    rowsOf (kept ++ tail) = rowsOf tail := by
  induction kept with
  | nil => rfl
  | cons l kept ih =>
    have hl : l.token ≠ .keyword .VALUES := fun hl => h ⟨l, List.mem_cons_self .., hl⟩
    rw [List.cons_append, rowsOf, if_neg hl]
    apply ih
    rintro ⟨values, hmem, hvalues⟩
    exact h ⟨values, List.mem_cons_of_mem l hmem, hvalues⟩

/-- Whether a list of rows has ended, so that what follows has no say in it. -/
def RowsEnd (ls : List Lexeme) : Prop :=
  ∃ rows, ∀ rest, rowsAtFront (ls ++ rest) = rows

/-- Whether a list of rows goes on: all its rows but the last are complete, and what stands in it
stands in its groups. -/
structure RowsGoOn (ls : List Lexeme) : Prop where
  complete : ∀ tail rest, Unfinished tail →
    (rowsAtFront (ls ++ tail)).dropLast <+: rowsAtFront (ls ++ rest)
  grouped : ∀ m ∈ ls, (∀ mark, m.token ≠ .symbol mark) → ∀ rest,
    ∃ g, FrontGroup (ls ++ rest) g ∧ m ∈ g.fragments.flatten

theorem rowsGoOn_nil : RowsGoOn [] where
  complete tail rest htail := by
    rw [List.nil_append, htail.rowsAtFront]
    exact List.nil_prefix
  grouped := nofun

section FirstRow

variable {paren : Lexeme} {ls first : List Lexeme} {others : List (List Lexeme)}

theorem frontGroup_readAt (hparen : paren.token = .symbol .openParen) (rest : List Lexeme) :
    FrontGroup (paren :: ls ++ rest) (Group.readAt 0 (ls ++ rest)) :=
  .first hparen

theorem rowsAtFront_readAt (hparen : paren.token = .symbol .openParen) (rest : List Lexeme) :
    rowsAtFront (paren :: ls ++ rest) =
      (Group.readAt 0 (ls ++ rest)).fragments.map cellText ::
        laterRows (Group.readAt 0 (ls ++ rest)).rest :=
  rowsAtFront_cons hparen _

theorem rowsAtFront_of_closesIn (hparen : paren.token = .symbol .openParen) {more : List Lexeme}
    (h : Group.ClosesIn 0 ls first others more) (rest : List Lexeme) :
    rowsAtFront (paren :: ls ++ rest) =
      (first :: others).map cellText :: laterRows (more ++ rest) := by
  rw [rowsAtFront_readAt hparen, h.reads]
  rfl

theorem mem_of_mem_paren_cons (hparen : paren.token = .symbol .openParen) {m : Lexeme}
    (hm : m ∈ paren :: ls) (hmark : ∀ mark, m.token ≠ .symbol mark) : m ∈ ls := by
  rcases List.mem_cons.1 hm with rfl | hm
  · exact absurd hparen (hmark _)
  · exact hm

/-- What does not stand behind the first group stands in it. -/
theorem exists_frontGroup_of_closesIn (hparen : paren.token = .symbol .openParen)
    {more : List Lexeme} (h : Group.ClosesIn 0 ls first others more) {m : Lexeme}
    (hm : m ∈ paren :: ls) (hmark : ∀ mark, m.token ≠ .symbol mark) (hmore : m ∉ more)
    (rest : List Lexeme) :
    ∃ g, FrontGroup (paren :: ls ++ rest) g ∧ m ∈ g.fragments.flatten := by
  refine ⟨_, frontGroup_readAt hparen rest, ?_⟩
  rw [h.reads]
  exact (h.keeps m (mem_of_mem_paren_cons hparen hm hmark) hmark).resolve_left hmore

theorem rowsGoOn_of_staysOpen (hparen : paren.token = .symbol .openParen) {depth : Nat}
    (h : Group.StaysOpen 0 ls depth first others) : RowsGoOn (paren :: ls) where
  complete tail rest htail := by
    -- The group is the last one, whatever follows.
    obtain ⟨left, last, hleft⟩ := htail.readAt depth
    rw [rowsAtFront_readAt hparen, h.reads, Group.prepend_rest, hleft]
    exact List.nil_prefix
  grouped m hm hmark rest := by
    refine ⟨_, frontGroup_readAt hparen rest, ?_⟩
    rw [h.reads]
    exact (Group.flatten_fragments_prepend first others (Group.readAt depth rest)).subset
      (h.keeps m (mem_of_mem_paren_cons hparen hm hmark) hmark)

theorem rowsGoOn_of_closesIn (hparen : paren.token = .symbol .openParen)
    (h : Group.ClosesIn 0 ls first others []) : RowsGoOn (paren :: ls) where
  complete tail rest htail := by
    rw [rowsAtFront_of_closesIn hparen h, List.nil_append, htail.laterRows]
    exact List.nil_prefix
  grouped m hm hmark := exists_frontGroup_of_closesIn hparen h hm hmark List.not_mem_nil

section Comma

variable {comma : Lexeme} {more : List Lexeme} (hparen : paren.token = .symbol .openParen)
  (hcomma : comma.token = .symbol .comma)
  (hcloses : Group.ClosesIn 0 ls first others (comma :: more))

include hparen hcomma hcloses

theorem rowsAtFront_of_comma (rest : List Lexeme) :
    rowsAtFront (paren :: ls ++ rest) =
      (first :: others).map cellText :: rowsAtFront (more ++ rest) := by
  rw [rowsAtFront_of_closesIn hparen hcloses, List.cons_append, laterRows_cons hcomma]

theorem rowsEnd_of_comma (h : RowsEnd more) : RowsEnd (paren :: ls) := by
  obtain ⟨rows, hends⟩ := h
  refine ⟨(first :: others).map cellText :: rows, fun rest => ?_⟩
  rw [rowsAtFront_of_comma hparen hcomma hcloses, hends]

theorem rowsGoOn_of_comma (h : RowsGoOn more) : RowsGoOn (paren :: ls) where
  complete tail rest htail := by
    rw [rowsAtFront_of_comma hparen hcomma hcloses, rowsAtFront_of_comma hparen hcomma hcloses]
    exact dropLast_cons_isPrefix (h.complete tail rest htail)
  grouped m hm hmark rest := by
    by_cases hmore : m ∈ more
    · obtain ⟨g, hg, hheld⟩ := h.grouped m hmore hmark rest
      have hrest : (Group.read (ls ++ rest)).rest = comma :: (more ++ rest) :=
        congrArg Group.rest (hcloses.reads rest)
      exact ⟨g, .later hparen hrest hcomma hg, hheld⟩
    · apply exists_frontGroup_of_closesIn hparen hcloses hm hmark
      rw [List.mem_cons, not_or]
      exact ⟨fun heq => hmark _ (heq ▸ hcomma), hmore⟩

end Comma

end FirstRow

theorem rowsEnd_or_rowsGoOn {ls : List Lexeme} (h : ∀ l ∈ ls, l.token ≠ .eof) :
    RowsEnd ls ∨ RowsGoOn ls := by
  induction hlength : ls.length using Nat.strongRecOn generalizing ls with
  | ind n ih =>
    subst hlength
    cases ls with
    | nil => exact .inr rowsGoOn_nil
    | cons paren ls =>
      by_cases hparen : paren.token = .symbol .openParen
      · obtain ⟨_, h⟩ := List.forall_mem_cons.1 h
        rcases Group.closesIn_or_staysOpen h 0 with
          ⟨first, others, more, hcloses⟩ | ⟨depth, first, others, hopen, -⟩
        · cases more with
          | nil => exact .inr (rowsGoOn_of_closesIn hparen hcloses)
          | cons comma more =>
            by_cases hcomma : comma.token = .symbol .comma
            · obtain ⟨inside, close, hsplit⟩ := hcloses.ends
              have hshort : more.length < (paren :: ls).length := by
                simp only [hsplit, List.length_cons, List.length_append]
                omega
              have hmore : ∀ l ∈ more, l.token ≠ .eof := fun l hl => h l (by simp [hsplit, hl])
              exact (ih _ hshort hmore rfl).imp (rowsEnd_of_comma hparen hcomma hcloses)
                (rowsGoOn_of_comma hparen hcomma hcloses)
            · refine .inl ⟨[(first :: others).map cellText], fun rest => ?_⟩
              rw [rowsAtFront_of_closesIn hparen hcloses, List.cons_append, laterRows_of_ne hcomma]
        · exact .inr (rowsGoOn_of_staysOpen hparen hopen)
      · exact .inl ⟨[], fun rest => rowsAtFront_of_ne hparen (ls ++ rest)⟩

theorem ValueGroup.cons {ls : List Lexeme} {g : Group} (h : ValueGroup ls g) (l : Lexeme) :
    ValueGroup (l :: ls) g := by
  obtain ⟨front, values, rest, rfl, hvalues, hfront⟩ := h
  exact ⟨l :: front, values, rest, rfl, hvalues, hfront⟩

theorem rowsOf_append {kept tail : List Lexeme} (hkept : ∀ l ∈ kept, l.token ≠ .eof)
    (htail : Unfinished tail)
    (hnone : ∀ g, ValueGroup (kept ++ tail) g → ¬ g.HoldsValues) (rest : List Lexeme) :
    (rowsOf (kept ++ tail)).dropLast <+: rowsOf (kept ++ rest) := by
  induction kept with
  | nil =>
    rw [List.nil_append, htail.rowsOf]
    exact List.nil_prefix
  | cons l kept ih =>
    obtain ⟨_, hkept⟩ := List.forall_mem_cons.1 hkept
    have ih := ih hkept fun g hg => hnone g (hg.cons l)
    rw [List.cons_append, List.cons_append, rowsOf, rowsOf]
    by_cases hvalues : l.token = .keyword .VALUES
    · rw [if_pos hvalues, if_pos hvalues]
      rcases rowsEnd_or_rowsGoOn hkept with ⟨rows, hends⟩ | hgoes
      · rw [hends, hends]
        exact dropLast_append_isPrefix_append rows ih
      · -- A further `VALUES` would stand in one of the groups.
        have hlater : ¬ ∃ values ∈ kept, values.token = .keyword .VALUES := by
          rintro ⟨values, hmem, hlater⟩
          have hmark : ∀ mark, values.token ≠ .symbol mark := by
            rw [hlater]
            exact fun _ => Token.noConfusion
          obtain ⟨g, hg, hheld⟩ := hgoes.grouped values hmem hmark tail
          exact hnone g ⟨[], l, _, rfl, hvalues, hg⟩ ⟨values, hheld, hlater⟩
        rw [rowsOf_append_of_none hlater tail, htail.rowsOf, List.append_nil]
        exact (hgoes.complete tail rest htail).trans (List.prefix_append _ _)
    · rw [if_neg hvalues, if_neg hvalues]
      exact ih

/-! ## What stays -/

theorem FrontGroup.subset {ls : List Lexeme} {g : Group} (h : FrontGroup ls g) :
    g.fragments.flatten ⊆ ls := by
  induction h with
  | first hparen =>
    exact List.Subset.trans (Group.readAt_subset 0 _) (List.subset_cons_self ..)
  | @later paren comma body rest g _ hrest _ _ ih =>
    have hsuffix : comma :: rest <:+ body := hrest ▸ Group.readAt_rest_isSuffix 0 body
    have hbody : rest ⊆ body := ((List.suffix_cons comma rest).trans hsuffix).subset
    exact List.Subset.trans ih (List.Subset.trans hbody (List.subset_cons_self ..))

/-- In a draft with one `VALUES` it stands in front of the groups, not in them. -/
theorem not_holdsValues_of_countP {ls : List Lexeme}
    (h : ls.countP (fun l => l.token = .keyword .VALUES) ≤ 1) {g : Group} (hg : ValueGroup ls g) :
    ¬ g.HoldsValues := by
  obtain ⟨front, values, rest, rfl, hvalues, hfront⟩ := hg
  rintro ⟨l, hl, hagain⟩
  have hmore : 0 < rest.countP (fun l => l.token = .keyword .VALUES) :=
    List.countP_pos_iff.2 ⟨l, hfront.subset hl, decide_eq_true hagain⟩
  simp only [List.countP_append, List.countP_cons, hvalues, decide_true, ↓reduceIte] at h
  omega

/-- What is typed at the end leaves a definition its table and all its columns but maybe the last
one, and leaves a closed definition as it is.  It leaves all rows but maybe the last one, unless a
group of values holds a `VALUES` itself. -/
theorem append_keeps_complete (s t : String) :
    (∀ d, Definition.ofDraft? s = some d →
      ∃ d', Definition.ofDraft? (s ++ t) = some d' ∧ d'.table = d.table ∧
        d.columns.dropLast <+: d'.columns ∧ (DefinitionCloses (lexemes s) → d' = d)) ∧
    ((∀ g, ValueGroup (lexemes s) g → ¬ g.HoldsValues) →
      (draftRows s).dropLast <+: draftRows (s ++ t)) := by
  obtain ⟨kept, tail, hs, hkept, htail, hlong⟩ := exists_lexemes_append s
  obtain ⟨rest, hst⟩ := hlong t
  constructor
  · intro d hd
    rw [Definition.ofDraft?, hs] at hd
    rw [Definition.ofDraft?, hst, hs]
    exact ofLexemes?_append hkept htail hd rest
  · intro hnone
    rw [hs] at hnone
    rw [draftRows, draftRows, hs, hst]
    exact rowsOf_append hkept htail hnone rest

/-- A `VALUES` in a group starts rows of its own while the group is still open. -/
example : draftRows "VALUES (VALUES (1" = [["VALUES (1"], ["1"]] := by decide +kernel

/-- A draft that stops in the middle of a value. -/
def scoresDraft : String :=
  "CREATE TABLE scores (name TEXT, score INT); INSERT INTO scores VALUES ('a', 1), ('b', 2"

theorem append_keeps_complete_scores :
    DefinitionCloses (lexemes scoresDraft) ∧
      (∀ g, ValueGroup (lexemes scoresDraft) g → ¬ g.HoldsValues) ∧
      Definition.ofDraft? (scoresDraft ++ "5), (") =
        some ⟨"scores", [⟨"name", .text⟩, ⟨"score", .number⟩]⟩ ∧
      [["a", "1"]] <+: draftRows (scoresDraft ++ "5), (") := by
  have hdefined : Definition.ofDraft? scoresDraft =
      some ⟨"scores", [⟨"name", .text⟩, ⟨"score", .number⟩]⟩ := by decide +kernel
  have hcloses : DefinitionCloses (lexemes scoresDraft) := by
    have htokens : tokens scoresDraft = [.keyword .CREATE, .keyword .TABLE, .ident "scores"] ++
        .symbol .openParen :: ([.ident "name", .ident "TEXT", .symbol .comma, .ident "score",
          .ident "INT"] ++ .symbol .closeParen :: (tokens scoresDraft).drop 10) := by decide +kernel
    exact definitionCloses_of_tokens htokens (.named (.inl rfl) .plain) (.of_forall (by decide))
  have hnone : ∀ g, ValueGroup (lexemes scoresDraft) g → ¬ g.HoldsValues :=
    fun g => not_holdsValues_of_countP (by decide +kernel)
  have hrows : draftRows scoresDraft = [["a", "1"], ["b", "2"]] := by decide +kernel
  obtain ⟨hdefinition, hkeeps⟩ := append_keeps_complete scoresDraft "5), ("
  obtain ⟨d, hafter, -, -, hsame⟩ := hdefinition _ hdefined
  have hprefix := hkeeps hnone
  rw [hrows] at hprefix
  exact ⟨hcloses, hnone, hafter.trans (congrArg some (hsame hcloses)), hprefix⟩

end SqlDraft
