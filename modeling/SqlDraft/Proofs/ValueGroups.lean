import SqlDraft.Proofs.TypingOn

/-!
# Groups of values

The rows of a draft are read off the groups after its `VALUES`: `rowsOf_eq_map`.  The groups say
what the rows do not, which is where each value comes from: the lexemes of a value stand next to
each other in the draft (`isInfix_of_mem_valueGroups`).
-/

namespace SqlDraft

/-- The groups at the front of some lexemes, with commas between them. -/
def groupsAtFront (ls : List Lexeme) : List Group :=
  match ls with
  | [] => []
  | paren :: body =>
    if paren.token = .symbol .openParen then
      let group := Group.read body
      match h : group.rest with
      | comma :: rest =>
        have shorter : rest.length < body.length := by
          have hle := Group.read_rest_length body
          rw [show (Group.read body).rest = comma :: rest from h] at hle
          exact hle
        if comma.token = .symbol .comma then group :: groupsAtFront rest else [group]
      | [] => [group]
    else []
  termination_by ls.length

/-- The groups after every `VALUES` among some lexemes. -/
def valueGroups : List Lexeme → List Group
  | [] => []
  | l :: ls =>
    if l.token = .keyword .VALUES then groupsAtFront ls ++ valueGroups ls else valueGroups ls

def Group.row (g : Group) : List String :=
  g.fragments.map cellText

/-! ## One group after the other -/

/-- The groups that go on after a group: a comma stands in front of them. -/
def laterGroups : List Lexeme → List Group
  | [] => []
  | comma :: rest => if comma.token = .symbol .comma then groupsAtFront rest else []

theorem groupsAtFront_of_ne {l : Lexeme} (h : l.token ≠ .symbol .openParen) (ls : List Lexeme) :
    groupsAtFront (l :: ls) = [] := by
  rw [groupsAtFront, if_neg h]

theorem groupsAtFront_cons {paren : Lexeme} (h : paren.token = .symbol .openParen)
    (body : List Lexeme) :
    groupsAtFront (paren :: body) = Group.read body :: laterGroups (Group.read body).rest := by
  rw [groupsAtFront, if_pos h]
  dsimp only
  split
  next comma rest hrest =>
    rw [hrest, laterGroups]
    split <;> rfl
  next hrest => rw [hrest, laterGroups]

theorem rowsAtFront_eq_map (ls : List Lexeme) :
    rowsAtFront ls = (groupsAtFront ls).map Group.row := by
  fun_induction groupsAtFront ls with
  | case1 => rw [rowsAtFront, List.map_nil]
  | case2 paren body hparen group comma rest hrest _ hcomma ih =>
    rw [rowsAtFront_cons hparen, show (Group.read body).rest = _ from hrest, laterRows_cons hcomma,
      ih]
    rfl
  | case3 paren body hparen group comma rest hrest _ hcomma =>
    rw [rowsAtFront_cons hparen, show (Group.read body).rest = _ from hrest, laterRows_of_ne hcomma]
    rfl
  | case4 paren body hparen group hrest =>
    rw [rowsAtFront_cons hparen, show (Group.read body).rest = _ from hrest]
    rfl
  | case5 paren body hparen => rw [rowsAtFront_of_ne hparen, List.map_nil]

/-- The rows of a draft are those of its groups of values. -/
theorem rowsOf_eq_map (ls : List Lexeme) : rowsOf ls = (valueGroups ls).map Group.row := by
  induction ls with
  | nil => rfl
  | cons l ls ih =>
    rw [rowsOf, valueGroups, ih, rowsAtFront_eq_map]
    split
    · rw [List.map_append]
    · rfl

/-! ## Where values stand -/

namespace Group

/-- Every part of a group stands in one piece among the lexemes inside it, the first one at their
front. -/
theorem parts_readAt (depth : Nat) (ls : List Lexeme) :
    (readAt depth ls).first <+: ls ∧ ∀ part ∈ (readAt depth ls).others, part <:+: ls := by
  -- A lexeme goes to the first part, unless it is a comma, in front of which a part is empty.
  have hpush {l : Lexeme} {ls : List Lexeme} {g : Group}
      (h : g.first <+: ls ∧ ∀ part ∈ g.others, part <:+: ls) :
      (push l g).first <+: l :: ls ∧ ∀ part ∈ (push l g).others, part <:+: l :: ls :=
    ⟨List.cons_prefix_cons.2 ⟨rfl, h.1⟩, fun part hpart => List.infix_cons (h.2 part hpart)⟩
  fun_induction readAt depth ls with
  | case1 | case2 | case4 => exact ⟨List.nil_prefix, List.forall_mem_nil _⟩
  | case3 _ _ _ _ ih | case5 _ _ _ _ ih | case7 _ _ _ _ ih | case8 _ _ _ _ _ _ _ ih =>
    exact hpush ih
  | case6 l ls _ ih =>
    refine ⟨List.nil_prefix, fun part hpart => List.infix_cons ?_⟩
    rcases List.mem_cons.1 hpart with rfl | hpart
    · exact ih.1.isInfix
    · exact ih.2 part hpart

theorem isInfix_of_mem_fragments {depth : Nat} {ls part : List Lexeme}
    (h : part ∈ (readAt depth ls).fragments) : part <:+: ls := by
  obtain ⟨hfirst, hothers⟩ := parts_readAt depth ls
  rcases List.mem_cons.1 h with rfl | h
  · exact hfirst.isInfix
  · exact hothers part h

end Group

theorem exists_read_of_mem_groupsAtFront {ls : List Lexeme} {g : Group}
    (h : g ∈ groupsAtFront ls) :
    ∃ front paren body, ls = front ++ paren :: body ∧ paren.token = .symbol .openParen ∧
      g = Group.read body := by
  fun_induction groupsAtFront ls with
  | case1 => cases h
  | case2 paren body hparen group comma rest hrest _ hcomma ih =>
    rcases List.mem_cons.1 h with rfl | h
    · exact ⟨[], paren, body, rfl, hparen, rfl⟩
    · obtain ⟨front, later, inside, rfl, hlater, hread⟩ := ih h
      obtain ⟨before, hbody⟩ : _ <:+ body := hrest ▸ Group.readAt_rest_isSuffix 0 body
      exact ⟨paren :: (before ++ comma :: front), later, inside, by simp [← hbody], hlater, hread⟩
  | case3 paren body hparen | case4 paren body hparen =>
    exact ⟨[], paren, body, rfl, hparen, List.mem_singleton.1 h⟩
  | case5 => cases h

/-- Every group of values is read after a parenthesis of the draft. -/
theorem exists_read_of_mem_valueGroups {ls : List Lexeme} {g : Group} (h : g ∈ valueGroups ls) :
    ∃ front paren body, ls = front ++ paren :: body ∧ paren.token = .symbol .openParen ∧
      g = Group.read body := by
  induction ls with
  | nil => cases h
  | cons l ls ih =>
    have hlater (h : ∃ front paren body, ls = front ++ paren :: body ∧
        paren.token = .symbol .openParen ∧ g = Group.read body) :
        ∃ front paren body, l :: ls = front ++ paren :: body ∧
          paren.token = .symbol .openParen ∧ g = Group.read body := by
      obtain ⟨front, paren, body, rfl, hread⟩ := h
      exact ⟨l :: front, paren, body, rfl, hread⟩
    rw [valueGroups] at h
    split at h
    · rcases List.mem_append.1 h with h | h
      · exact hlater (exists_read_of_mem_groupsAtFront h)
      · exact hlater (ih h)
    · exact hlater (ih h)

/-- What a value is read from stands in one piece in the draft. -/
theorem isInfix_of_mem_valueGroups {ls part : List Lexeme} {g : Group}
    (hg : g ∈ valueGroups ls) (hpart : part ∈ g.fragments) : part <:+: ls := by
  obtain ⟨front, paren, body, rfl, -, rfl⟩ := exists_read_of_mem_valueGroups hg
  obtain ⟨before, after, hbody⟩ := Group.isInfix_of_mem_fragments hpart
  exact ⟨front ++ paren :: before, after, by simp [← hbody]⟩

end SqlDraft
