import SqlDraft.Reading.Group

/-!
# Nesting

A group is cut at its own commas only.  Tokens whose parentheses are balanced neither end the group
that they stand in nor cut it, so parts between commas are read as they are:
`read_of_separated`.
-/

namespace SqlDraft

/-- Whether the parentheses among some tokens are balanced.  Commas stand between parentheses only,
unless the tokens themselves are `inside` a pair. -/
inductive Balanced : Bool → List Token → Prop
  | nil {inside : Bool} : Balanced inside []
  | plain {inside : Bool} {t : Token} {ts : List Token} (hopen : t ≠ .symbol .openParen)
      (hclose : t ≠ .symbol .closeParen) (heof : t ≠ .eof)
      (hcomma : t = .symbol .comma → inside = true) (h : Balanced inside ts) :
      Balanced inside (t :: ts)
  | group {inside : Bool} {inner ts : List Token} (hinner : Balanced true inner)
      (h : Balanced inside ts) :
      Balanced inside (.symbol .openParen :: (inner ++ .symbol .closeParen :: ts))

theorem Balanced.append {inside : Bool} {ts us : List Token} (hts : Balanced inside ts)
    (hus : Balanced inside us) : Balanced inside (ts ++ us) := by
  induction hts with
  | nil => exact hus
  | plain hopen hclose heof hcomma _ ih => exact .plain hopen hclose heof hcomma (ih hus)
  | group hinner _ _ ih =>
    rw [List.cons_append, List.append_assoc, List.cons_append]
    exact .group hinner (ih hus)

theorem Balanced.of_forall {ts : List Token}
    (h : ∀ t ∈ ts, t ≠ .symbol .openParen ∧ t ≠ .symbol .closeParen ∧ t ≠ .eof) :
    Balanced true ts := by
  induction ts with
  | nil => exact .nil
  | cons t ts ih =>
    obtain ⟨⟨hopen, hclose, heof⟩, h⟩ := List.forall_mem_cons.1 h
    exact .plain hopen hclose heof (fun _ => rfl) (ih h)

/-- How many parentheses are open after some tokens, if `depth` of them are in front.  A closing
parenthesis that closes none does not count. -/
def openAfter (depth : Nat) : List Token → Nat
  | [] => depth
  | .symbol .openParen :: ts => openAfter (depth + 1) ts
  | .symbol .closeParen :: ts => openAfter (depth - 1) ts
  | _ :: ts => openAfter depth ts

section OpenAfter

variable {t : Token} {depth : Nat}

theorem openAfter_openParen (h : t = .symbol .openParen) (ts : List Token) :
    openAfter depth (t :: ts) = openAfter (depth + 1) ts := by
  subst h
  rfl

theorem openAfter_closeParen (h : t = .symbol .closeParen) (ts : List Token) :
    openAfter depth (t :: ts) = openAfter (depth - 1) ts := by
  subst h
  rfl

theorem openAfter_plain (hopen : t ≠ .symbol .openParen) (hclose : t ≠ .symbol .closeParen)
    (ts : List Token) : openAfter depth (t :: ts) = openAfter depth ts := by
  rw [openAfter]
  · exact hopen
  · exact hclose

theorem openAfter_append (depth : Nat) (ts us : List Token) :
    openAfter depth (ts ++ us) = openAfter (openAfter depth ts) us := by
  fun_induction openAfter depth ts with
  | case1 => rfl
  | case2 depth ts ih => exact ih
  | case3 depth ts ih => exact ih
  | case4 depth t ts hopen hclose ih => rw [List.cons_append, openAfter_plain hopen hclose, ih]

/-- The more are open in front, the more are open behind. -/
theorem openAfter_mono {depth depth' : Nat} (h : depth ≤ depth') (ts : List Token) :
    openAfter depth ts ≤ openAfter depth' ts := by
  fun_induction openAfter depth ts generalizing depth' with
  | case1 => exact h
  | case2 depth ts ih => exact ih (Nat.succ_le_succ h)
  | case3 depth ts ih => exact ih (Nat.sub_le_sub_right h 1)
  | case4 depth t ts hopen hclose ih =>
    rw [openAfter_plain hopen hclose]
    exact ih h

/-- As many are open behind all tokens as behind the last of them, or more. -/
theorem openAfter_le_append (ts us : List Token) : openAfter 0 us ≤ openAfter 0 (ts ++ us) := by
  rw [openAfter_append]
  exact openAfter_mono (Nat.zero_le _) us

/-- Counted from an opening parenthesis on no more are open than counted from the start on. -/
theorem openAfter_le_of_isSuffix {ls inside : List Lexeme} {paren : Lexeme}
    (hparen : paren.token = .symbol .openParen) (h : paren :: inside <:+ ls) :
    openAfter 1 (inside.map Lexeme.token) ≤ openAfter 0 (ls.map Lexeme.token) := by
  obtain ⟨front, rfl⟩ := h
  rw [List.map_append, ← openAfter_openParen hparen, ← List.map_cons]
  exact openAfter_le_append _ _

end OpenAfter

/-- Parts with commas between them. -/
inductive Separated : List (List Lexeme) → List Lexeme → Prop
  | none : Separated [] []
  | one {part : List Lexeme} : Separated [part] part
  | more {part next ls : List Lexeme} {parts : List (List Lexeme)} {comma : Lexeme}
      (hcomma : comma.token = .symbol .comma) (h : Separated (next :: parts) ls) :
      Separated (part :: next :: parts) (part ++ comma :: ls)

namespace Group

def pushAll (ls : List Lexeme) (g : Group) : Group :=
  { g with first := ls ++ g.first }

section ReadAt

variable {l : Lexeme} {depth : Nat}

theorem readAt_openParen (h : l.token = .symbol .openParen) (ls : List Lexeme) :
    readAt depth (l :: ls) = push l (readAt (depth + 1) ls) := by
  simp only [readAt, h]

theorem readAt_succ_closeParen (h : l.token = .symbol .closeParen) (ls : List Lexeme) :
    readAt (depth + 1) (l :: ls) = push l (readAt depth ls) := by
  simp only [readAt, h]

theorem readAt_zero_closeParen (h : l.token = .symbol .closeParen) (ls : List Lexeme) :
    readAt 0 (l :: ls) = ⟨[], [], ls⟩ := by
  simp only [readAt, h]

theorem readAt_zero_comma (h : l.token = .symbol .comma) (ls : List Lexeme) :
    readAt 0 (l :: ls) = pushComma (readAt 0 ls) := by
  simp only [readAt, h]

theorem readAt_eof (h : l.token = .eof) (ls : List Lexeme) :
    readAt depth (l :: ls) = ⟨[], [], l :: ls⟩ := by
  simp only [readAt, h]

/-- Any other lexeme goes into the part that it stands in, and so does a comma between further
parentheses. -/
theorem readAt_plain (hopen : l.token ≠ .symbol .openParen) (hclose : l.token ≠ .symbol .closeParen)
    (heof : l.token ≠ .eof) (hcomma : l.token = .symbol .comma → depth ≠ 0) (ls : List Lexeme) :
    readAt depth (l :: ls) = push l (readAt depth ls) := by
  simp only [readAt]
  split
  next h => exact absurd h heof
  next h => exact absurd h hopen
  next h => exact absurd h hclose
  next h =>
    split
    next => exact absurd rfl (hcomma h)
    next => rfl
  next => rfl

end ReadAt

theorem readAt_append_of_balanced {inside : Bool} {ts : List Token} (h : Balanced inside ts)
    {ls : List Lexeme} (hls : ls.map Lexeme.token = ts) {depth : Nat}
    (hdepth : inside = true → depth ≠ 0) (rest : List Lexeme) :
    readAt depth (ls ++ rest) = pushAll ls (readAt depth rest) := by
  induction h generalizing ls depth rest with
  | nil =>
    obtain rfl := List.map_eq_nil_iff.1 hls
    rfl
  | plain hopen hclose heof hcomma _ ih =>
    obtain ⟨l, ls, rfl, rfl, htokens⟩ := List.map_eq_cons_iff.1 hls
    rw [List.cons_append, readAt_plain hopen hclose heof fun h => hdepth (hcomma h),
      ih htokens hdepth]
    rfl
  | group _ _ ihInner ih =>
    -- Inside the pair commas cut nothing, since the depth there is not zero.
    obtain ⟨l, ls, rfl, hl, hls⟩ := List.map_eq_cons_iff.1 hls
    obtain ⟨inner, later, rfl, hinner, hlater⟩ := List.map_eq_append_iff.1 hls
    obtain ⟨close, later, rfl, hclose, hlater⟩ := List.map_eq_cons_iff.1 hlater
    rw [List.cons_append, List.append_assoc, List.cons_append, readAt_openParen hl,
      ihInner hinner fun _ => Nat.succ_ne_zero depth, readAt_succ_closeParen hclose,
      ih hlater hdepth]
    simp only [push, pushAll, List.cons_append, List.append_assoc]

/-- The parts between the commas of a group are read one by one, up to its closing parenthesis. -/
theorem read_of_separated {first ls : List Lexeme} {others : List (List Lexeme)}
    (h : Separated (first :: others) ls)
    (hparts : ∀ part ∈ first :: others, Balanced false (part.map Lexeme.token)) {close : Lexeme}
    (hclose : close.token = .symbol .closeParen) (rest : List Lexeme) :
    read (ls ++ close :: rest) = ⟨first, others, rest⟩ := by
  induction others generalizing first ls with
  | nil =>
    cases h
    rw [read, readAt_append_of_balanced (hparts first (List.mem_cons_self ..)) rfl nofun,
      readAt_zero_closeParen hclose, pushAll, List.append_nil]
  | cons next others ih =>
    cases h with
    | @more _ _ ls _ comma hcomma h =>
      obtain ⟨hfirst, hothers⟩ := List.forall_mem_cons.1 hparts
      have ih := ih h hothers
      rw [read] at ih
      rw [List.append_assoc, List.cons_append, read,
        readAt_append_of_balanced hfirst rfl nofun, readAt_zero_comma hcomma, ih]
      simp only [pushAll, pushComma, fragments, List.append_nil]

theorem readAt_subset (depth : Nat) (ls : List Lexeme) :
    (readAt depth ls).fragments.flatten ⊆ ls := by
  fun_induction readAt depth ls
  all_goals simp_all [fragments, push, pushComma]

theorem readAt_rest_isSuffix (depth : Nat) (ls : List Lexeme) : (readAt depth ls).rest <:+ ls := by
  fun_induction readAt depth ls
  case case1 => exact List.suffix_refl _
  case case2 => exact List.suffix_refl _
  case case4 => exact List.suffix_cons _ _
  all_goals exact List.IsSuffix.trans ‹_› (List.suffix_cons _ _)

/-! ## Groups of which only a part is there -/

/-- A group that ends with its closing parenthesis has the same parts whatever comes after it. -/
theorem exists_readAt_of_balanced {inside : Bool} {ts : List Token} (h : Balanced inside ts)
    {ls : List Lexeme} (hls : ls.map Lexeme.token = ts) {close : Lexeme}
    (hclose : close.token = .symbol .closeParen) :
    ∃ first others, ∀ rest, readAt 0 (ls ++ close :: rest) = ⟨first, others, rest⟩ := by
  induction h generalizing ls with
  | nil =>
    obtain rfl := List.map_eq_nil_iff.1 hls
    exact ⟨[], [], readAt_zero_closeParen hclose⟩
  | @plain inside t ts hopen hclosed heof _ _ ih =>
    obtain ⟨l, ls, rfl, rfl, htokens⟩ := List.map_eq_cons_iff.1 hls
    obtain ⟨first, others, hread⟩ := ih htokens
    by_cases hcomma : l.token = .symbol .comma
    · refine ⟨[], first :: others, fun rest => ?_⟩
      rw [List.cons_append, readAt_zero_comma hcomma, hread]
      rfl
    · refine ⟨l :: first, others, fun rest => ?_⟩
      rw [List.cons_append, readAt_plain hopen hclosed heof fun h => absurd h hcomma, hread]
      rfl
  | group hinner _ _ ih =>
    obtain ⟨l, ls, rfl, hl, htokens⟩ := List.map_eq_cons_iff.1 hls
    obtain ⟨inner, later, rfl, hinnerTokens, htokens⟩ := List.map_eq_append_iff.1 htokens
    obtain ⟨paren, later, rfl, hparen, htokens⟩ := List.map_eq_cons_iff.1 htokens
    obtain ⟨first, others, hread⟩ := ih htokens
    refine ⟨l :: (inner ++ paren :: first), others, fun rest => ?_⟩
    rw [List.cons_append, List.append_assoc, List.cons_append, readAt_openParen hl,
      readAt_append_of_balanced hinner hinnerTokens fun _ => Nat.succ_ne_zero 0,
      readAt_succ_closeParen hparen, hread]
    rfl

/-- The group with more parts at its front, the last of which goes on into the group. -/
def prepend (first : List Lexeme) (others : List (List Lexeme)) (g : Group) : Group :=
  match others with
  | [] => pushAll first g
  | next :: later => { g with first := first, others := (prepend next later g).fragments }

theorem prepend_rest (first : List Lexeme) (others : List (List Lexeme)) (g : Group) :
    (prepend first others g).rest = g.rest := by
  cases others <;> rfl

theorem push_prepend (l : Lexeme) (first : List Lexeme) (others : List (List Lexeme)) (g : Group) :
    push l (prepend first others g) = prepend (l :: first) others g := by
  cases others <;> rfl

theorem pushComma_prepend (first : List Lexeme) (others : List (List Lexeme)) (g : Group) :
    pushComma (prepend first others g) = prepend [] (first :: others) g := by
  rw [pushComma, prepend_rest]
  rfl

theorem fragments_prepend (first : List Lexeme) (others : List (List Lexeme)) :
    ∃ parts last, ∀ g,
      (prepend first others g).fragments = parts ++ (last ++ g.first) :: g.others := by
  induction others generalizing first with
  | nil => exact ⟨[], first, fun g => rfl⟩
  | cons next later ih =>
    obtain ⟨parts, last, hfragments⟩ := ih next
    refine ⟨first :: parts, last, fun g => ?_⟩
    rw [List.cons_append, ← hfragments]
    rfl

theorem flatten_fragments_prepend (first : List Lexeme) (others : List (List Lexeme)) (g : Group) :
    first ++ others.flatten <+: (prepend first others g).fragments.flatten := by
  induction others generalizing first with
  | nil =>
    rw [List.flatten_nil, List.append_nil, prepend, pushAll, fragments, List.flatten_cons,
      List.append_assoc]
    exact List.prefix_append _ _
  | cons next later ih =>
    rw [List.flatten_cons, prepend, fragments, List.flatten_cons]
    exact (List.prefix_append_right_inj first).2 (ih next)

/-- Whether a group ends among some lexemes inside it: what follows them has no say in its parts. -/
structure ClosesIn (depth : Nat) (ls first : List Lexeme) (others : List (List Lexeme))
    (more : List Lexeme) : Prop where
  reads : ∀ rest, readAt depth (ls ++ rest) = ⟨first, others, more ++ rest⟩
  ends : ∃ inside close, ls = inside ++ close :: more
  keeps : ∀ l ∈ ls, (∀ mark, l.token ≠ .symbol mark) → l ∈ more ∨ l ∈ first ++ others.flatten

/-- Whether a group goes on after some lexemes inside it. -/
structure StaysOpen (depth : Nat) (ls : List Lexeme) (inner : Nat) (first : List Lexeme)
    (others : List (List Lexeme)) : Prop where
  reads : ∀ rest, readAt depth (ls ++ rest) = prepend first others (readAt inner rest)
  keeps : ∀ l ∈ ls, (∀ mark, l.token ≠ .symbol mark) → l ∈ first ++ others.flatten

section Steps

variable {depth depth' inner : Nat} {l : Lexeme} {ls first more : List Lexeme}
  {others : List (List Lexeme)}

theorem ClosesIn.push
    (hread : ∀ rest, readAt depth (l :: rest) = Group.push l (readAt depth' rest))
    (h : ClosesIn depth' ls first others more) :
    ClosesIn depth (l :: ls) (l :: first) others more where
  reads rest := by
    rw [List.cons_append, hread, h.reads]
    rfl
  ends := by
    obtain ⟨inside, close, rfl⟩ := h.ends
    exact ⟨l :: inside, close, rfl⟩
  keeps m hm hmark := by
    rcases List.mem_cons.1 hm with rfl | hm
    · exact .inr (List.mem_cons_self ..)
    · exact (h.keeps m hm hmark).imp_right (List.mem_cons_of_mem l)

theorem ClosesIn.comma (hl : l.token = .symbol .comma) (h : ClosesIn 0 ls first others more) :
    ClosesIn 0 (l :: ls) [] (first :: others) more where
  reads rest := by
    rw [List.cons_append, readAt_zero_comma hl, h.reads]
    rfl
  ends := by
    obtain ⟨inside, close, rfl⟩ := h.ends
    exact ⟨l :: inside, close, rfl⟩
  keeps m hm hmark := by
    rcases List.mem_cons.1 hm with rfl | hm
    · exact absurd hl (hmark .comma)
    · exact h.keeps m hm hmark

theorem StaysOpen.push
    (hread : ∀ rest, readAt depth (l :: rest) = Group.push l (readAt depth' rest))
    (h : StaysOpen depth' ls inner first others) :
    StaysOpen depth (l :: ls) inner (l :: first) others where
  reads rest := by rw [List.cons_append, hread, h.reads, push_prepend]
  keeps m hm hmark := by
    rcases List.mem_cons.1 hm with rfl | hm
    · exact List.mem_cons_self ..
    · exact List.mem_cons_of_mem l (h.keeps m hm hmark)

theorem StaysOpen.comma (hl : l.token = .symbol .comma) (h : StaysOpen 0 ls inner first others) :
    StaysOpen 0 (l :: ls) inner [] (first :: others) where
  reads rest := by rw [List.cons_append, readAt_zero_comma hl, h.reads, pushComma_prepend]
  keeps m hm hmark := by
    rcases List.mem_cons.1 hm with rfl | hm
    · exact absurd hl (hmark .comma)
    · exact h.keeps m hm hmark

end Steps

/-- A group either ends among some lexemes or goes on, and in the second case `inner` counts the
parentheses that are open in it. -/
theorem closesIn_or_staysOpen {ls : List Lexeme} (h : ∀ l ∈ ls, l.token ≠ .eof) (depth : Nat) :
    (∃ first others more, ClosesIn depth ls first others more) ∨
      ∃ inner first others, StaysOpen depth ls inner first others ∧
        openAfter (depth + 1) (ls.map Lexeme.token) = inner + 1 := by
  induction ls generalizing depth with
  | nil =>
    refine .inr ⟨depth, [], [], ⟨fun rest => ?_, nofun⟩, rfl⟩
    rfl
  | cons l ls ih =>
    obtain ⟨heof, h⟩ := List.forall_mem_cons.1 h
    -- Every lexeme goes into the part that it stands in, but for a closing parenthesis or a comma
    -- of the group itself.
    have hpush {depth' : Nat}
        (hread : ∀ rest, readAt depth (l :: rest) = push l (readAt depth' rest))
        (hcount : openAfter (depth + 1) ((l :: ls).map Lexeme.token) =
          openAfter (depth' + 1) (ls.map Lexeme.token)) :
        (∃ first others more, ClosesIn depth (l :: ls) first others more) ∨
          ∃ inner first others, StaysOpen depth (l :: ls) inner first others ∧
            openAfter (depth + 1) ((l :: ls).map Lexeme.token) = inner + 1 := by
      rcases ih h depth' with ⟨first, others, more, hcloses⟩ | ⟨inner, first, others, hopen, hinner⟩
      · exact .inl ⟨l :: first, others, more, hcloses.push hread⟩
      · exact .inr ⟨inner, l :: first, others, hopen.push hread, hcount.trans hinner⟩
    by_cases hopen : l.token = .symbol .openParen
    · exact hpush (readAt_openParen hopen) (openAfter_openParen hopen _)
    by_cases hclose : l.token = .symbol .closeParen
    · cases depth with
      | zero =>
        refine .inl ⟨[], [], ls, fun rest => readAt_zero_closeParen hclose (ls ++ rest),
          ⟨[], l, rfl⟩, fun m hm hmark => ?_⟩
        rcases List.mem_cons.1 hm with rfl | hm
        · exact absurd hclose (hmark .closeParen)
        · exact .inl hm
      | succ outer =>
        exact hpush (readAt_succ_closeParen hclose) (openAfter_closeParen hclose _)
    have hcount : openAfter (depth + 1) ((l :: ls).map Lexeme.token) =
        openAfter (depth + 1) (ls.map Lexeme.token) := openAfter_plain hopen hclose _
    by_cases hcomma : l.token = .symbol .comma ∧ depth = 0
    · obtain ⟨hcomma, rfl⟩ := hcomma
      rcases ih h 0 with ⟨first, others, more, hcloses⟩ | ⟨inner, first, others, hstays, hinner⟩
      · exact .inl ⟨[], first :: others, more, hcloses.comma hcomma⟩
      · exact .inr ⟨inner, [], first :: others, hstays.comma hcomma, hcount.trans hinner⟩
    · exact hpush (readAt_plain hopen hclose heof fun hl hdepth => hcomma ⟨hl, hdepth⟩) hcount

end Group

end SqlDraft
