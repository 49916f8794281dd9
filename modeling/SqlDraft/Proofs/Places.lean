import SqlDraft.Proofs.Parts

/-!
# Groups by their places

A group is read lexeme by lexeme, and it can as well be cut out of a row of lexemes by the places
where its parts begin and end (`splitFrom`).  Both find the same parts (`splitsInto_readAt`), and no
place is out of range.  In a draft the parts divide what a pair of parentheses holds:
`splitGroup_lexemes`.
-/

namespace SqlDraft

/-! ## Splitting by places -/

/-- The token at a place among lexemes.  Behind the last one there is nothing but the end. -/
def tokenAt (ls : List Lexeme) (pos : Nat) : Token :=
  (ls[pos]?.map Lexeme.token).getD .eof

/-- The place after another one, if there is any. -/
def advance (ls : List Lexeme) (pos : Nat) : Nat :=
  if pos < ls.length then pos + 1 else pos

/-- The lexemes from one place up to another, unless these are out of order or out of range. -/
def between? (ls : List Lexeme) (start stop : Nat) : Option (List Lexeme) :=
  if start ≤ stop ∧ stop ≤ ls.length then some ((ls.take stop).drop start) else none

theorem lt_length_of_tokenAt {ls : List Lexeme} {pos : Nat} (h : tokenAt ls pos ≠ .eof) :
    pos < ls.length := by
  refine Nat.lt_of_not_le fun hle => h ?_
  rw [tokenAt, List.getElem?_eq_none hle]
  rfl

theorem advance_of_tokenAt {ls : List Lexeme} {pos : Nat} (h : tokenAt ls pos ≠ .eof) :
    advance ls pos = pos + 1 :=
  if_pos (lt_length_of_tokenAt h)

theorem left_lt_of_tokenAt {ls : List Lexeme} {pos : Nat} (h : tokenAt ls pos ≠ .eof) :
    ls.length - advance ls pos < ls.length - pos := by
  have hlt := lt_length_of_tokenAt h
  rw [advance_of_tokenAt h]
  omega

/-- Splits a group at its commas: `pos` is the place reached, `start` that of the part it stands in,
and `depth` parentheses are open in that part.  Gives the parts and the place after the group. -/
def splitFrom (ls : List Lexeme) (parts : List (List Lexeme)) (depth start pos : Nat) :
    Option (List (List Lexeme) × Nat) :=
  if heof : tokenAt ls pos = .eof then
    let stop := min pos ls.length
    (between? ls (min start stop) stop).map fun part => (parts ++ [part], pos)
  else
    match tokenAt ls pos, depth with
    | .symbol .openParen, _ => splitFrom ls parts (depth + 1) start (advance ls pos)
    | .symbol .closeParen, outer + 1 => splitFrom ls parts outer start (advance ls pos)
    | .symbol .closeParen, 0 =>
      (between? ls start pos).map fun part => (parts ++ [part], advance ls pos)
    | .symbol .comma, 0 =>
      (between? ls start pos).bind fun part =>
        splitFrom ls (parts ++ [part]) 0 (pos + 1) (advance ls pos)
    | _, _ => splitFrom ls parts depth start (advance ls pos)
  termination_by ls.length - pos
  decreasing_by all_goals exact left_lt_of_tokenAt heof

theorem splitFrom_eof {ls : List Lexeme} {start pos : Nat} (h : tokenAt ls pos = .eof)
    (hstart : start ≤ pos) (hpos : pos ≤ ls.length) (parts : List (List Lexeme)) (depth : Nat) :
    splitFrom ls parts depth start pos =
      (between? ls start pos).map fun part => (parts ++ [part], pos) := by
  rw [splitFrom.eq_def, dif_pos h, Nat.min_eq_left hpos]
  simp only [Nat.min_eq_left hstart]

section Steps

variable {ls : List Lexeme} {l : Lexeme} {pos : Nat} (hpos : ls[pos]? = some l)

include hpos

theorem tokenAt_of_getElem? : tokenAt ls pos = l.token := by
  rw [tokenAt, hpos]
  rfl

/-- At a lexeme that is not the end the reader goes on. -/
theorem goesOn {t : Token} (hl : l.token = t) (ht : t ≠ .eof) :
    tokenAt ls pos = t ∧ tokenAt ls pos ≠ .eof ∧ advance ls pos = pos + 1 := by
  have htoken : tokenAt ls pos = t := (tokenAt_of_getElem? hpos).trans hl
  have hne : tokenAt ls pos ≠ .eof := htoken ▸ ht
  exact ⟨htoken, hne, advance_of_tokenAt hne⟩

theorem splitFrom_openParen (hl : l.token = .symbol .openParen) {depth : Nat}
    (parts : List (List Lexeme)) (start : Nat) :
    splitFrom ls parts depth start pos = splitFrom ls parts (depth + 1) start (pos + 1) := by
  obtain ⟨htoken, hne, hnext⟩ := goesOn hpos hl nofun
  rw [splitFrom.eq_def, dif_neg hne, htoken, hnext]

theorem splitFrom_succ_closeParen (hl : l.token = .symbol .closeParen) {depth : Nat}
    (parts : List (List Lexeme)) (start : Nat) :
    splitFrom ls parts (depth + 1) start pos = splitFrom ls parts depth start (pos + 1) := by
  obtain ⟨htoken, hne, hnext⟩ := goesOn hpos hl nofun
  rw [splitFrom.eq_def, dif_neg hne, htoken, hnext]

theorem splitFrom_zero_closeParen (hl : l.token = .symbol .closeParen) (parts : List (List Lexeme))
    (start : Nat) :
    splitFrom ls parts 0 start pos =
      (between? ls start pos).map fun part => (parts ++ [part], pos + 1) := by
  obtain ⟨htoken, hne, hnext⟩ := goesOn hpos hl nofun
  rw [splitFrom.eq_def, dif_neg hne, htoken, hnext]

theorem splitFrom_zero_comma (hl : l.token = .symbol .comma) (parts : List (List Lexeme))
    (start : Nat) :
    splitFrom ls parts 0 start pos =
      (between? ls start pos).bind fun part =>
        splitFrom ls (parts ++ [part]) 0 (pos + 1) (pos + 1) := by
  obtain ⟨htoken, hne, hnext⟩ := goesOn hpos hl nofun
  rw [splitFrom.eq_def, dif_neg hne, htoken, hnext]
  rfl

theorem splitFrom_plain (hopen : l.token ≠ .symbol .openParen)
    (hclose : l.token ≠ .symbol .closeParen) (heof : l.token ≠ .eof) {depth : Nat}
    (hcomma : l.token = .symbol .comma → depth ≠ 0) (parts : List (List Lexeme)) (start : Nat) :
    splitFrom ls parts depth start pos = splitFrom ls parts depth start (pos + 1) := by
  obtain ⟨htoken, hne, hnext⟩ := goesOn hpos rfl heof
  rw [splitFrom.eq_def, dif_neg hne, htoken, hnext]
  split
  next h => exact absurd h hopen
  next h => exact absurd h hclose
  next h => exact absurd h hclose
  next h => exact absurd rfl (hcomma h)
  next => rfl

end Steps

theorem between?_append (before part after : List Lexeme) :
    between? (before ++ part ++ after) before.length (before ++ part).length = some part := by
  have hstart := (List.prefix_append before part).length_le
  have hstop := (List.prefix_append (before ++ part) after).length_le
  rw [between?, if_pos ⟨hstart, hstop⟩, List.take_left, List.drop_left]

namespace Group

theorem fragments_pushAll_push (part : List Lexeme) (l : Lexeme) (g : Group) :
    (pushAll part (push l g)).fragments = (pushAll (part ++ [l]) g).fragments := by
  rw [pushAll, push, pushAll, List.append_assoc, List.singleton_append]

theorem fragments_pushAll_pushComma (part : List Lexeme) (g : Group) :
    (pushAll part (pushComma g)).fragments = part :: g.fragments := by
  rw [pushAll, pushComma, List.append_nil]
  rfl

end Group

/-- Whether splitting lexemes by places finds a group in the last of them, `after`, when `depth`
parentheses are open.  No place is out of range on the way, whatever is in front: `before` is
behind the reader and `part` is what it has of the part that it is in. -/
def SplitsInto (depth : Nat) (after : List Lexeme) (g : Group) : Prop :=
  ∀ before part parts,
    splitFrom (before ++ part ++ after) parts depth before.length (before ++ part).length =
      some (parts ++ (Group.pushAll part g).fragments,
        (before ++ part ++ after).length - g.rest.length)

theorem getElem?_length_append (ls later : List Lexeme) (l : Lexeme) :
    (ls ++ l :: later)[ls.length]? = some l := by
  rw [List.getElem?_append_right (Nat.le_refl _), Nat.sub_self]
  rfl

theorem length_eq_sub (ls later : List Lexeme) :
    ls.length = (ls ++ later).length - later.length := by
  rw [List.length_append, Nat.add_sub_cancel]

theorem length_add_one (ls : List Lexeme) (l : Lexeme) : ls.length + 1 = (ls ++ [l]).length := by
  rw [List.length_append, List.length_singleton]

namespace SplitsInto

variable {depth : Nat} {l : Lexeme} {after : List Lexeme} {g : Group}

theorem eof (h : ∀ l, after.head? = some l → l.token = .eof) :
    SplitsInto depth after ⟨[], [], after⟩ := by
  intro before part parts
  have hstart := (List.prefix_append before part).length_le
  have hstop := (List.prefix_append (before ++ part) after).length_le
  have htoken : tokenAt (before ++ part ++ after) (before ++ part).length = .eof := by
    cases after with
    | nil =>
      rw [tokenAt, List.append_nil, List.getElem?_eq_none (Nat.le_refl _)]
      rfl
    | cons l after => exact (tokenAt_of_getElem? (getElem?_length_append ..)).trans (h l rfl)
  rw [splitFrom_eof htoken hstart hstop, between?_append, Option.map_some,
    length_eq_sub (before ++ part) after, Group.pushAll, List.append_nil]
  rfl

theorem close (hl : l.token = .symbol .closeParen) :
    SplitsInto 0 (l :: after) ⟨[], [], after⟩ := by
  intro before part parts
  have hplace := length_eq_sub (before ++ part ++ [l]) after
  rw [splitFrom_zero_closeParen (getElem?_length_append ..) hl, between?_append, Option.map_some,
    length_add_one, hplace, ← List.append_cons, Group.pushAll, List.append_nil]
  rfl

/-- A lexeme that is no comma of the group goes into the part that the reader is in. -/
theorem push {depth' : Nat}
    (hstep : ∀ {ls : List Lexeme} {pos : Nat}, ls[pos]? = some l → ∀ parts start,
      splitFrom ls parts depth start pos = splitFrom ls parts depth' start (pos + 1))
    (h : SplitsInto depth' after g) : SplitsInto depth (l :: after) (g.push l) := by
  intro before part parts
  rw [hstep (getElem?_length_append ..), length_add_one, List.append_cons,
    List.append_assoc before part, h, Group.fragments_pushAll_push]
  rfl

theorem comma (hl : l.token = .symbol .comma) (h : SplitsInto 0 after g) :
    SplitsInto 0 (l :: after) g.pushComma := by
  intro before part parts
  -- Behind the comma a new part begins, with all that was read in front of it.
  have hnext := h (before ++ part ++ [l]) [] (parts ++ [part])
  rw [List.append_nil] at hnext
  rw [splitFrom_zero_comma (getElem?_length_append ..) hl, between?_append, Option.bind_some,
    length_add_one, List.append_cons, hnext, Group.fragments_pushAll_pushComma, List.append_assoc]
  rfl

end SplitsInto

/-- Splitting by places finds what reading the group finds. -/
theorem splitsInto_readAt (depth : Nat) (after : List Lexeme) :
    SplitsInto depth after (Group.readAt depth after) := by
  fun_induction Group.readAt depth after with
  | case1 =>
    refine .eof fun l hl => ?_
    cases hl
  | case2 depth l ls hl => exact .eof fun m hm => Option.some.inj hm ▸ hl
  | case3 depth l ls hl ih => exact ih.push fun hpos => splitFrom_openParen hpos hl
  | case4 l ls hl => exact .close hl
  | case5 l ls hl outer ih => exact ih.push fun hpos => splitFrom_succ_closeParen hpos hl
  | case6 l ls hl ih => exact ih.comma hl
  | case7 l ls hl outer ih =>
    have hopen : l.token ≠ .symbol .openParen := by
      rw [hl]
      decide
    have hclose : l.token ≠ .symbol .closeParen := by
      rw [hl]
      decide
    have heof : l.token ≠ .eof := by
      rw [hl]
      decide
    exact ih.push fun hpos =>
      splitFrom_plain hpos hopen hclose heof fun _ => Nat.succ_ne_zero outer
  | case8 depth l ls heof hopen hclose hcomma ih =>
    exact ih.push fun hpos => splitFrom_plain hpos hopen hclose heof fun h => absurd h hcomma

/-! ## Groups of a draft -/

/-- Splits the group whose inside begins at a place among lexemes. -/
def splitGroup (ls : List Lexeme) (start : Nat) : Option (List (List Lexeme) × Nat) :=
  splitFrom ls [] 0 start start

theorem splitGroup_append (front inside : List Lexeme) :
    splitGroup (front ++ inside) front.length =
      some ((Group.read inside).fragments,
        (front ++ inside).length - (Group.read inside).rest.length) := by
  have hsplit := splitsInto_readAt 0 inside front [] []
  rw [List.append_nil] at hsplit
  rw [splitGroup, hsplit]
  rfl

theorem exists_eof_of_openParen {draft : String} {front inside : List Lexeme} {paren : Lexeme}
    (hparen : paren.token = .symbol .openParen) (h : lexemes draft = front ++ paren :: inside) :
    ∃ l ∈ inside, l.token = .eof := by
  rcases eof_or_exists_concat h with ⟨heof, -, -⟩ | ⟨-, more, trail, rfl⟩
  · rw [hparen] at heof
    cases heof
  · exact ⟨_, List.mem_concat_self .., rfl⟩

/-- Behind any opening parenthesis of a draft, splitting finds the parts that reading finds.  They
divide all that stands in front of the matching parenthesis, and the reader ends right behind it, or
at the end of the draft if no parenthesis matches. -/
theorem splitGroup_lexemes {draft : String} {front inside : List Lexeme} {paren : Lexeme}
    (hparen : paren.token = .symbol .openParen) (h : lexemes draft = front ++ paren :: inside) :
    ∃ parts body stop, splitGroup (lexemes draft) (front.length + 1) = some (parts, stop) ∧
      (Group.read inside).fragments = parts ∧
      (lexemes draft).drop stop = (Group.read inside).rest ∧
      Divides parts body ∧
      ((∃ close rest, inside = body ++ close :: rest ∧ Pair paren body close ∧
          (∀ part ∈ parts, rise part = 0) ∧ stop = front.length + 1 + body.length + 1) ∨
        ∃ last, inside = body ++ [last] ∧ last.token = .eof ∧
          (∀ body' close rest, inside = body' ++ close :: rest → ¬ Pair paren body' close) ∧
          stop = front.length + 1 + body.length) := by
  have hwhole : lexemes draft = front ++ [paren] ++ inside := h.trans (List.append_cons ..)
  have hsplit := splitGroup_append (front ++ [paren]) inside
  rw [← hwhole, ← length_add_one] at hsplit
  have hrest : (Group.read inside).rest <:+ lexemes draft := by
    rw [hwhole]
    exact (Group.readAt_rest_isSuffix 0 inside).trans (List.suffix_append ..)
  obtain ⟨body, hbody⟩ : ∃ body, Group.Extends 0 inside (Group.read inside) body :=
    Group.exists_extends 0 (exists_eof_of_openParen hparen h)
  refine ⟨_, body, _, hsplit, rfl, (List.suffix_iff_eq_drop.1 hrest).symm, ?_⟩
  cases hbody with
  | @closed close hls hclose hparts =>
    have hlength := congrArg List.length (hls ▸ h)
    refine ⟨hparts.divides, .inl ⟨close, _, hls, hparts.pair hparen hclose, hparts.rise_eq_zero,
      ?_⟩⟩
    simp only [List.length_append, List.length_cons] at hlength
    omega
  | @unclosed last more left hls hread hlast hparts =>
    have hwhole : lexemes draft = (front ++ paren :: body) ++ last :: more := by
      rw [h, hls, List.append_assoc, List.cons_append]
    -- Nothing follows the end of a draft, so the end is the last lexeme inside.
    obtain ⟨-, rfl⟩ := eq_nil_of_eof hwhole hlast
    have hlength := congrArg List.length hwhole
    refine ⟨hparts.divides, .inr ⟨last, hls, hlast, ?_, ?_⟩⟩
    · exact fun body' close rest hsplit =>
        not_pair_of_staysInside hparts.staysInside hlast (hls.symm.trans hsplit)
    · rw [hread, List.length_singleton]
      simp only [List.length_append, List.length_cons, List.length_nil] at hlength
      omega

/-- A table with a comma in one of its types. -/
def costDraft : String :=
  "CREATE TABLE t (id INT, cost NUMERIC(8, 2)) x"

theorem splitGroup_lexemes_cost :
    ∃ parts stop, splitGroup (lexemes costDraft) 4 = some (parts, stop) ∧
      parts.map (fun part => part.map Lexeme.text) =
        [["id".toList, "INT".toList],
          ["cost".toList, "NUMERIC".toList, ['('], ['8'], [','], ['2'], [')']]] ∧
      ((lexemes costDraft).drop stop).map Lexeme.text = [['x'], []] := by
  have hsplit : lexemes costDraft = (lexemes costDraft).take 3 ++
      (⟨[' '], ['('], .symbol .openParen⟩ : Lexeme) :: (lexemes costDraft).drop 4 := by
    decide +kernel
  obtain ⟨parts, -, stop, hparts, hread, hrest, -⟩ := splitGroup_lexemes rfl hsplit
  refine ⟨parts, stop, hparts, ?_, ?_⟩
  · rw [← hread]
    decide +kernel
  · rw [hrest]
    decide +kernel

end SqlDraft
