import SqlDraft.Proofs.Cells
import SqlDraft.Proofs.Extents
import SqlDraft.Proofs.Gaps
import SqlDraft.Proofs.Literals

/-!
# Groups that are left open

The end of a draft closes what is open there.  `reads_as_closed` says that the last group of values
or the body of a definition reads the same with and without its closing parenthesis, and a literal
that makes up a cell the same with and without its closing quote.
-/

namespace SqlDraft

/-! ## Drafts that end in a comment -/

/-- Whether a piece is a comment that lacks its end. -/
def Piece.isOpenComment : Piece → Bool
  | .gap .lineComment text => text.getLast? != some '\n'
  | .gap .blockComment text => !(['*', '/'].isSuffixOf (text.drop 2))
  | _ => false

/-- Whether a text ends inside a comment. -/
def endsInComment (text : List Char) : Bool :=
  (pieces text).getLast?.any Piece.isOpenComment

/-- A last piece that has ended stays as it is in front of a character that starts a piece. -/
theorem FirstPiece.append_of_ended {c d : Char} {cs : List Char} {p : Piece}
    (h : FirstPiece c cs p) (hwhole : p.text = c :: cs) (hclosed : p.isOpen = false)
    (hended : p.isOpenComment = false) (hd : StartsPiece d) (t : List Char) :
    FirstPiece c (cs ++ d :: t) p := by
  rcases h.append_startsPiece hwhole hclosed hd t with hsame | ⟨kind, hkind, longer, hgap, -, -⟩
  · exact hsame
  -- What is left is a gap: a comment that goes on would have to lack its end.
  obtain ⟨text, htext⟩ : ∃ text, text = c :: cs := ⟨_, rfl⟩
  rw [hgap, ← htext] at h hended ⊢
  cases h with
  | blank | stray => simp at hkind
  | @lineComment rest hc hcs =>
    have hline : lineText cs = cs := (List.cons.inj htext).2
    have hself : lineText (cs ++ []) = cs := by rwa [List.append_nil]
    have hend : (c :: cs).getLast? = some '\n' := by
      rw [hline] at hended
      simpa [Piece.isOpenComment] using hended
    have hlast : cs.getLast? = some '\n' := by
      rwa [hcs, List.getLast?_cons_cons, ← hcs] at hend
    have hdash : cs ++ d :: t = '-' :: (rest ++ d :: t) := by rw [hcs, List.cons_append]
    have hfirst : FirstPiece c (cs ++ d :: t) _ := .lineComment hc hdash
    rw [lineText_append_of_ended hself (.inr hlast)] at hfirst
    rwa [hline]
  | @blockComment rest hc hcs =>
    subst hcs
    have hblock : blockText rest = rest := (List.cons.inj (List.cons.inj htext).2).2
    have hself : blockText (rest ++ []) = rest := by rwa [List.append_nil]
    have hend : ['*', '/'] <:+ rest := by
      rw [hblock] at hended
      simpa [Piece.isOpenComment] using hended
    have hfirst : FirstPiece c ('*' :: rest ++ d :: t)
        (.gap .blockComment (c :: '*' :: blockText (rest ++ d :: t))) := .blockComment hc rfl
    rw [blockText_append_of_ended hself (.inr hend)] at hfirst
    rwa [hblock]

/-- Pieces that have all ended stay as they are in front of a character that starts a piece. -/
theorem pieces_append_of_ended {text : List Char} {d : Char} (hopen : endsOpen text = false)
    (hcomment : endsInComment text = false) (hd : StartsPiece d) (t : List Char) :
    pieces (text ++ d :: t) = pieces text ++ pieces (d :: t) := by
  cases text with
  | nil => rfl
  | cons c cs =>
    obtain ⟨front, last, later, hpieces, hwhole, happend⟩ := exists_pieces_append c cs
    rw [endsOpen, hpieces, List.getLast?_concat] at hopen
    rw [endsInComment, hpieces, List.getLast?_concat] at hcomment
    have hlast := (firstPiece_kind last later).append_of_ended hwhole hopen hcomment hd t
    have hsplit : last :: (later ++ d :: t) = (firstPiece last later).text ++ d :: t := by
      rw [hwhole, List.cons_append]
    rw [happend, hpieces, List.cons_append, pieces_of_firstPiece hlast hsplit, List.append_assoc,
      List.singleton_append]

/-- A closing parenthesis at the end of a draft is a lexeme by itself. -/
theorem exists_lexemes_close {s : String} (hopen : endsOpen s.toList = false)
    (hcomment : endsInComment s.toList = false) :
    ∃ kept lead, (∀ l ∈ kept, l.token ≠ .eof) ∧ lexemes s = kept ++ [⟨lead, [], .eof⟩] ∧
      lexemes (s ++ ")") = kept ++ [.ofMark lead .closeParen, ⟨[], [], .eof⟩] := by
  obtain ⟨kept, lead, hkept, hread⟩ :=
    exists_ofPieces_append fun p (hp : p ∈ pieces s.toList) => token?_ne_eof_of_mem hp
  refine ⟨kept, lead, hkept, ?_, ?_⟩
  · have hread := hread []
    rw [List.append_nil] at hread
    rw [lexemes, hread, Lexeme.ofPieces, Lexeme.addLead, List.append_nil]
  · have hpieces : pieces (s.toList ++ [')']) = pieces s.toList ++ pieces [')'] :=
      pieces_append_of_ended hopen hcomment startsPiece_closeParen []
    have hclose : pieces [')'] = [.token (.symbol .closeParen) [')']] :=
      pieces_symbol_cons .closeParen []
    rw [lexemes, String.toList_append, show (")" : String).toList = [')'] from rfl, hpieces, hread,
      hclose]
    simp [Lexeme.ofPieces, Lexeme.addLead, Lexeme.ofMark, Symbol.char]

/-! ## Groups that the draft cuts off -/

section Close

variable {ls : List Lexeme} {last close : Lexeme} (hlast : last.token = .eof)
  (hclose : close.token = .symbol .closeParen)

include hlast hclose

/-- A group that is the only one open goes on to the end of the draft, or to a parenthesis there. -/
theorem Group.read_close (hls : ∀ l ∈ ls, l.token ≠ .eof)
    (hcount : openAfter 1 (ls.map Lexeme.token) ≤ 1) (last' : Lexeme) :
    (∃ first others more, ClosesIn 0 ls first others more) ∨
      ∃ first others, read (ls ++ [last]) = prepend first others ⟨[], [], [last]⟩ ∧
        read (ls ++ [close, last']) = prepend first others ⟨[], [], [last']⟩ := by
  rcases closesIn_or_staysOpen hls 0 with hcloses | ⟨inner, first, others, hopen, hinner⟩
  · exact .inl hcloses
  · -- The one that is open is the group itself, so none inside it is.
    obtain rfl : inner = 0 := by
      rw [Nat.zero_add] at hinner
      omega
    refine .inr ⟨first, others, ?_, ?_⟩
    · rw [read, hopen.reads, readAt_eof hlast]
    · rw [read, hopen.reads, readAt_zero_closeParen hclose]

theorem Group.fragments_close (hls : ∀ l ∈ ls, l.token ≠ .eof)
    (hcount : openAfter 1 (ls.map Lexeme.token) ≤ 1) (last' : Lexeme) :
    (read (ls ++ [last])).fragments = (read (ls ++ [close, last'])).fragments := by
  rcases read_close hlast hclose hls hcount last' with
    ⟨first, others, more, hcloses⟩ | ⟨first, others, hread, hread'⟩
  · rw [read, read, hcloses.reads, hcloses.reads]
    rfl
  · obtain ⟨parts, end_, hfragments⟩ := fragments_prepend first others
    rw [hread, hread', hfragments, hfragments]

theorem columnsOf_close (hls : ∀ l ∈ ls, l.token ≠ .eof)
    (hcount : openAfter 1 (ls.map Lexeme.token) ≤ 1) (last' : Lexeme) :
    columnsOf (ls ++ [last]) = columnsOf (ls ++ [close, last']) := by
  rw [columnsOf, columnsOf, Group.fragments_close hlast hclose hls hcount last']

variable {last' : Lexeme}

theorem laterRows_close {more : List Lexeme}
    (h : ∀ comma ls, more = comma :: ls → comma.token = .symbol .comma →
      rowsAtFront (ls ++ [last]) = rowsAtFront (ls ++ [close, last'])) :
    laterRows (more ++ [last]) = laterRows (more ++ [close, last']) := by
  cases more with
  | nil =>
    rw [List.nil_append, List.nil_append, laterRows_of_ne (by simp [hlast]),
      laterRows_of_ne (by simp [hclose])]
  | cons comma ls =>
    rw [List.cons_append, List.cons_append]
    by_cases hcomma : comma.token = .symbol .comma
    · rw [laterRows_cons hcomma, laterRows_cons hcomma, h comma ls rfl hcomma]
    · rw [laterRows_of_ne hcomma, laterRows_of_ne hcomma]

variable (hlast' : last'.token = .eof)

include hlast'

theorem rowsAtFront_close (hls : ∀ l ∈ ls, l.token ≠ .eof)
    (hcount : openAfter 0 (ls.map Lexeme.token) ≤ 1) :
    rowsAtFront (ls ++ [last]) = rowsAtFront (ls ++ [close, last']) := by
  -- By induction on the length: a group that ends is followed by a shorter list of groups.
  induction hlength : ls.length using Nat.strongRecOn generalizing ls with
  | ind n ih =>
    subst hlength
    cases ls with
    | nil =>
      rw [List.nil_append, List.nil_append, rowsAtFront_of_ne (by simp [hlast]),
        rowsAtFront_of_ne (by simp [hclose])]
    | cons paren body =>
      by_cases hparen : paren.token = .symbol .openParen
      · have hbody := (List.forall_mem_cons.1 hls).2
        have hinner : openAfter 1 (body.map Lexeme.token) ≤ 1 := by
          rwa [List.map_cons, openAfter_openParen hparen] at hcount
        have hsame := Group.fragments_close hlast hclose hbody hinner last'
        rcases Group.read_close hlast hclose hbody hinner last' with
          ⟨first, others, more, hcloses⟩ | ⟨first, others, hread, hread'⟩
        · rw [rowsAtFront_of_closesIn hparen hcloses, rowsAtFront_of_closesIn hparen hcloses]
          refine congrArg _ (laterRows_close hlast hclose fun comma ls hmore _ => ?_)
          obtain ⟨inside, paren', rfl⟩ := hcloses.ends
          rw [hmore] at hcount hls
          have hfront : paren :: (inside ++ paren' :: comma :: ls) =
              (paren :: inside ++ [paren', comma]) ++ ls := by simp
          rw [hfront] at hcount hls
          rw [List.map_append] at hcount
          refine ih ls.length ?_ (fun l hl => hls l (List.mem_append_right _ hl))
            (Nat.le_trans (openAfter_le_append _ _) hcount) rfl
          rw [hmore, hfront, List.length_append, List.length_append]
          exact Nat.lt_add_of_pos_left (Nat.add_pos_left (Nat.succ_pos _) _)
        · rw [List.cons_append, List.cons_append, rowsAtFront_cons hparen, rowsAtFront_cons hparen,
            hsame, hread, hread', Group.prepend_rest, Group.prepend_rest,
            laterRows_of_ne (by simp [hlast]), laterRows_of_ne (by simp [hlast'])]
      · rw [List.cons_append, List.cons_append, rowsAtFront_of_ne hparen, rowsAtFront_of_ne hparen]

theorem rowsOf_close (hls : ∀ l ∈ ls, l.token ≠ .eof)
    (hcount : openAfter 0 (ls.map Lexeme.token) ≤ 1) :
    rowsOf (ls ++ [last]) = rowsOf (ls ++ [close, last']) := by
  induction ls with
  | nil =>
    rw [List.nil_append, List.nil_append, rowsOf_eq_nil (by simp [hlast]),
      rowsOf_eq_nil (by simp [hclose, hlast'])]
  | cons l ls ih =>
    obtain ⟨-, hls⟩ := List.forall_mem_cons.1 hls
    have hcount : openAfter 0 (ls.map Lexeme.token) ≤ 1 :=
      Nat.le_trans (openAfter_le_append [l.token] _) hcount
    rw [List.cons_append, List.cons_append, rowsOf, rowsOf, ih hls hcount,
      rowsAtFront_close hlast hclose hlast' hls hcount]

end Close

/-- Two ends of a draft make no difference to its definition if they make none to the columns of
any body that is open in front of them. -/
theorem ofLexemes?_congr {kept tail tail' : List Lexeme}
    (htail : ∀ l ∈ tail, l.token ≠ .symbol .openParen)
    (htail' : ∀ l ∈ tail', l.token ≠ .symbol .openParen)
    (hcolumns : ∀ paren inside, paren.token = .symbol .openParen → paren :: inside <:+ kept →
      columnsOf (inside ++ tail) = columnsOf (inside ++ tail')) :
    Definition.ofLexemes? (kept ++ tail) = Definition.ofLexemes? (kept ++ tail') := by
  -- No definition starts behind `kept`, so the two drafts have the same first one, or none.
  cases h : Definition.ofLexemes? (kept ++ tail) with
  | some d =>
    obtain ⟨body, hfirst, -⟩ := exists_firstDefinition h
    obtain ⟨inside, rfl, ⟨paren, hparen, hsuffix⟩, -, hstill⟩ := hfirst.exists_append htail
    rw [ofLexemes?_of_firstDefinition hfirst, hcolumns paren inside hparen hsuffix] at h
    rw [← h, ofLexemes?_of_firstDefinition (hstill tail')]
  | none =>
    cases h' : Definition.ofLexemes? (kept ++ tail') with
    | none => rfl
    | some d =>
      obtain ⟨body, hfirst, -⟩ := exists_firstDefinition h'
      obtain ⟨inside, rfl, -, -, hstill⟩ := hfirst.exists_append htail'
      rw [ofLexemes?_of_firstDefinition (hstill tail)] at h
      cases h

/-! ## Literals that the draft cuts off -/

/-- A literal after a gap that lacks its closing quote. -/
def Lexeme.ofOpenLiteral (lead content : List Char) : Lexeme :=
  ⟨lead, '\'' :: doubled '\'' content, .str (String.ofList content)⟩

/-- Whether a draft ends inside a literal that makes up a part of a group of values. -/
structure EndsInLiteral (draft : String) (l : Lexeme) : Prop where
  isOpen : endsOpen draft.toList = true
  last : ∃ front trail, lexemes draft = front ++ [l, trail]
  literal : ∃ content, l.token = .str content
  alone : ∃ g ∈ valueGroups (lexemes draft), [l] ∈ g.fragments

theorem doubled_unquoted {close : Char} {cs : List Char} (h : closes close cs = false) :
    doubled close (unquoted close cs) = cs := by
  fun_induction closes close cs with
  | case1 => rfl
  | case2 c =>
    have hc : c ≠ close := by simpa using h
    rw [unquoted, if_neg hc, doubled_cons, if_neg hc]
    rfl
  | case3 cs ih => rw [unquoted, if_pos rfl, if_pos rfl, doubled_cons, if_pos rfl, ih h]; rfl
  | case4 => exact Bool.noConfusion h
  | case5 c d cs hc ih => rw [unquoted, if_neg hc, doubled_cons, if_neg hc, ih h]; rfl

/-- What is added to a text that ends inside a quotation is read on from the opening quote. -/
theorem exists_textLexemes_append {text : List Char} (h : endsOpen text = true) :
    ∃ kept lead opening close later, (∀ l ∈ kept, l.token ≠ .eof) ∧
      closingQuote? opening = some close ∧ closes close later = false ∧
      ∀ t, textLexemes (text ++ t) =
        kept ++ Lexeme.addLead lead (textLexemes (opening :: later ++ t)) := by
  obtain ⟨front, opening, close, later, hclose, hlater, happend⟩ :=
    exists_pieces_append_of_endsOpen h
  have hfront : ∀ p ∈ front, p.token? ≠ some .eof := by
    intro p hp
    have hp : p ∈ pieces (text ++ []) := happend [] ▸ List.mem_append_left _ hp
    exact token?_ne_eof_of_mem hp
  obtain ⟨kept, lead, hkept, hread⟩ := exists_ofPieces_append hfront
  refine ⟨kept, lead, opening, close, later, hkept, hclose, hlater, fun t => ?_⟩
  rw [textLexemes, happend, hread, ← textLexemes]

theorem textLexemes_of_not_closes {opening close : Char} {later : List Char}
    (hclose : closingQuote? opening = some close) (h : closes close later = false) :
    textLexemes (opening :: later) =
      [⟨[], opening :: later, quotationToken opening (unquoted close later)⟩, ⟨[], [], .eof⟩] := by
  rw [textLexemes, pieces_of_not_closes hclose h]
  rfl

/-- A closing quote and a closing parenthesis make a literal of an open one. -/
theorem textLexemes_close (content : List Char) :
    textLexemes ('\'' :: doubled '\'' content ++ ['\'', ')']) =
      [.ofLiteral [] content, .ofMark [] .closeParen, ⟨[], [], .eof⟩] := by
  have hparen : pieces [')'] = [.token (.symbol .closeParen) [')']] :=
    pieces_symbol_cons .closeParen []
  rw [List.cons_append, ← quoted_append, textLexemes, pieces_quoted_append rfl (by simp), hparen]
  rfl

/-- A closing quote and a closing parenthesis at the end of a draft close its last literal and the
group that this stands in. -/
theorem EndsInLiteral.exists_lexemes {s : String} {l : Lexeme} (h : EndsInLiteral s l) :
    ∃ kept lead content, l = .ofOpenLiteral lead content ∧ (∀ m ∈ kept, m.token ≠ .eof) ∧
      l ∉ kept ∧ lexemes s = kept ++ [l, ⟨[], [], .eof⟩] ∧
      lexemes (s ++ "')") =
        kept ++ [.ofLiteral lead content, .ofMark [] .closeParen, ⟨[], [], .eof⟩] := by
  obtain ⟨hopen, ⟨front, trail, hlast⟩, ⟨text, hliteral⟩, -⟩ := h
  obtain ⟨kept, lead, opening, close, later, hkept, hclose, hlater, happend⟩ :=
    exists_textLexemes_append hopen
  have hshort : lexemes s = kept ++
      [⟨lead, opening :: later, quotationToken opening (unquoted close later)⟩,
        ⟨[], [], .eof⟩] := by
    have hread := happend []
    rw [List.append_nil, List.append_nil, textLexemes_of_not_closes hclose hlater,
      Lexeme.addLead, List.append_nil] at hread
    exact hread
  obtain ⟨rfl, htail⟩ := List.append_inj' (hlast.symm.trans hshort) rfl
  obtain ⟨rfl, -⟩ := List.cons.inj htail
  -- Only an apostrophe opens a literal.
  obtain rfl : opening = '\'' := by
    by_contra hne
    rw [quotationToken, if_neg hne] at hliteral
    cases hliteral
  obtain rfl : '\'' = close := Option.some.inj hclose
  obtain ⟨content, rfl⟩ : ∃ content, later = doubled '\'' content :=
    ⟨_, (doubled_unquoted hlater).symm⟩
  rw [unquoted_doubled] at hshort ⊢
  refine ⟨front, lead, content, rfl, hkept, fun hmem => ?_, hshort, ?_⟩
  · -- An open quotation has nothing but the end behind it.
    obtain ⟨earlier, back, rfl⟩ := List.append_of_mem hmem
    rw [List.append_assoc, List.cons_append] at hshort
    have hback := congrArg List.length (eq_of_unclosed hshort Token.noConfusion rfl rfl)
    simp at hback
  · have hclosing : ("')" : String).toList = ['\'', ')'] := rfl
    rw [lexemes, String.toList_append, ← textLexemes, happend, hclosing, textLexemes_close]
    simp [Lexeme.addLead, Lexeme.ofLiteral]

/-- In the only open group a literal at the end of the draft is a part by itself if nothing of the
group is in front of it but a comma. -/
theorem Group.eq_singleton_of_mem {inside part : List Lexeme} {l last : Lexeme} {content : String}
    (hinside : ∀ m ∈ inside, m.token ≠ .eof)
    (hstart : inside = [] ∨ ∃ ls start, inside = ls ++ [start] ∧ start.IsStart)
    (hcount : openAfter 1 (inside.map Lexeme.token) ≤ 1) (hnot : l ∉ inside)
    (hl : l.token = .str content) (hlast : last.token = .eof)
    (hpart : part ∈ (read (inside ++ [l, last])).fragments) (hmem : l ∈ part) : part = [l] := by
  have hread : readAt 0 [l, last] = ⟨[l], [], [last]⟩ := by
    rw [readAt_str hl, readAt_eof hlast]
    rfl
  rcases hstart with rfl | ⟨ls, start, rfl, hstart⟩
  · rw [List.nil_append, read, hread] at hpart
    exact List.mem_singleton.1 hpart
  have hls : ∀ m ∈ ls, m.token ≠ .eof := fun m hm => hinside m (List.mem_append_left _ hm)
  -- No part that ends in front of the literal holds it.
  have hearlier : part ∉ (readAt 0 (ls ++ [])).fragments := by
    intro hearly
    have hin := readAt_subset 0 _ (List.mem_flatten_of_mem hearly hmem)
    rw [List.append_nil] at hin
    exact hnot (List.mem_append_left _ hin)
  rw [read, List.append_assoc] at hpart
  rcases closesIn_or_staysOpen hls 0 with
    ⟨first, others, more, hcloses⟩ | ⟨inner, first, others, hopen, hinner⟩
  · rw [hcloses.reads] at hpart hearlier
    exact absurd hpart hearlier
  · rw [List.map_append, openAfter_append, ← Nat.zero_add 1, hinner] at hcount
    rcases hstart with hparen | hcomma
    · rw [List.map_singleton, openAfter_openParen hparen] at hcount
      exact absurd hcount (by simp [openAfter])
    · obtain rfl : inner = 0 := by
        rw [List.map_singleton, hcomma] at hcount
        simpa [openAfter] using hcount
      obtain ⟨parts, end_, hfragments⟩ := fragments_prepend first others
      rw [hopen.reads, List.singleton_append, readAt_zero_comma hcomma, hread, hfragments] at hpart
      rw [hopen.reads, hfragments] at hearlier
      simp only [pushComma, fragments, readAt, List.mem_append, List.mem_cons, List.append_nil,
        List.not_mem_nil, or_false, not_or] at hpart hearlier
      rcases hpart with hpart | rfl | rfl
      · exact absurd hpart hearlier.1
      · exact absurd rfl hearlier.2
      · rfl

/-- In front of the literal at the end of a draft is what its part stands after. -/
theorem EndsInLiteral.exists_start {s : String} {l end_ : Lexeme} {kept : List Lexeme}
    (h : EndsInLiteral s l) (hs : lexemes s = kept ++ [l, end_]) (hnot : l ∉ kept)
    (hend : l ≠ end_) : ∃ front start, kept = front ++ [start] ∧ start.IsStart := by
  obtain ⟨own, hown, halone⟩ := h.alone
  obtain ⟨cells, hcells⟩ := exists_cellsOf hown
  obtain ⟨cell, hcell, hpart⟩ := List.mem_map.1 (hcells.parts ▸ halone)
  obtain ⟨front, start, back, hsplit, hstart, -⟩ := hcells.exists_append hcell
  rw [hs, hpart, List.singleton_append, List.append_cons front] at hsplit
  have hlast : l ∉ [end_] := fun hmem => hend (List.mem_singleton.1 hmem)
  exact ⟨front, start, ((List.append_cons_inj_of_notMem hnot hlast).1 hsplit).1, hstart⟩

/-- The literal at the end of a draft is all of every part that it stands in. -/
theorem EndsInLiteral.eq_singleton {s : String} {l : Lexeme} (h : EndsInLiteral s l)
    (hcount : openAfter 0 (tokens s) ≤ 1) {g : Group} (hg : g ∈ valueGroups (lexemes s))
    {part : List Lexeme} (hpart : part ∈ g.fragments) (hmem : l ∈ part) : part = [l] := by
  obtain ⟨kept, lead, content, rfl, hkept, hnot, hs, -⟩ := h.exists_lexemes
  obtain ⟨front, start, hfront, hstart⟩ := h.exists_start hs hnot (by simp [Lexeme.ofOpenLiteral])
  obtain ⟨before, paren, body, hsplit, hparen, rfl⟩ := exists_read_of_mem_valueGroups hg
  rw [hs] at hsplit
  have hinside : paren ∉ [Lexeme.ofOpenLiteral lead content, ⟨[], [], .eof⟩] := by
    intro hin
    simp only [List.mem_cons, List.not_mem_nil, or_false] at hin
    rcases hin with rfl | rfl <;> cases hparen
  obtain ⟨inside, rfl⟩ := exists_of_append_eq hsplit hinside
  rw [List.append_assoc, List.cons_append] at hsplit
  obtain rfl := (List.cons.inj (List.append_cancel_left hsplit)).2
  have hcount : openAfter 1 (inside.map Lexeme.token) ≤ 1 := by
    have hsuffix := openAfter_le_of_isSuffix hparen (List.suffix_append before (paren :: inside))
    rw [tokens, hs, List.map_append, openAfter_append] at hcount
    exact Nat.le_trans hsuffix hcount
  have hin {m : Lexeme} (hm : m ∈ inside) : m ∈ before ++ paren :: inside :=
    List.mem_append_right _ (List.mem_cons_of_mem _ hm)
  refine Group.eq_singleton_of_mem (fun m hm => hkept m (hin hm)) ?_ hcount
    (fun hm => hnot (hin hm)) rfl rfl hpart hmem
  rcases List.eq_nil_or_concat' inside with rfl | ⟨ls, last, rfl⟩
  · exact .inl rfl
  · rw [← List.cons_append, ← List.append_assoc] at hfront
    obtain ⟨-, hsame⟩ := List.append_inj' hfront rfl
    exact .inr ⟨ls, last, rfl, List.singleton_inj.1 hsame ▸ hstart⟩

/-- A change of lexemes that leaves every part its text leaves the rows what they are. -/
theorem Respelling.rowsOf_map {rename : String → String} {change : Lexeme → Lexeme}
    (h : Respelling rename change) {ls : List Lexeme}
    (hparts : ∀ g ∈ valueGroups ls, ∀ part ∈ g.fragments,
      cellText (part.map change) = cellText part) : rowsOf (ls.map change) = rowsOf ls := by
  rw [rowsOf_eq_map, rowsOf_eq_map, h.valueGroups_map, List.map_map]
  refine List.map_congr_left fun g hg => ?_
  change (g.fragments.map (List.map change)).map cellText = g.fragments.map cellText
  rw [List.map_map]
  exact List.map_congr_left (hparts g hg)

/-- With its quote the literal at the end of a draft has the same content, so the part that it makes
up has the same value. -/
theorem EndsInLiteral.rowsOf_ofLiteral {s : String} {lead content : List Char} {kept : List Lexeme}
    (h : EndsInLiteral s (.ofOpenLiteral lead content)) (hcount : openAfter 0 (tokens s) ≤ 1)
    (hs : lexemes s = kept ++ [.ofOpenLiteral lead content, ⟨[], [], .eof⟩])
    (hnot : Lexeme.ofOpenLiteral lead content ∉ kept) :
    rowsOf (kept ++ [.ofLiteral lead content, ⟨[], [], .eof⟩]) = draftRows s := by
  have hswap : (lexemes s).map (swap (.ofOpenLiteral lead content) (.ofLiteral lead content)) =
      kept ++ [.ofLiteral lead content, ⟨[], [], .eof⟩] := by
    rw [hs, List.map_append, map_swap_of_not_mem hnot]
    simp [swap, Lexeme.ofOpenLiteral]
  rw [← hswap, draftRows, (respelling_swap rfl rfl).rowsOf_map]
  intro g hg part hpart
  by_cases hmem : Lexeme.ofOpenLiteral lead content ∈ part
  · rw [h.eq_singleton hcount hg hpart hmem, List.map_singleton, swap, if_pos rfl]
    rfl
  · rw [map_swap_of_not_mem hmem]

/-- A group of values or the body of a definition that is cut off by the end of the draft reads as
if its parenthesis were there, and so does a literal that makes up a part of such a group as if its
quote and the parenthesis were there. -/
theorem reads_as_closed (s : String) (hcount : openAfter 0 (tokens s) ≤ 1) :
    (endsOpen s.toList = false → endsInComment s.toList = false →
      draftRows (s ++ ")") = draftRows s ∧
        Definition.ofDraft? (s ++ ")") = Definition.ofDraft? s) ∧
    ∀ l, EndsInLiteral s l → draftRows (s ++ "')") = draftRows s := by
  constructor
  · intro hopen hcomment
    obtain ⟨kept, lead, hkept, hs, hlong⟩ := exists_lexemes_close hopen hcomment
    have hcount : openAfter 0 (kept.map Lexeme.token) ≤ 1 := by
      rwa [tokens, hs, List.map_append, openAfter_append] at hcount
    constructor
    · rw [draftRows, draftRows, hs, hlong]
      exact (rowsOf_close rfl rfl rfl hkept hcount).symm
    · rw [Definition.ofDraft?, Definition.ofDraft?, hs, hlong]
      refine ofLexemes?_congr ?_ ?_ fun paren inside hparen hsuffix => ?_
      · simp [Lexeme.ofMark]
      · simp
      · have hinside : ∀ l ∈ inside, l.token ≠ .eof := fun l hl =>
          hkept l (hsuffix.subset (List.mem_cons_of_mem _ hl))
        have hcount := Nat.le_trans (openAfter_le_of_isSuffix hparen hsuffix) hcount
        exact (columnsOf_close rfl rfl hinside hcount _).symm
  · intro l h
    obtain ⟨kept, lead, content, rfl, hkept, hnot, hs, hlong⟩ := h.exists_lexemes
    have hrows := h.rowsOf_ofLiteral hcount hs hnot
    have hcount : openAfter 0 ((kept ++ [Lexeme.ofLiteral lead content]).map Lexeme.token) ≤ 1 := by
      rw [tokens, hs, List.map_append, openAfter_append] at hcount
      rw [List.map_append, openAfter_append]
      exact hcount
    have hkept : ∀ m ∈ kept ++ [Lexeme.ofLiteral lead content], m.token ≠ .eof := by
      rw [List.forall_mem_append, List.forall_mem_singleton]
      exact ⟨hkept, Token.noConfusion⟩
    have hclose : rowsOf (kept ++ [.ofLiteral lead content] ++ [⟨[], [], .eof⟩]) =
        rowsOf (kept ++ [.ofLiteral lead content] ++ [.ofMark [] .closeParen, ⟨[], [], .eof⟩]) :=
      rowsOf_close rfl rfl rfl hkept hcount
    rw [List.append_assoc, List.append_assoc] at hclose
    rw [← hrows, draftRows, hlong]
    exact hclose.symm

/-- A list of values that stops after a comma, and one that stops in a value. -/
theorem reads_as_closed_marks :
    let s := "INSERT INTO marks VALUES (1, 'x'), (2, "
    let t := "INSERT INTO marks VALUES (7, 'it''"
    let l : Lexeme := ⟨[' '], "'it''".toList, .str "it'"⟩
    (openAfter 0 (tokens s) ≤ 1 ∧ endsOpen s.toList = false ∧ endsInComment s.toList = false ∧
        draftRows (s ++ ")") = [["1", "x"], ["2", ""]]) ∧
      openAfter 0 (tokens t) ≤ 1 ∧ EndsInLiteral t l ∧ draftRows (t ++ "')") = [["7", "it'"]] := by
  intro s t l
  have hs : openAfter 0 (tokens s) ≤ 1 := by decide +kernel
  have hopen : endsOpen s.toList = false := by decide +kernel
  have hcomment : endsInComment s.toList = false := by decide +kernel
  have ht : openAfter 0 (tokens t) ≤ 1 := by decide +kernel
  have hl : EndsInLiteral t l := by
    refine ⟨by decide +kernel, ⟨(lexemes t).dropLast.dropLast, ⟨[], [], .eof⟩, by decide +kernel⟩,
      ⟨"it'", rfl⟩, by decide +kernel⟩
  refine ⟨⟨hs, hopen, hcomment, ?_⟩, ht, hl, ?_⟩
  · rw [((reads_as_closed s hs).1 hopen hcomment).1]
    decide +kernel
  · rw [(reads_as_closed t ht).2 l hl]
    decide +kernel

end SqlDraft
