import SqlDraft.Proofs.Appending

/-!
# Pieces and lexemes

Pieces are put together into lexemes from left to right, and a row of pieces in front makes up the
same lexemes whatever follows it (`exists_ofPieces_append`).  The other way round, a lexeme stands
for one piece, and what is in front of it for the pieces before that one
(`exists_append_of_ofPieces`).  Only the last lexeme of a draft has no text.
-/

namespace SqlDraft

/-! ## The tokens of pieces -/

theorem ofWord_ne_symbol (word : List Char) (mark : Symbol) : Token.ofWord word ≠ .symbol mark := by
  unfold Token.ofWord
  split <;> exact Token.noConfusion

theorem ofWord_ne_eof (word : List Char) : Token.ofWord word ≠ .eof := by
  unfold Token.ofWord
  split <;> exact Token.noConfusion

theorem quotationToken_ne_eof (opening : Char) (content : List Char) :
    quotationToken opening content ≠ .eof := by
  unfold quotationToken
  split <;> exact Token.noConfusion

/-- No piece is the end of the draft, and a symbol is a piece of one character. -/
theorem firstPiece_token {c : Char} {cs text : List Char} {t : Token}
    (h : firstPiece c cs = .token t text) :
    t ≠ .eof ∧ ∀ mark, t = .symbol mark → c = mark.char := by
  have hkind := firstPiece_kind c cs
  rw [h] at hkind
  cases hkind with
  | symbol hmark =>
    refine ⟨Token.noConfusion, ?_⟩
    rintro mark ⟨⟩
    exact Symbol.char_of_ofChar? hmark
  | quotation =>
    exact ⟨quotationToken_ne_eof _ _, fun mark h => absurd h (quotationToken_ne_symbol _ _ mark)⟩
  | number => exact ⟨Token.noConfusion, nofun⟩
  | word => exact ⟨ofWord_ne_eof _, fun mark h => absurd h (ofWord_ne_symbol _ mark)⟩

theorem token?_ne_eof_of_mem {p : Piece} {text : List Char} (h : p ∈ pieces text) :
    p.token? ≠ some .eof := by
  obtain ⟨d, ds, rfl⟩ := exists_firstPiece_of_mem h
  intro heof
  cases hfirst : firstPiece d ds with
  | gap kind text =>
    rw [hfirst] at heof
    cases heof
  | token t text =>
    rw [hfirst] at heof
    exact (firstPiece_token hfirst).1 (Option.some.inj heof)

theorem firstPiece_symbol (mark : Symbol) (cs : List Char) :
    firstPiece mark.char cs = .token (.symbol mark) [mark.char] := by
  have hpieces : pieces (mark.char :: cs) = _ := pieces_symbol_cons mark cs
  rw [pieces_cons] at hpieces
  exact (List.cons.inj hpieces).1

theorem text_ne_nil_of_mem {p : Piece} {text : List Char} (h : p ∈ pieces text) : p.text ≠ [] := by
  obtain ⟨c, cs, rfl⟩ := exists_firstPiece_of_mem h
  exact firstPiece_text_ne_nil c cs

/-- The last pieces of a text are read as they are by themselves. -/
theorem pieces_flatMap_of_append {before after : List Piece} {text : List Char}
    (h : pieces text = before ++ after) : pieces (after.flatMap Piece.text) = after := by
  cases after with
  | nil => rfl
  | cons p after =>
    have hp : p ∈ pieces text := by
      rw [h]
      exact List.mem_append_right _ (List.mem_cons_self ..)
    obtain ⟨c, cs, hc⟩ := List.exists_cons_of_ne_nil (text_ne_nil_of_mem hp)
    have htext := pieces_text text
    rw [h, List.flatMap_append, List.flatMap_cons, hc, List.cons_append] at htext
    rw [← htext] at h
    rw [List.flatMap_cons, hc, List.cons_append]
    exact pieces_of_append h

/-! ## Pieces in front -/

theorem exists_ofPieces_append {front : List Piece}
    (hfront : ∀ p ∈ front, p.token? ≠ some .eof) :
    ∃ kept lead, (∀ l ∈ kept, l.token ≠ .eof) ∧
      ∀ ps, Lexeme.ofPieces (front ++ ps) = kept ++ Lexeme.addLead lead (Lexeme.ofPieces ps) := by
  induction front with
  | nil => exact ⟨[], [], nofun, fun ps => (Lexeme.addLead_nil _).symm⟩
  | cons p front ih =>
    obtain ⟨hp, hfront⟩ := List.forall_mem_cons.1 hfront
    obtain ⟨kept, lead, hkept, hread⟩ := ih hfront
    cases p with
    | token t text =>
      refine ⟨⟨[], text, t⟩ :: kept, lead, List.forall_mem_cons.2 ⟨?_, hkept⟩, fun ps => ?_⟩
      · exact fun heof => hp (congrArg some heof)
      · rw [List.cons_append, Lexeme.ofPieces, hread]
        rfl
    | gap kind text =>
      cases kept with
      | nil =>
        refine ⟨[], text ++ lead, nofun, fun ps => ?_⟩
        rw [List.cons_append, Lexeme.ofPieces, hread, Lexeme.addLead_append]
        rfl
      | cons l kept =>
        refine ⟨{ l with lead := text ++ l.lead } :: kept, lead,
          List.forall_mem_cons.2 (List.forall_mem_cons.1 hkept), fun ps => ?_⟩
        rw [List.cons_append, Lexeme.ofPieces, hread]
        rfl

/-! ## Lexemes and the pieces that they stand for -/

/-- A lexeme of a row of pieces is the token of one of them, or the end. -/
theorem Lexeme.mem_ofPieces {l : Lexeme} {ps : List Piece} (h : l ∈ ofPieces ps) :
    (l.token = .eof ∧ l.text = []) ∨ Piece.token l.token l.text ∈ ps := by
  induction ps generalizing l with
  | nil =>
    obtain rfl := List.mem_singleton.1 h
    exact .inl ⟨rfl, rfl⟩
  | cons p ps ih =>
    cases p with
    | token t text =>
      rcases List.mem_cons.1 h with rfl | h
      · exact .inr (List.mem_cons_self ..)
      · exact (ih h).imp_right (List.mem_cons_of_mem _)
    | gap kind text =>
      -- A gap leaves every lexeme its token and its text.
      obtain ⟨first, ls, hls⟩ := List.exists_cons_of_ne_nil (ofPieces_ne_nil ps)
      rw [ofPieces, hls, addLead] at h
      rw [hls] at ih
      rcases List.mem_cons.1 h with rfl | h
      · exact (ih (List.mem_cons_self ..)).imp_right (List.mem_cons_of_mem _)
      · exact (ih (List.mem_cons_of_mem _ h)).imp_right (List.mem_cons_of_mem _)

theorem exists_append_of_ofPieces {ps : List Piece} {front back : List Lexeme} {l : Lexeme}
    (h : Lexeme.ofPieces ps = front ++ l :: back) (hl : l.token ≠ .eof) :
    ∃ before after, ps = before ++ .token l.token l.text :: after ∧
      back = Lexeme.ofPieces after ∧
      before.flatMap Piece.text = Lexeme.fullText front ++ l.lead ∧
      ∀ qs, Lexeme.ofPieces (before ++ qs) =
        front ++ Lexeme.addLead l.lead (Lexeme.ofPieces qs) := by
  induction ps generalizing front l with
  | nil =>
    have hmem : l ∈ Lexeme.ofPieces [] := h ▸ List.mem_append_right front (List.mem_cons_self ..)
    obtain rfl := List.mem_singleton.1 hmem
    exact absurd rfl hl
  | cons p ps ih =>
    cases p with
    | token t text =>
      cases front with
      | nil =>
        obtain ⟨rfl, hback⟩ := List.cons.inj h
        exact ⟨[], ps, rfl, hback.symm, rfl, fun qs => (Lexeme.addLead_nil _).symm⟩
      | cons m front =>
        obtain ⟨rfl, hrest⟩ := List.cons.inj h
        obtain ⟨before, after, rfl, hback, htext, hread⟩ := ih hrest hl
        refine ⟨.token t text :: before, after, rfl, hback, ?_, fun qs => ?_⟩
        · rw [List.flatMap_cons, htext]
          exact (List.append_assoc text (Lexeme.fullText front) l.lead).symm
        · rw [List.cons_append, Lexeme.ofPieces, hread]
          rfl
    | gap kind text =>
      -- The gap is in front of the first lexeme, be it `l` or not.
      obtain ⟨first, ls, hls⟩ := List.exists_cons_of_ne_nil (Lexeme.ofPieces_ne_nil ps)
      rw [Lexeme.ofPieces, hls, Lexeme.addLead] at h
      cases front with
      | nil =>
        obtain ⟨rfl, rfl⟩ := List.cons.inj h
        obtain ⟨before, after, rfl, hback, htext, hread⟩ := @ih [] first hls hl
        refine ⟨.gap kind text :: before, after, rfl, hback, congrArg (text ++ ·) htext,
          fun qs => ?_⟩
        rw [List.cons_append, Lexeme.ofPieces, hread, List.nil_append, Lexeme.addLead_append]
        rfl
      | cons m front =>
        obtain ⟨rfl, rfl⟩ := List.cons.inj h
        obtain ⟨before, after, rfl, hback, htext, hread⟩ := @ih (first :: front) l hls hl
        refine ⟨.gap kind text :: before, after, rfl, hback, ?_, fun qs => ?_⟩
        · rw [List.flatMap_cons, htext]
          simp [Lexeme.fullText, Piece.text]
        · rw [List.cons_append, Lexeme.ofPieces, hread]
          rfl

/-! ## The lexemes of a draft -/

theorem text_ne_nil_of_mem_lexemes {l : Lexeme} {draft : String} (h : l ∈ lexemes draft)
    (hl : l.token ≠ .eof) : l.text ≠ [] := by
  rcases Lexeme.mem_ofPieces h with ⟨heof, _⟩ | hmem
  · exact absurd heof hl
  · exact text_ne_nil_of_mem hmem

/-- The end is the last lexeme of a draft and no other one. -/
theorem exists_lexemes_concat (draft : String) :
    ∃ front trail, lexemes draft = front ++ [⟨trail, [], .eof⟩] ∧ ∀ l ∈ front, l.token ≠ .eof := by
  obtain ⟨front, trail, hfront, hread⟩ :=
    exists_ofPieces_append fun p (hp : p ∈ pieces draft.toList) => token?_ne_eof_of_mem hp
  refine ⟨front, trail, ?_, hfront⟩
  have hread := hread []
  rw [List.append_nil] at hread
  rw [lexemes, hread, Lexeme.ofPieces, Lexeme.addLead, List.append_nil]

/-- A lexeme is the end of the draft, or the end comes after it. -/
theorem eof_or_exists_concat {draft : String} {front back : List Lexeme} {l : Lexeme}
    (h : lexemes draft = front ++ l :: back) :
    (l.token = .eof ∧ l.text = [] ∧ back = []) ∨
      (l.token ≠ .eof ∧ ∃ more trail, back = more ++ [⟨trail, [], .eof⟩]) := by
  obtain ⟨kept, trail, hlexemes, hkept⟩ := exists_lexemes_concat draft
  rw [hlexemes] at h
  rcases List.eq_nil_or_concat back with rfl | ⟨more, last, rfl⟩
  · obtain ⟨-, hlast⟩ := List.append_inj' h rfl
    rw [← List.singleton_inj.1 hlast]
    exact .inl ⟨rfl, rfl, rfl⟩
  · rw [List.concat_eq_append] at h ⊢
    rw [← List.cons_append, ← List.append_assoc] at h
    obtain ⟨rfl, hlast⟩ := List.append_inj' h rfl
    exact .inr ⟨hkept l (by simp), more, trail, by rw [hlast]⟩

/-- The end has no text, and nothing comes after it. -/
theorem eq_nil_of_eof {draft : String} {front back : List Lexeme} {l : Lexeme}
    (h : lexemes draft = front ++ l :: back) (hl : l.token = .eof) : l.text = [] ∧ back = [] := by
  rcases eof_or_exists_concat h with ⟨-, hend⟩ | ⟨hne, -⟩
  · exact hend
  · exact absurd hl hne

end SqlDraft
