import SqlDraft.Lexeme

/-!
# First pieces

What the first piece of a text can be, with the condition for each kind, and how a text splits whose
front is a word, a mark or white space.  The classes of characters exclude each other, which decides
every case in which several kinds seem to apply.
-/

namespace SqlDraft

/-! ## Classes of characters -/

theorem CharRanges.contains_eq_false_of_apart {rs ss : CharRanges} {c : Char}
    (hapart : (rs.all fun r => ss.all fun s => Nat.blt r.2 s.1 || Nat.blt s.2 r.1) = true)
    (hc : rs.contains c = true) : ss.contains c = false := by
  rw [Bool.eq_false_iff]
  intro hs
  obtain ⟨r, hr, hr1, hr2⟩ := CharRanges.contains_iff.1 hc
  obtain ⟨s, hs, hs1, hs2⟩ := CharRanges.contains_iff.1 hs
  have h := List.all_eq_true.1 (List.all_eq_true.1 hapart r hr) s hs
  simp only [Bool.or_eq_true, Nat.blt_eq] at h
  omega

theorem toNat_of_isWordStart {c : Char} (h : isWordStart c = true) :
    (65 ≤ c.toNat ∧ c.toNat ≤ 90) ∨ c.toNat = 95 ∨ (97 ≤ c.toNat ∧ c.toNat ≤ 122) ∨
      (128 ≤ c.toNat ∧ alphabeticRanges.contains c = true) := by
  rw [isWordStart, isAlphabetic, Bool.or_eq_true, Bool.or_eq_true, Bool.and_eq_true, Nat.ble_eq,
    beq_iff_eq] at h
  rcases h with (halpha | hother) | rfl
  · rcases Bool.or_eq_true_iff.1 halpha with hupper | hlower
    · have hbounds : 'A'.val ≤ c.val ∧ c.val ≤ 'Z'.val := of_decide_eq_true hupper
      exact .inl hbounds
    · have hbounds : 'a'.val ≤ c.val ∧ c.val ≤ 'z'.val :=
        (Bool.and_eq_true_iff.1 hlower).imp of_decide_eq_true of_decide_eq_true
      exact .inr (.inr (.inl hbounds))
  · exact .inr (.inr (.inr hother))
  · exact .inr (.inl rfl)

theorem toNat_of_isBlank {c : Char} (h : isBlank c = true) : c.toNat ≤ 32 ∨ 133 ≤ c.toNat := by
  obtain ⟨r, hr, h1, h2⟩ := CharRanges.contains_iff.1 h
  have hranges : ∀ r ∈ blankRanges, r.2 ≤ 32 ∨ 133 ≤ r.1 := by decide
  rcases hranges r hr with hr | hr <;> omega

theorem isBlank_of_isWordStart {c : Char} (h : isWordStart c = true) : isBlank c = false := by
  rw [Bool.eq_false_iff]
  intro hblank
  have hfar := toNat_of_isBlank hblank
  -- ASCII letters lie between the two stretches of blanks.  Beyond ASCII both classes are lists of
  -- ranges, and no range of the one meets a range of the other.
  rcases toNat_of_isWordStart h with h | h | h | ⟨_, h⟩
  · omega
  · omega
  · omega
  · have hnot : isBlank c = false := CharRanges.contains_eq_false_of_apart (by decide +kernel) h
    rw [hnot] at hblank
    exact Bool.noConfusion hblank

theorem isWordStart_ne {c d : Char} (h : isWordStart c = true) (hd : isWordStart d = false) :
    c ≠ d := by
  rintro rfl
  rw [h] at hd
  exact Bool.noConfusion hd

theorem ofChar?_of_class {p : Char → Bool} {c : Char} (h : p c = true)
    (hmarks : ∀ mark : Symbol, p mark.char = false) : Symbol.ofChar? c = none := by
  cases hs : Symbol.ofChar? c with
  | none => rfl
  | some mark =>
    rw [Symbol.char_of_ofChar? hs, hmarks mark] at h
    exact Bool.noConfusion h

theorem ofChar?_of_isWordStart {c : Char} (h : isWordStart c = true) : Symbol.ofChar? c = none :=
  ofChar?_of_class h fun mark => by cases mark <;> decide

theorem ofChar?_of_isDigit {c : Char} (h : c.isDigit = true) : Symbol.ofChar? c = none :=
  ofChar?_of_class h fun mark => by cases mark <;> decide

theorem opening_cases {c close : Char} (h : closingQuote? c = some close) :
    (c = '"' ∧ close = '"') ∨ (c = '\x60' ∧ close = '\x60') ∨ (c = '[' ∧ close = ']') ∨
      (c = '\'' ∧ close = '\'') := by
  unfold closingQuote? at h
  split at h
  all_goals first
    | simp only [reduceCtorEq] at h
    | obtain rfl := Option.some.inj h; simp

theorem closingQuote?_of_class {p : Char → Bool} {c : Char} (h : p c = true)
    (hquotes : (['"', '\x60', '[', '\''].any p) = false) : closingQuote? c = none := by
  cases hclose : closingQuote? c with
  | none => rfl
  | some close =>
    have hc : c ∈ ['"', '\x60', '[', '\''] := by
      rcases opening_cases hclose with ⟨rfl, -⟩ | ⟨rfl, -⟩ | ⟨rfl, -⟩ | ⟨rfl, -⟩ <;> simp
    exact absurd h (List.any_eq_false.1 hquotes c hc)

theorem closingQuote?_of_isWordStart {c : Char} (h : isWordStart c = true) :
    closingQuote? c = none :=
  closingQuote?_of_class h (by decide)

theorem closingQuote?_of_isDigit {c : Char} (h : c.isDigit = true) : closingQuote? c = none :=
  closingQuote?_of_class h (by decide)

theorem toNat_of_isDigit {c : Char} (h : c.isDigit = true) : 48 ≤ c.toNat ∧ c.toNat ≤ 57 := by
  simp only [Char.isDigit, Bool.and_eq_true, decide_eq_true_eq] at h
  exact h

theorem isBlank_of_isDigit {c : Char} (h : c.isDigit = true) : isBlank c = false := by
  rw [Bool.eq_false_iff]
  intro hblank
  have hdigit := toNat_of_isDigit h
  have hfar := toNat_of_isBlank hblank
  omega

theorem isDigit_of_isWordStart {c : Char} (h : isWordStart c = true) : c.isDigit = false := by
  rw [Bool.eq_false_iff]
  intro hdigit
  have hbounds := toNat_of_isDigit hdigit
  rcases toNat_of_isWordStart h with h | h | h | h <;> omega

/-! ## The kinds of first pieces -/

/-- The pieces that a text which starts with `c` and goes on with `cs` can start with. -/
inductive FirstPiece (c : Char) (cs : List Char) : Piece → Prop
  | blank (h : isBlank c = true) : FirstPiece c cs (.gap .blank [c])
  | lineComment {rest : List Char} (h : c = '-') (hcs : cs = '-' :: rest) :
      FirstPiece c cs (.gap .lineComment (c :: lineText cs))
  | blockComment {rest : List Char} (h : c = '/') (hcs : cs = '*' :: rest) :
      FirstPiece c cs (.gap .blockComment (c :: '*' :: blockText rest))
  | symbol {mark : Symbol} (h : Symbol.ofChar? c = some mark) :
      FirstPiece c cs (.token (.symbol mark) [c])
  | quotation {close : Char} (h : closingQuote? c = some close) :
      FirstPiece c cs (.token (quotationToken c (unquoted close cs)) (c :: quotedText close cs))
  | number (h : c.isDigit = true ∨ c = '-' ∧ ∃ d rest, cs = d :: rest ∧ d.isDigit = true) :
      FirstPiece c cs (numberPiece c cs)
  | word (h : isWordStart c = true) :
      FirstPiece c cs (.token (.ofWord (c :: cs.takeWhile isWordChar))
        (c :: cs.takeWhile isWordChar))
  | stray (hblank : isBlank c = false)
      (hminus : c = '-' → ∀ d rest, cs = d :: rest → d ≠ '-' ∧ d.isDigit = false)
      (hslash : c = '/' → ∀ rest, cs ≠ '*' :: rest) (hsymbol : Symbol.ofChar? c = none)
      (hquote : closingQuote? c = none) (hdigit : c.isDigit = false)
      (hword : isWordStart c = false) :
      FirstPiece c cs (.gap .stray [c])

theorem firstPiece_kind (c : Char) (cs : List Char) : FirstPiece c cs (firstPiece c cs) := by
  unfold firstPiece
  split
  next hblank => exact .blank hblank
  next hblank =>
  split
  next hminus =>
    subst hminus
    split
    next d rest =>
      split
      next hd => exact .lineComment rfl (by rw [hd])
      split
      next hd => exact .number (.inr ⟨rfl, d, rest, rfl, hd⟩)
      next hd hdigit =>
        refine .stray rfl (fun _ d' rest' heq => ?_) (fun h => absurd h (by decide))
          rfl rfl rfl rfl
        obtain ⟨rfl, rfl⟩ := List.cons.inj heq
        exact ⟨hd, Bool.eq_false_iff.2 hdigit⟩
    next =>
      exact .stray rfl (fun _ d rest heq => absurd heq (List.cons_ne_nil d rest).symm)
        (fun h => absurd h (by decide)) rfl rfl rfl rfl
  next hminus =>
  split
  next hslash =>
    subst hslash
    split
    next rest => exact .blockComment rfl rfl
    next hstar =>
      exact .stray rfl (fun h => absurd h (by decide)) (fun _ rest => hstar rest)
        rfl rfl rfl rfl
  next hslash =>
  split
  next mark hmark => exact .symbol hmark
  next hsymbol =>
  split
  next close hclose => exact .quotation hclose
  next hquote =>
  split
  next hdigit => exact .number (.inl hdigit)
  next hdigit =>
  split
  next hword => exact .word hword
  next hword =>
    exact .stray (Bool.eq_false_iff.2 hblank) (fun h => absurd h hminus) (fun h => absurd h hslash)
      hsymbol hquote (Bool.eq_false_iff.2 hdigit) (Bool.eq_false_iff.2 hword)

theorem exists_firstPiece_of_mem_piecesAfter {p : Piece} {skip : Nat} {text : List Char}
    (h : p ∈ piecesAfter skip text) : ∃ c cs, p = firstPiece c cs := by
  fun_induction piecesAfter skip text with
  | case1 => cases h
  | case2 skip c cs ih => exact ih h
  | case3 c cs piece ih =>
    rcases List.mem_cons.1 h with rfl | h
    · exact ⟨c, cs, rfl⟩
    · exact ih h

theorem exists_firstPiece_of_mem {p : Piece} {text : List Char} (h : p ∈ pieces text) :
    ∃ c cs, p = firstPiece c cs :=
  exists_firstPiece_of_mem_piecesAfter h

/-! ## Texts with a known front -/

/-- Whether a text is one word. -/
def isWord (text : List Char) : Bool :=
  match text with
  | [] => false
  | c :: cs => isWordStart c && cs.all isWordChar

theorem firstPiece_of_isBlank {c : Char} (cs : List Char) (h : isBlank c = true) :
    firstPiece c cs = .gap .blank [c] := by
  unfold firstPiece
  rw [if_pos h]

theorem pieces_of_isBlank {c : Char} (cs : List Char) (h : isBlank c = true) :
    pieces (c :: cs) = .gap .blank [c] :: pieces cs := by
  rw [pieces_cons, firstPiece_of_isBlank cs h]
  rfl

theorem firstPiece_of_isWordStart {c : Char} (cs : List Char) (h : isWordStart c = true) :
    firstPiece c cs = .token (.ofWord (c :: cs.takeWhile isWordChar))
      (c :: cs.takeWhile isWordChar) := by
  unfold firstPiece
  rw [if_neg (by rw [isBlank_of_isWordStart h]; exact Bool.false_ne_true),
    if_neg (isWordStart_ne h (by decide)), if_neg (isWordStart_ne h (by decide))]
  simp only [ofChar?_of_isWordStart h, closingQuote?_of_isWordStart h, isDigit_of_isWordStart h, h,
    Bool.false_eq_true, ↓reduceIte]

theorem firstPiece_of_isDigit {c : Char} (cs : List Char) (h : c.isDigit = true) :
    firstPiece c cs = numberPiece c cs := by
  have hminus : c ≠ '-' := by rintro rfl; exact absurd h (by decide)
  have hslash : c ≠ '/' := by rintro rfl; exact absurd h (by decide)
  unfold firstPiece
  rw [if_neg (by rw [isBlank_of_isDigit h]; exact Bool.false_ne_true), if_neg hminus, if_neg hslash]
  simp only [ofChar?_of_isDigit h, closingQuote?_of_isDigit h, h, ↓reduceIte]

/-- Every text has the one first piece whose condition it meets. -/
theorem firstPiece_eq_iff {c : Char} {cs : List Char} {p : Piece} :
    firstPiece c cs = p ↔ FirstPiece c cs p := by
  constructor
  · rintro rfl
    exact firstPiece_kind c cs
  intro h
  cases h with
  | blank h => exact firstPiece_of_isBlank cs h
  | lineComment h hcs => subst h hcs; rfl
  | blockComment h hcs => subst h hcs; rfl
  | @symbol mark h =>
    obtain rfl := Symbol.char_of_ofChar? h
    cases mark <;> rfl
  | quotation h =>
    rcases opening_cases h with ⟨rfl, rfl⟩ | ⟨rfl, rfl⟩ | ⟨rfl, rfl⟩ | ⟨rfl, rfl⟩ <;> rfl
  | number h =>
    rcases h with hdigit | ⟨rfl, d, rest, rfl, hdigit⟩
    · exact firstPiece_of_isDigit cs hdigit
    · have hd : d ≠ '-' := by rintro rfl; exact absurd hdigit (by decide)
      unfold firstPiece
      rw [if_neg (by decide), if_pos rfl]
      simp only [if_neg hd, if_pos hdigit]
  | word h => exact firstPiece_of_isWordStart cs h
  | stray hblank hminus hslash hsymbol hquote hdigit hword =>
    unfold firstPiece
    simp only [hblank, hsymbol, hquote, hdigit, hword, Bool.false_eq_true, ↓reduceIte]
    split
    next hc =>
      cases cs with
      | nil => rfl
      | cons d rest =>
        obtain ⟨hd, hnumber⟩ := hminus hc d rest rfl
        simp only [if_neg hd, hnumber, Bool.false_eq_true, ↓reduceIte]
    next =>
      split
      next hc =>
        split
        next rest => exact absurd rfl (hslash hc rest)
        next => rfl
      next => rfl

theorem pieces_word_append {word rest : List Char} (hword : isWord word = true)
    (hrest : ∀ d ds, rest = d :: ds → isWordChar d = false) :
    pieces (word ++ rest) = .token (.ofWord word) word :: pieces rest := by
  cases word with
  | nil => exact absurd hword (by decide)
  | cons c cs =>
    rw [isWord, Bool.and_eq_true, List.all_eq_true] at hword
    -- The word ends where it ends because `rest` cannot go on with it.
    have hstop : rest.takeWhile isWordChar = [] := by
      cases rest with
      | nil => rfl
      | cons d ds =>
        exact List.takeWhile_cons_of_neg (by rw [hrest d ds rfl]; exact Bool.false_ne_true)
    have htake : (cs ++ rest).takeWhile isWordChar = cs := by
      rw [List.takeWhile_append_of_pos hword.2, hstop, List.append_nil]
    rw [List.cons_append, pieces_cons, firstPiece_of_isWordStart _ hword.1, htake]
    show _ :: pieces ((cs ++ rest).drop cs.length) = _
    rw [List.drop_left]

theorem pieces_symbol_cons (mark : Symbol) (cs : List Char) :
    pieces (mark.char :: cs) = .token (.symbol mark) [mark.char] :: pieces cs := by
  have hfirst : firstPiece mark.char cs = .token (.symbol mark) [mark.char] := by
    cases mark <;> rfl
  rw [pieces_cons, hfirst]
  rfl

/-! ## Tokens -/

/-- The token of a piece, unless it is a gap. -/
def Piece.token? : Piece → Option Token
  | .gap _ _ => none
  | .token t _ => some t

theorem tokens_ofPieces (ps : List Piece) :
    (Lexeme.ofPieces ps).map Lexeme.token = ps.filterMap Piece.token? ++ [.eof] := by
  induction ps with
  | nil => rfl
  | cons p ps ih =>
    cases p with
    | token token text => simpa [Lexeme.ofPieces, Piece.token?] using ih
    | gap kind text =>
      -- A gap only lengthens the lead of the lexeme after it, and there always is one.
      obtain ⟨l, ls, hls⟩ := List.exists_cons_of_ne_nil (Lexeme.ofPieces_ne_nil ps)
      rw [hls] at ih
      rw [List.filterMap_cons_none rfl, ← ih, Lexeme.ofPieces, hls]
      rfl

theorem tokens_eq (draft : String) :
    tokens draft = (pieces draft.toList).filterMap Piece.token? ++ [.eof] :=
  tokens_ofPieces _

/-- The tokens of a text, without its end. -/
def textTokens (text : List Char) : List Token :=
  (pieces text).filterMap Piece.token?

theorem textTokens_word_append {word rest : List Char} (hword : isWord word = true)
    (hrest : ∀ d ds, rest = d :: ds → isWordChar d = false) :
    textTokens (word ++ rest) = .ofWord word :: textTokens rest := by
  rw [textTokens, pieces_word_append hword hrest]
  rfl

theorem textTokens_blank_cons {c : Char} (h : isBlank c = true) (cs : List Char) :
    textTokens (c :: cs) = textTokens cs := by
  rw [textTokens, pieces_of_isBlank cs h]
  rfl

theorem textTokens_symbol_cons (mark : Symbol) (cs : List Char) :
    textTokens (mark.char :: cs) = .symbol mark :: textTokens cs := by
  rw [textTokens, pieces_symbol_cons]
  rfl

end SqlDraft
