import SqlDraft.Proofs.Spans
import SqlDraft.Proofs.Writing

/-!
# What stands between lexemes

A gap is no place where anything can hide: it is white space, comments and characters that start
nothing where they stand, one after the other.  `accountsFor_lexemes` says so of every gap of every
draft, and that the units of the gaps and the lexemes together take up each byte of the draft once.
-/

namespace SqlDraft

/-! ## The units of a gap -/

/-- Whether a character starts no token and no comment in front of a text. -/
structure StartsNothing (c : Char) (rest : List Char) : Prop where
  not_mark : c ∉ ['(', ')', ',', ';', '.', '*']
  not_quote : c ∉ ['"', '\x60', '[', '\'']
  not_digit : c.isDigit = false
  not_letter : isAlphabetic c = false
  not_underscore : c ≠ '_'
  minus : c = '-' → ∀ d ∈ rest.head?, d ≠ '-' ∧ d.isDigit = false
  slash : c = '/' → rest.head? ≠ some '*'

/-- What a gap can hold in front of a text.  Only the last comment of a draft may lack its end. -/
inductive GapUnit : List Char → List Char → Prop
  | blank {c : Char} {rest : List Char} (hc : isBlank c = true) : GapUnit [c] rest
  | lineComment {comment rest : List Char} (hcomment : '\n' ∉ comment) :
      GapUnit ('-' :: '-' :: (comment ++ ['\n'])) rest
  | lastLineComment {comment : List Char} (hcomment : '\n' ∉ comment) :
      GapUnit ('-' :: '-' :: comment) []
  | blockComment {comment rest : List Char} (hcomment : ¬ ['*', '/'] <:+: comment) :
      GapUnit ('/' :: '*' :: (comment ++ ['*', '/'])) rest
  | openBlockComment {comment : List Char} (hcomment : ¬ ['*', '/'] <:+: comment) :
      GapUnit ('/' :: '*' :: comment) []
  | stray {c : Char} {rest : List Char} (hc : StartsNothing c rest) : GapUnit [c] rest

/-- Whether texts are units of a gap, one after the other, in front of a text. -/
inductive GapUnits : List (List Char) → List Char → Prop
  | nil {rest : List Char} : GapUnits [] rest
  | cons {unit rest : List Char} {units : List (List Char)}
      (hunit : GapUnit unit (units.flatten ++ rest)) (hunits : GapUnits units rest) :
      GapUnits (unit :: units) rest

theorem lineText_cases (cs : List Char) :
    (∃ comment rest, '\n' ∉ comment ∧ cs = comment ++ '\n' :: rest ∧
      lineText cs = comment ++ ['\n']) ∨ ('\n' ∉ cs ∧ lineText cs = cs) := by
  induction cs with
  | nil => exact .inr ⟨List.not_mem_nil, rfl⟩
  | cons c cs ih =>
    by_cases hc : c = '\n'
    · subst hc
      exact .inl ⟨[], cs, List.not_mem_nil, rfl, rfl⟩
    · rw [lineText, if_neg hc]
      rcases ih with ⟨comment, rest, hcomment, rfl, hline⟩ | ⟨hcs, hline⟩
      · refine .inl ⟨c :: comment, rest, ?_, rfl, by rw [hline]; rfl⟩
        exact List.not_mem_cons_of_ne_of_not_mem (Ne.symm hc) hcomment
      · exact .inr ⟨List.not_mem_cons_of_ne_of_not_mem (Ne.symm hc) hcs, by rw [hline]⟩

theorem not_isInfix_cons {c : Char} {cs : List Char} (h : ¬ ['*', '/'] <:+: cs)
    (hc : ∀ d ds, cs = d :: ds → ¬ (c = '*' ∧ d = '/')) : ¬ ['*', '/'] <:+: c :: cs := by
  rintro (hin : ['*', '/'] <:+: c :: cs)
  rcases List.infix_cons_iff.1 hin with ⟨rest, hfront⟩ | hin
  · obtain ⟨rfl, rfl⟩ := List.cons.inj hfront
    exact hc '/' rest rfl ⟨rfl, rfl⟩
  · exact h hin

theorem blockText_cases (cs : List Char) :
    (∃ comment rest, ¬ ['*', '/'] <:+: comment ∧ cs = comment ++ '*' :: '/' :: rest ∧
      blockText cs = comment ++ ['*', '/']) ∨ (¬ ['*', '/'] <:+: cs ∧ blockText cs = cs) := by
  fun_induction blockText cs with
  | case1 => exact .inr ⟨by simp, rfl⟩
  | case2 c =>
    have hend : ∀ d ds, [] = d :: ds → ¬ (c = '*' ∧ d = '/') :=
      fun d ds h => absurd h (List.cons_ne_nil d ds).symm
    exact .inr ⟨not_isInfix_cons (by simp) hend, rfl⟩
  | case3 c d cs hclose =>
    obtain ⟨rfl, rfl⟩ := hclose
    exact .inl ⟨[], cs, by simp, rfl, rfl⟩
  | case4 c d cs hclose ih =>
    rcases ih with ⟨comment, rest, hcomment, hsplit, hblock⟩ | ⟨hcs, hblock⟩
    · refine .inl ⟨c :: comment, rest, not_isInfix_cons hcomment ?_, by rw [hsplit]; rfl,
        by rw [hblock]; rfl⟩
      rintro e es rfl
      obtain ⟨rfl, -⟩ := List.cons.inj hsplit
      exact hclose
    · refine .inr ⟨not_isInfix_cons hcs fun e es heq => ?_, by rw [hblock]⟩
      obtain ⟨rfl, -⟩ := List.cons.inj heq
      exact hclose

/-! ## Comments that have ended -/

/-- A line comment that has ended takes in no more: it ends in front of what follows it, or with the
line. -/
theorem lineText_append_of_ended {cs t : List Char} (h : lineText (cs ++ t) = cs)
    (hend : t ≠ [] ∨ cs.getLast? = some '\n') (t' : List Char) : lineText (cs ++ t') = cs := by
  rcases lineText_cases (cs ++ t) with ⟨comment, rest, hcomment, -, hline⟩ | ⟨hnone, hline⟩
  · rw [h] at hline
    rw [hline, List.append_assoc, List.singleton_append]
    exact lineText_append_newline hcomment t'
  · rw [h] at hline
    have ht : t = [] := List.self_eq_append_right.1 hline
    have hlast := List.mem_of_getLast? (hend.resolve_left fun hne => hne ht)
    exact absurd (List.mem_append_left t hlast) hnone

/-- A block comment that has ended takes in no more: it ends in front of what follows it, or with
its closing marks. -/
theorem blockText_append_of_ended {cs t : List Char} (h : blockText (cs ++ t) = cs)
    (hend : t ≠ [] ∨ ['*', '/'] <:+ cs) (t' : List Char) : blockText (cs ++ t') = cs := by
  rcases blockText_cases (cs ++ t) with ⟨comment, rest, hcomment, -, hblock⟩ | ⟨hnone, hblock⟩
  · rw [h] at hblock
    rw [hblock, List.append_assoc]
    exact blockText_append_close hcomment t'
  · rw [h] at hblock
    have ht : t = [] := List.self_eq_append_right.1 hblock
    have hclose := hend.resolve_left fun hne => hne ht
    exact absurd (hclose.isInfix.trans (List.prefix_append cs t).isInfix) hnone

/-! ## Gaps as units -/

theorem not_mem_of_ofChar? {c : Char} (h : Symbol.ofChar? c = none) :
    c ∉ ['(', ')', ',', ';', '.', '*'] := by
  have hall : ∀ d ∈ ['(', ')', ',', ';', '.', '*'], Symbol.ofChar? d ≠ none :=
    List.all_iff_forall_prop.1 (by decide)
  exact fun hmem => hall c hmem h

theorem not_mem_of_closingQuote? {c : Char} (h : closingQuote? c = none) :
    c ∉ ['"', '\x60', '[', '\''] := by
  have hall : ∀ d ∈ ['"', '\x60', '[', '\''], closingQuote? d ≠ none :=
    List.all_iff_forall_prop.1 (by decide)
  exact fun hmem => hall c hmem h

/-- A piece that is no token is a unit of a gap. -/
theorem FirstPiece.gapUnit {c : Char} {cs text rest : List Char} {kind : Gap}
    (h : FirstPiece c cs (.gap kind text)) (hsplit : c :: cs = text ++ rest) :
    GapUnit text rest := by
  cases h with
  | blank hc => exact .blank hc
  | @lineComment more hc hcs =>
    subst hc hcs
    have hline : lineText ('-' :: more) = '-' :: lineText more := rfl
    rw [hline] at hsplit ⊢
    have hmore : more = lineText more ++ rest := (List.cons.inj (List.cons.inj hsplit).2).2
    rcases lineText_cases more with ⟨comment, later, hcomment, -, hline⟩ | ⟨hnone, hline⟩
    · rw [hline]
      exact .lineComment hcomment
    · rw [hline] at hmore ⊢
      obtain rfl : rest = [] := List.self_eq_append_right.1 hmore
      exact .lastLineComment hnone
  | @blockComment more hc hcs =>
    subst hc hcs
    have hmore : more = blockText more ++ rest := (List.cons.inj (List.cons.inj hsplit).2).2
    rcases blockText_cases more with ⟨comment, later, hcomment, -, hblock⟩ | ⟨hnone, hblock⟩
    · rw [hblock]
      exact .blockComment hcomment
    · rw [hblock] at hmore ⊢
      obtain rfl : rest = [] := List.self_eq_append_right.1 hmore
      exact .openBlockComment hnone
  | stray hblank hminus hslash hsymbol hquote hdigit hword =>
    obtain rfl : cs = rest := (List.cons.inj hsplit).2
    rw [isWordStart, Bool.or_eq_false_iff] at hword
    refine .stray ⟨not_mem_of_ofChar? hsymbol, not_mem_of_closingQuote? hquote, hdigit, hword.1,
      by simpa using hword.2, fun hc d hd => ?_, fun hc hhead => ?_⟩
    · obtain ⟨later, rfl⟩ := List.head?_eq_some_iff.1 hd
      exact hminus hc d later rfl
    · obtain ⟨later, rfl⟩ := List.head?_eq_some_iff.1 hhead
      exact hslash hc later rfl

/-! ## The gaps between lexemes -/

/-- Whether texts are the units of the gaps in front of lexemes. -/
inductive GapsOf : List (List (List Char)) → List Lexeme → Prop
  | nil : GapsOf [] []
  | cons {units : List (List Char)} {gaps : List (List (List Char))} {l : Lexeme}
      {ls : List Lexeme} (hlead : units.flatten = l.lead)
      (hunits : GapUnits units (Lexeme.source (l :: ls))) (h : GapsOf gaps ls) :
      GapsOf (units :: gaps) (l :: ls)

theorem fullText_textLexemes (text : List Char) : Lexeme.fullText (textLexemes text) = text := by
  rw [textLexemes, Lexeme.fullText_ofPieces, pieces_text]

/-- A unit in front goes into the first gap. -/
theorem GapsOf.addLead {unit rest : List Char} {gaps : List (List (List Char))} {ls : List Lexeme}
    (h : GapsOf gaps ls) (hunit : GapUnit unit rest) (hrest : Lexeme.fullText ls = rest) :
    ∃ gaps', GapsOf gaps' (Lexeme.addLead unit ls) := by
  cases h with
  | nil => exact ⟨[], .nil⟩
  | @cons units gaps l ls hlead hunits h =>
    rw [Lexeme.fullText_cons, ← hlead] at hrest
    refine ⟨(unit :: units) :: gaps, .cons ?_ (.cons (hrest ▸ hunit) hunits) h⟩
    rw [List.flatten_cons, hlead]

theorem exists_gapsOf (text : List Char) : ∃ gaps, GapsOf gaps (textLexemes text) := by
  -- By induction on the length: the first piece is one more unit of the first gap of what follows
  -- it, or a lexeme in front of that.
  induction hlength : text.length using Nat.strongRecOn generalizing text with
  | ind n ih =>
    subst hlength
    cases text with
    | nil => exact ⟨[[]], .cons rfl .nil .nil⟩
    | cons c cs =>
      obtain ⟨rest, hsplit⟩ := firstPiece_isPrefix c cs
      have hpos := List.length_pos_iff.2 (firstPiece_text_ne_nil c cs)
      have hshort : rest.length < (c :: cs).length := by
        rw [← hsplit, List.length_append]
        omega
      obtain ⟨gaps, hgaps⟩ := ih _ hshort rest rfl
      have hkind := firstPiece_kind c cs
      have hpieces := pieces_of_firstPiece hkind hsplit.symm
      rw [textLexemes, hpieces]
      cases hfirst : firstPiece c cs with
      | token t text => exact ⟨[] :: gaps, .cons rfl .nil hgaps⟩
      | gap kind text =>
        rw [hfirst] at hkind hsplit
        exact hgaps.addLead (hkind.gapUnit hsplit.symm) (fullText_textLexemes rest)

/-! ## Every byte of a draft -/

/-- The places of texts that stand side by side from an offset on. -/
def placesFrom (offset : Nat) : List (List Char) → List Span
  | [] => []
  | text :: texts =>
    ⟨offset, offset + byteSize text⟩ :: placesFrom (offset + byteSize text) texts

/-- The places of the units of gaps between which stand lexemes with the given places. -/
def gapPlaces (offset : Nat) : List (List (List Char)) → List Span → List Span
  | units :: gaps, p :: places => placesFrom offset units ++ gapPlaces p.stop gaps places
  | _, _ => []

/-- Whether a byte is among those of a place. -/
def Span.holds (p : Span) (byte : Nat) : Bool :=
  p.start ≤ byte ∧ byte < p.stop

theorem Span.holds_iff {p : Span} {byte : Nat} :
    p.holds byte = true ↔ p.start ≤ byte ∧ byte < p.stop :=
  decide_eq_true_iff

/-- Where a gap starts: at the end of the lexeme in front of it, or with the draft. -/
def gapStart (places : List Span) : Nat → Nat
  | 0 => 0
  | i + 1 => (places[i]?.map Span.stop).getD 0

/-- Whether a draft with lexemes at the given places holds units of gaps, as given, and nothing
else. -/
structure AccountsFor (draft : List Char) (places : List Span) (gaps : List (List (List Char))) :
    Prop where
  /-- There is one gap in front of each lexeme. -/
  each : gaps.length = places.length
  between : ∀ (i : Nat) (units : List (List Char)) (p : Span), gaps[i]? = some units →
    places[i]? = some p → Span.slice? ⟨gapStart places i, p.start⟩ draft = some units.flatten
  /-- What a unit can be depends on all that follows it in the draft. -/
  units : ∀ (i : Nat) (units : List (List Char)) (p : Span), gaps[i]? = some units →
    places[i]? = some p →
    ∃ rest, Span.slice? ⟨p.start, byteSize draft⟩ draft = some rest ∧ GapUnits units rest
  covered : ∀ byte < byteSize draft,
    (gapPlaces 0 gaps places ++ places).countP (fun p => p.holds byte) = 1

theorem countP_placesFrom (offset byte : Nat) (texts : List (List Char)) :
    (placesFrom offset texts).countP (fun p => p.holds byte) =
      if offset ≤ byte ∧ byte < offset + byteSize texts.flatten then 1 else 0 := by
  induction texts generalizing offset with
  | nil =>
    rw [placesFrom, List.countP_nil, List.flatten_nil, byteSize_nil, if_neg (by omega)]
  | cons text texts ih =>
    rw [placesFrom, List.countP_cons, ih, List.flatten_cons, byteSize_append]
    simp only [Span.holds_iff]
    repeat' split
    all_goals omega

/-- Units and lexemes from an offset on take up the bytes of their text from there on, each once. -/
theorem GapsOf.countP {gaps : List (List (List Char))} {ls : List Lexeme} (h : GapsOf gaps ls)
    (offset byte : Nat) :
    (gapPlaces offset gaps (spansFrom offset ls) ++ spansFrom offset ls).countP
        (fun p => p.holds byte) =
      if offset ≤ byte ∧ byte < offset + byteSize (Lexeme.fullText ls) then 1 else 0 := by
  induction h generalizing offset with
  | nil =>
    have hnone : ¬ (offset ≤ byte ∧ byte < offset + byteSize (Lexeme.fullText [])) := by
      rw [Lexeme.fullText, List.flatMap_nil, byteSize_nil]
      omega
    rw [if_neg hnone]
    rfl
  | @cons units gaps l ls hlead hunits h ih =>
    have hsize : byteSize (Lexeme.fullText (l :: ls)) =
        byteSize l.lead + byteSize l.text + byteSize (Lexeme.fullText ls) := by
      rw [Lexeme.fullText, List.flatMap_cons, byteSize_append, byteSize_append]
      rfl
    have ih := ih (offset + byteSize l.lead + byteSize l.text)
    rw [List.countP_append] at ih
    simp only [spansFrom, gapPlaces, List.countP_append, List.countP_cons, countP_placesFrom, hlead,
      hsize, Span.holds_iff]
    repeat' split
    all_goals (split at ih <;> omega)

theorem GapsOf.getElem? {gaps : List (List (List Char))} {ls : List Lexeme} (h : GapsOf gaps ls)
    {i : Nat} {units : List (List Char)} (hunits : gaps[i]? = some units) :
    ∃ l, ls[i]? = some l ∧ units.flatten = l.lead ∧
      GapUnits units (Lexeme.source (ls.drop i)) := by
  induction h generalizing i with
  | nil => cases hunits
  | @cons units' gaps l ls hlead hunits' h ih =>
    cases i with
    | zero =>
      obtain rfl := Option.some.inj hunits
      exact ⟨l, rfl, hlead, hunits'⟩
    | succ i => exact ih hunits

theorem GapsOf.length {gaps : List (List (List Char))} {ls : List Lexeme} (h : GapsOf gaps ls) :
    gaps.length = ls.length := by
  induction h with
  | nil => rfl
  | cons _ _ _ ih => rw [List.length_cons, List.length_cons, ih]

/-- What stands in front of a lexeme of a draft is a row of units. -/
theorem exists_gapUnits {draft : String} {front back : List Lexeme} {l : Lexeme}
    (h : lexemes draft = front ++ l :: back) :
    ∃ units, units.flatten = l.lead ∧ GapUnits units (Lexeme.source (l :: back)) := by
  obtain ⟨gaps, hgaps⟩ := exists_gapsOf draft.toList
  have hgaps : GapsOf gaps (lexemes draft) := hgaps
  have hlength : front.length < gaps.length := by
    rw [hgaps.length, h]
    simp
  obtain ⟨m, hm, hlead, hunits⟩ := hgaps.getElem? (List.getElem?_eq_getElem hlength)
  rw [h, List.getElem?_append_right (Nat.le_refl _), Nat.sub_self] at hm
  rw [h, List.drop_left] at hunits
  obtain rfl : l = m := Option.some.inj hm
  exact ⟨_, hlead, hunits⟩

theorem gapStart_spans {ls : List Lexeme} {i : Nat} (hi : i < ls.length) :
    gapStart (spans ls) i = byteSize (Lexeme.fullText (ls.take i)) := by
  cases i with
  | zero => rfl
  | succ i =>
    rw [gapStart, spans, getElem?_spansFrom, List.getElem?_eq_getElem (Nat.lt_of_succ_lt hi),
      Option.map_some, Option.map_some, Option.getD_some]
    exact Nat.zero_add _

/-- What stands between the lexemes of a draft is accounted for, and every byte of the draft stands
in one lexeme or in one unit of a gap. -/
theorem accountsFor_lexemes (draft : String) :
    ∃ gaps, AccountsFor draft.toList (spans (lexemes draft)) gaps := by
  obtain ⟨gaps, hgaps⟩ := exists_gapsOf draft.toList
  have hgaps : GapsOf gaps (lexemes draft) := hgaps
  -- Round the place of a lexeme the draft falls into the lexemes before it, its lead, and the rest.
  have hround {i : Nat} {units : List (List Char)} {p : Span} (hunits : gaps[i]? = some units)
      (hp : (spans (lexemes draft))[i]? = some p) :
      ∃ before rest, draft.toList = before ++ (units.flatten ++ rest) ∧
        gapStart (spans (lexemes draft)) i = byteSize before ∧
        p.start = byteSize (before ++ units.flatten) ∧ GapUnits units rest := by
    obtain ⟨l, hl, hlead, hgap⟩ := hgaps.getElem? hunits
    obtain ⟨m, hm, hstart, -⟩ := getElem?_spans hp
    obtain rfl : l = m := Option.some.inj (hl.symm.trans hm)
    obtain ⟨hi, rfl⟩ := List.getElem?_eq_some_iff.1 hl
    refine ⟨_, _, ?_, gapStart_spans hi, by rw [hstart, hlead], hgap⟩
    rw [hlead, List.drop_eq_getElem_cons hi, ← Lexeme.fullText_cons, ← List.drop_eq_getElem_cons hi,
      ← Lexeme.fullText_append, List.take_append_drop, fullText_lexemes]
  refine ⟨gaps, ?each, ?between, ?units, ?covered⟩
  case each => rw [spans, spansFrom_length, hgaps.length]
  case between =>
    intro i units p hunits hp
    obtain ⟨before, rest, hsplit, hgap, hstart, -⟩ := hround hunits hp
    rw [hsplit, hgap, hstart]
    exact slice?_append before units.flatten rest
  case units =>
    intro i units p hunits hp
    obtain ⟨before, rest, hsplit, -, hstart, hgap⟩ := hround hunits hp
    have hslice := slice?_append (before ++ units.flatten) rest []
    rw [List.append_nil, List.append_assoc, ← hsplit] at hslice
    exact ⟨rest, hstart ▸ hslice, hgap⟩
  case covered =>
    intro byte hbyte
    have hcount := hgaps.countP 0 byte
    rw [fullText_lexemes, if_pos ⟨Nat.zero_le _, by omega⟩] at hcount
    exact hcount

/-- The slash of an opening does not close a comment, and in front of a space a minus stands for
nothing. -/
example : spans (lexemes "- a/*/ b") = [⟨2, 3⟩, ⟨8, 8⟩] := by decide +kernel

end SqlDraft
