import SqlDraft.Proofs.Extents
import SqlDraft.Proofs.Gaps
import SqlDraft.Proofs.Respelling
import SqlDraft.Proofs.TypeText

/-!
# Comments

A comment is no token, so a space in its place leaves everything that is read off tokens.  Types are
read off the text between tokens as well: a comment inside a type text is part of it, and its words
and number markers count.  `CommentAt.neutralBut` says that what table a draft refers to, what it
does, which checks it meets and what it defines do not depend on a comment otherwise, and when a
type does.
-/

namespace SqlDraft

/-! ## Pieces in front of a space -/

theorem quotation_append_of_ends {close b d : Char} {cs t : List Char}
    (h : quotedText close (cs ++ d :: t) = cs) (hb : b ≠ close) (t' : List Char) :
    quotedText close (cs ++ b :: t') = cs ∧
      unquoted close (cs ++ b :: t') = unquoted close (cs ++ d :: t) := by
  obtain ⟨tail, htail, htext⟩ := quotation_cases close (cs ++ d :: t)
  rw [h] at htext
  generalize unquoted close (cs ++ d :: t) = content at htext ⊢
  rcases htail with rfl | rfl
  · -- Without its closing quote the quotation would go on.
    rw [List.append_nil] at htext
    rw [htext, quotedText_doubled_append] at h
    have hnothing : quotedText close (d :: t) = [] := List.append_right_eq_self.1 h
    have hsome : quotedText close (d :: t) ≠ [] := by
      unfold quotedText
      repeat' split
      all_goals simp_all
    exact absurd hnothing hsome
  · rw [htext, List.append_assoc]
    exact quotation_doubled_append (by simpa using hb) content

theorem takeWhile_append_of_ends {p : Char → Bool} {b d : Char} {cs t : List Char}
    (h : (cs ++ d :: t).takeWhile p = cs) (hb : p b = false) (t' : List Char) :
    (cs ++ b :: t').takeWhile p = cs := by
  have hall : ∀ c ∈ cs, p c = true := by
    rw [← h]
    exact List.all_eq_true.1 List.all_takeWhile
  rw [List.takeWhile_append_of_pos hall, List.takeWhile_cons_of_neg (by simp [hb]),
    List.append_nil]

/-- A piece that ends in front of some character ends in front of white space too. -/
theorem FirstPiece.before_blank {b c d : Char} {cs t : List Char} {p : Piece}
    (h : FirstPiece c (cs ++ d :: t) p) (htext : p.text = c :: cs) (hb : isBlank b = true)
    (t' : List Char) : FirstPiece c (cs ++ b :: t') p := by
  have hcs {text : List Char} (htext : c :: text = c :: cs) : text = cs := (List.cons.inj htext).2
  cases h with
  | blank h => exact .blank h
  | symbol h => exact .symbol h
  | @lineComment rest h hrest =>
    have hline : lineText (cs ++ d :: t) = cs := hcs htext
    have hdash : cs = '-' :: lineText rest := by
      rw [← hline, hrest, lineText, if_neg (by decide)]
    have hspace : FirstPiece c (cs ++ b :: t')
        (.gap .lineComment (c :: lineText (cs ++ b :: t'))) :=
      .lineComment h (by rw [hdash, List.cons_append])
    rw [lineText_append_of_ended hline (.inl (List.cons_ne_nil d t))] at hspace
    rwa [hline]
  | @blockComment rest h hrest =>
    have hstar : '*' :: blockText rest = cs := hcs htext
    rw [← hstar] at hrest ⊢
    have hblock : blockText (blockText rest ++ d :: t) = blockText rest :=
      congrArg blockText (List.cons.inj hrest).2
    have hspace : FirstPiece c ('*' :: blockText rest ++ b :: t') _ :=
      .blockComment h (List.cons_append ..)
    rwa [blockText_append_of_ended hblock (.inl (List.cons_ne_nil d t))] at hspace
  | @quotation close h =>
    have hquoted : quotedText close (cs ++ d :: t) = cs := hcs htext
    have hspace : FirstPiece c (cs ++ b :: t') _ := .quotation h
    obtain ⟨hsame, hcontent⟩ := quotation_append_of_ends hquoted (ne_close_of_isBlank hb h) t'
    rw [hsame, hcontent] at hspace
    rwa [hquoted]
  | number h =>
    have hdigits : digitsText false (cs ++ d :: t) = cs := hcs htext
    have hself : digitsText false cs = cs := by
      rw [← hdigits, digitsText_digitsText]
    have hsame : numberPiece c (cs ++ b :: t') = numberPiece c (cs ++ d :: t) := by
      rw [numberPiece, numberPiece, hdigits, digitsText_append_of_eq_self hself
        (isDigit_of_isBlank hb) (ne_of_isBlank hb (by decide))]
    rw [← hsame]
    rcases h with hdigit | ⟨hc, e, rest, hrest, hdigit⟩
    · exact .number (.inl hdigit)
    · rw [hrest, digitsText, if_pos hdigit] at hdigits
      refine .number (.inr ⟨hc, e, digitsText false rest ++ b :: t', ?_, hdigit⟩)
      rw [← hdigits, List.cons_append]
  | word h =>
    have hword : (cs ++ d :: t).takeWhile isWordChar = cs := hcs htext
    have hspace : FirstPiece c (cs ++ b :: t') _ := .word h
    rw [takeWhile_append_of_ends hword (isWordChar_of_isBlank hb)] at hspace
    rwa [hword]
  | stray hblank hminus hslash hsymbol hquote hdigit hword =>
    obtain rfl : [] = cs := hcs htext
    refine .stray hblank (fun _ e es heq => ?_) (fun _ es heq => ?_) hsymbol hquote hdigit hword
    · obtain ⟨rfl, -⟩ := List.cons.inj heq
      exact ⟨ne_of_isBlank hb (by decide), isDigit_of_isBlank hb⟩
    · exact ne_of_isBlank hb (by decide) (List.cons.inj heq).1

/-- Pieces that end in front of some character end in front of white space too. -/
theorem pieces_append_blank_of_append {before after : List Piece} {b c : Char} {rest : List Char}
    (h : pieces (before.flatMap Piece.text ++ c :: rest) = before ++ after)
    (hb : isBlank b = true) (rest' : List Char) :
    pieces (before.flatMap Piece.text ++ b :: rest') =
      before ++ .gap .blank [b] :: pieces rest' := by
  rcases List.eq_nil_or_concat' before with rfl | ⟨front, last, rfl⟩
  · exact pieces_of_isBlank rest' hb
  · have hlast : last ∈ pieces _ := h ▸ List.mem_append_left after (by simp)
    obtain ⟨e, es, htext⟩ := List.exists_cons_of_ne_nil (text_ne_nil_of_mem hlast)
    have hsplit (cs : List Char) : (front ++ [last]).flatMap Piece.text ++ cs =
        front.flatMap Piece.text ++ e :: (es ++ cs) := by
      simp [htext]
    rw [hsplit, List.append_assoc] at h
    -- The pieces before the last one end in front of it, and it ends in front of `c`.
    have hfirst := pieces_of_append h
    rw [pieces_cons] at hfirst
    have hspace := (firstPiece_eq_iff.1 (List.cons.inj hfirst).1).before_blank htext hb rest'
    have hwhole : e :: (es ++ b :: rest') = last.text ++ b :: rest' := by
      rw [htext, List.cons_append]
    rw [hsplit, pieces_append_of_append h, pieces_of_firstPiece hspace hwhole,
      pieces_of_isBlank rest' hb, List.append_assoc, List.singleton_append]

/-! ## A comment in a draft -/

/-- The draft in which a text stands between two others. -/
def draftWith (before text after : List Char) : String :=
  String.ofList (before ++ (text ++ after))

/-- Lexemes with a given gap in front of one of them. -/
def withLead (front : List Lexeme) (l : Lexeme) (back : List Lexeme) (lead : List Char) :
    List Lexeme :=
  front ++ { l with lead := lead } :: back

/-- Whether a text is read as a comment where it stands between two others. -/
def CommentAt (before comment after : List Char) : Prop :=
  ∃ front kind back, pieces (before ++ (comment ++ after)) = front ++ .gap kind comment :: back ∧
    kind ∈ [Gap.lineComment, .blockComment] ∧ front.flatMap Piece.text = before

section Comment

variable {before comment after : List Char}

/-- A comment is the first piece of what follows the text before it. -/
theorem CommentAt.exists_firstPiece (h : CommentAt before comment after) :
    ∃ c cs kind, c :: cs = comment ++ after ∧ FirstPiece c cs (.gap kind comment) ∧
      kind ∈ [Gap.lineComment, .blockComment] := by
  obtain ⟨front, kind, back, hpieces, hkind, rfl⟩ := h
  have hmem : Piece.gap kind comment ∈ pieces _ := hpieces ▸ List.mem_append_right front (by simp)
  obtain ⟨c, cs, hcomment⟩ := List.exists_cons_of_ne_nil (text_ne_nil_of_mem hmem)
  obtain rfl : comment = c :: cs := hcomment
  have hfirst := pieces_of_append hpieces
  exact ⟨c, cs ++ after, kind, rfl, firstPiece_eq_iff.1 (List.cons.inj hfirst).1, hkind⟩

/-- A space can stand in the place of a comment. -/
theorem CommentAt.exists_pieces (h : CommentAt before comment after) :
    ∃ front, (∀ p ∈ front, p.token? ≠ some .eof) ∧ front.flatMap Piece.text = before ∧
      ∀ text ∈ [comment, [' ']], ∃ kind,
        pieces (before ++ (text ++ after)) = front ++ .gap kind text :: pieces after := by
  obtain ⟨c, cs, _, hsplit, hfirst, -⟩ := h.exists_firstPiece
  obtain ⟨front, kind, back, hpieces, -, rfl⟩ := h
  have hfront : ∀ p ∈ front, p.token? ≠ some .eof := fun p hp =>
    token?_ne_eof_of_mem (hpieces ▸ List.mem_append_left _ hp)
  rw [← hsplit] at hpieces
  refine ⟨front, hfront, rfl, List.forall_mem_cons.2 ⟨⟨kind, ?_⟩, List.forall_mem_singleton.2 ?_⟩⟩
  · have hback := pieces_of_append hpieces
    rw [pieces_of_firstPiece hfirst hsplit] at hback
    rw [← hsplit, hpieces, (List.cons.inj hback).2]
  · exact ⟨.blank, pieces_append_blank_of_append hpieces (by decide) after⟩

/-- With a comment or with a space in its place, a draft has the same lexemes but for the gap in
front of one of them. -/
theorem CommentAt.exists_lexemes (h : CommentAt before comment after) :
    ∃ front lead l back, Lexeme.fullText front ++ lead = before ∧
      Lexeme.fullText (l :: back) = after ∧
      ∀ text ∈ [comment, [' ']], lexemes (draftWith before text after) =
        withLead front l back (lead ++ (text ++ l.lead)) := by
  obtain ⟨front, hfront, hbefore, hpieces⟩ := h.exists_pieces
  obtain ⟨kept, lead, -, hread⟩ := exists_ofPieces_append hfront
  obtain ⟨l, back, hback⟩ := List.exists_cons_of_ne_nil (Lexeme.ofPieces_ne_nil (pieces after))
  refine ⟨kept, lead, l, back, ?_, ?_, fun text htext => ?_⟩
  · have hfull := Lexeme.fullText_ofPieces (front ++ [])
    rw [hread, List.append_nil, hbefore, Lexeme.fullText_append] at hfull
    rw [← hfull]
    simp [Lexeme.ofPieces, Lexeme.addLead, Lexeme.fullText]
  · rw [← hback, Lexeme.fullText_ofPieces, pieces_text]
  · obtain ⟨kind, hpieces⟩ := hpieces text htext
    rw [lexemes, draftWith, String.toList_ofList, hpieces, hread, Lexeme.ofPieces, hback]
    rfl

end Comment

/-! ## Lexemes with another gap -/

/-- A text that may have a place in it for another one. -/
inductive Frame
  | whole (text : List Char)
  | around (before after : List Char)
  deriving DecidableEq, Repr

def Frame.fill (text : List Char) : Frame → List Char
  | whole all => all
  | around before after => before ++ (text ++ after)

/-- Puts a text into the gap that is marked. -/
def refill (mark text : List Char) (l : Lexeme) : Lexeme :=
  if l.lead = mark then { l with lead := text } else l

theorem refill_token (mark text : List Char) (l : Lexeme) :
    (refill mark text l).token = l.token := by
  rw [refill]
  split <;> rfl

theorem word?_refill (mark text : List Char) (l : Lexeme) :
    (refill mark text l).word? = l.word? := by
  rw [refill]
  split <;> rfl

theorem respelling_refill (mark text : List Char) : Respelling id (refill mark text) where
  token l := by
    rw [refill_token]
    cases l.token <;> constructor
  sameName := sameName_refl

theorem map_refill_of_ne {mark : List Char} {ls : List Lexeme} (h : ∀ l ∈ ls, l.lead ≠ mark)
    (text : List Char) : ls.map (refill mark text) = ls := by
  have hsame : ∀ l ∈ ls, refill mark text l = id l := fun l hl => if_neg (h l hl)
  rw [List.map_congr_left hsame, List.map_id]

theorem map_refill_withLead {mark : List Char} {front back : List Lexeme}
    (hfront : ∀ m ∈ front, m.lead ≠ mark) (hback : ∀ m ∈ back, m.lead ≠ mark) (l : Lexeme)
    (text : List Char) :
    (withLead front l back mark).map (refill mark text) = withLead front l back text := by
  rw [withLead, List.map_append, List.map_cons, map_refill_of_ne hfront, map_refill_of_ne hback,
    refill, if_pos rfl, withLead]

/-- There is always one more text to mark a gap with. -/
theorem exists_mark (front back : List Lexeme) :
    ∃ mark, (∀ m ∈ front, m.lead ≠ mark) ∧ ∀ m ∈ back, m.lead ≠ mark := by
  have hlength {l : Lexeme} {ls : List Lexeme} (hl : l ∈ ls) :
      l.lead.length ≤ (Lexeme.fullText ls).length := by
    obtain ⟨front, back, rfl⟩ := List.append_of_mem hl
    rw [Lexeme.fullText_append, Lexeme.fullText_cons]
    simp only [List.length_append]
    omega
  refine ⟨' ' :: (Lexeme.fullText front ++ Lexeme.fullText back), ?_, ?_⟩
  all_goals
    intro l hl hmark
    have hle := hlength hl
    rw [hmark, List.length_cons, List.length_append] at hle
    omega

section Gap

variable {front back : List Lexeme} {l : Lexeme}

theorem tokens_withLead (lead lead' : List Char) :
    (withLead front l back lead).map Lexeme.token =
      (withLead front l back lead').map Lexeme.token := by
  rw [withLead, withLead, List.map_append, List.map_append, List.map_cons, List.map_cons]

theorem tableReference?_withLead (lead lead' : List Char) :
    tableReference? (withLead front l back lead) =
      tableReference? (withLead front l back lead') := by
  obtain ⟨mark, hfront, hback⟩ := exists_mark front back
  rw [← map_refill_withLead hfront hback, ← map_refill_withLead hfront hback l lead',
    (respelling_refill mark lead).tableReference?_map,
    (respelling_refill mark lead').tableReference?_map]

/-- What stands in one piece in a draft leaves the marked gap out, or goes on round it as the draft
does. -/
theorem exists_frame {mark : List Char} (lead : List Char) {type : List Lexeme}
    (hfront : ∀ m ∈ front, m.lead ≠ mark) (hback : ∀ m ∈ back, m.lead ≠ mark)
    (htype : type <:+: withLead front l back mark) :
    ∃ frame : Frame, (∀ text, Lexeme.source (type.map (refill mark (lead ++ (text ++ l.lead)))) =
        frame.fill text) ∧
      ∀ u v, frame = .around u v →
        u <:+ Lexeme.fullText front ++ lead ∧ v <+: Lexeme.fullText (l :: back) := by
  by_cases hmem : { l with lead := mark } ∈ type
  · obtain ⟨p, q, rfl⟩ := List.append_of_mem hmem
    obtain ⟨s, t, hsplit⟩ := htype
    have hplace : front ++ { l with lead := mark } :: back =
        (s ++ p) ++ { l with lead := mark } :: (q ++ t) := by
      rw [← withLead, ← hsplit]
      simp
    have hnot {ls : List Lexeme} (h : ∀ m ∈ ls, m.lead ≠ mark) : { l with lead := mark } ∉ ls :=
      fun hmem => h _ hmem rfl
    -- There is one such place only.
    obtain ⟨rfl, -, rfl⟩ := (List.append_cons_inj_of_notMem (hnot hfront) (hnot hback)).1 hplace
    have hfill (text : List Char) : (p ++ { l with lead := mark } :: q).map (refill mark text) =
        p ++ { l with lead := text } :: q :=
      map_refill_withLead (fun m hm => hfront m (List.mem_append_right s hm))
        (fun m hm => hback m (List.mem_append_left t hm)) l text
    cases p with
    | nil =>
      exact ⟨.whole (Lexeme.source (l :: q)), fun text => by rw [hfill]; rfl,
        fun u v h => Frame.noConfusion h⟩
    | cons m p =>
      refine ⟨.around (Lexeme.source (m :: p) ++ lead) (Lexeme.fullText (l :: q)),
        fun text => ?_, ?_⟩
      · rw [hfill, Lexeme.source_append_cons, Frame.fill, Lexeme.fullText_cons]
        simp [Lexeme.source]
      · rintro u v ⟨⟩
        refine ⟨⟨Lexeme.fullText s ++ m.lead, ?_⟩, ⟨Lexeme.fullText t, ?_⟩⟩
        · simp [Lexeme.fullText_append, Lexeme.fullText_cons]
        · rw [← Lexeme.fullText_append, List.cons_append]
  · have hsame : ∀ m ∈ type, m.lead ≠ mark := by
      intro m hm
      have hin := htype.subset hm
      rw [withLead, List.mem_append, List.mem_cons] at hin
      rcases hin with hin | rfl | hin
      · exact hfront m hin
      · exact absurd hm hmem
      · exact hback m hin
    exact ⟨.whole (Lexeme.source type), fun text => by rw [map_refill_of_ne hsame]; rfl,
      fun u v h => Frame.noConfusion h⟩

/-- Whatever stands in a gap, the lexemes define the same table, with the same type texts but for
what stands in the gap. -/
theorem exists_frames (front : List Lexeme) (l : Lexeme) (back : List Lexeme) (lead : List Char) :
    ∃ frames : Option (TableOf Frame),
      (∀ text, (typedTable? (withLead front l back (lead ++ (text ++ l.lead)))).map
          (TableOf.map Lexeme.source) = frames.map (TableOf.map (Frame.fill text))) ∧
      ∀ t ∈ frames, ∀ column ∈ t.columns, ∀ u v, column.2 = .around u v →
        u <:+ Lexeme.fullText front ++ lead ∧ v <+: Lexeme.fullText (l :: back) := by
  obtain ⟨mark, hfront, hback⟩ := exists_mark front back
  have hframe (type : List Lexeme) : ∃ frame : Frame, type <:+: withLead front l back mark →
      (∀ text, Lexeme.source (type.map (refill mark (lead ++ (text ++ l.lead)))) =
        frame.fill text) ∧
      ∀ u v, frame = .around u v →
        u <:+ Lexeme.fullText front ++ lead ∧ v <+: Lexeme.fullText (l :: back) := by
    by_cases htype : type <:+: withLead front l back mark
    · obtain ⟨frame, hframe⟩ := exists_frame lead hfront hback htype
      exact ⟨frame, fun _ => hframe⟩
    · exact ⟨.whole [], fun h => absurd h htype⟩
  obtain ⟨frame, hframe⟩ := Classical.skolem.1 hframe
  refine ⟨(typedTable? (withLead front l back mark)).map (TableOf.map frame), fun text => ?_, ?_⟩
  · rw [← map_refill_withLead hfront hback, typedTable?_map (respelling_refill mark _)
      (word?_refill mark _)]
    cases htyped : typedTable? (withLead front l back mark) with
    | none => rfl
    | some t =>
      have hsame : ∀ column ∈ t.columns,
          Lexeme.source (column.2.map (refill mark (lead ++ (text ++ l.lead)))) =
            (frame column.2).fill text := fun column hcolumn =>
        (hframe column.2 (isInfix_of_typedTable? htyped hcolumn)).1 text
      simp only [Option.map_some, TableOf.map_map]
      exact congrArg some (TableOf.map_congr hsame)
  · intro t ht column hcolumn
    obtain ⟨typed, htyped, rfl⟩ := Option.map_eq_some_iff.1 ht
    obtain ⟨found, hfound, rfl⟩ := List.mem_map.1 hcolumn
    exact (hframe found.2 (isInfix_of_typedTable? htyped hfound)).2

end Gap

/-! ## What a comment says -/

section Comment

variable {before comment after : List Char}

/-- No word goes on from a text into a comment after it, nor from a comment into what follows. -/
theorem CommentAt.apart (h : CommentAt before comment after) (u : List Char) {v : List Char}
    (hv : v <+: after) :
    Apart (smalls u) (smalls (comment ++ v)) ∧ Apart (smalls comment) (smalls v) := by
  have hclosed (body : List Char) {d : Char} (hd : isAlphanumeric d = false)
      (hsmall : smalls [d] = [d]) : Apart (smalls (body ++ [d])) (smalls v) := by
    rw [smalls_append, hsmall]
    exact apart_concat hd _ _
  -- A comment that lacks its end has the whole rest of the draft in it.
  have hopen (hafter : after = []) : Apart (smalls comment) (smalls v) := by
    obtain rfl : v = [] := List.prefix_nil.1 (hafter ▸ hv)
    exact apart_nil _
  obtain ⟨c, cs, kind, hsplit, hfirst, hkind⟩ := h.exists_firstPiece
  cases hfirst with
  | blank | stray => exact absurd hkind (by decide)
  | lineComment hc hcs =>
    subst hc
    refine ⟨apart_cons (by decide) _ _, ?_⟩
    rcases lineText_cases cs with ⟨body, rest, -, -, hline⟩ | ⟨-, hline⟩
    · rw [hline]
      exact hclosed ('-' :: body) (by decide) (by decide)
    · rw [hline] at hsplit hopen ⊢
      exact hopen (List.self_eq_append_right.1 hsplit)
  | @blockComment rest hc hcs =>
    subst hc hcs
    refine ⟨apart_cons (by decide) _ _, ?_⟩
    rcases blockText_cases rest with ⟨body, later, -, -, hblock⟩ | ⟨-, hblock⟩
    · have hlast : '/' :: '*' :: (body ++ ['*', '/']) =
          '/' :: '*' :: (body ++ ['*']) ++ ['/'] := by simp
      rw [hblock, hlast]
      exact hclosed _ (by decide) (by decide)
    · rw [hblock] at hsplit hopen ⊢
      exact hopen (List.self_eq_append_right.1 hsplit)

/-- A comment changes a type if its words and markers do. -/
theorem CommentAt.infer_fill_eq_iff (h : CommentAt before comment after) {frame : Frame}
    (hplaced : ∀ u v, frame = .around u v → v <+: after) :
    ColumnType.infer (frame.fill comment) = ColumnType.infer (frame.fill [' ']) ↔
      ∀ u v, frame = .around u v → ¬ ColumnType.Tips u comment v := by
  cases frame with
  | whole text => exact ⟨fun _ => nofun, fun _ => rfl⟩
  | around u v =>
    obtain ⟨hcomment, hlater⟩ := h.apart u (hplaced u v rfl)
    rw [Frame.fill, Frame.fill, ColumnType.infer_around hcomment hlater,
      ColumnType.infer_around_space, ColumnType.ofParts_eq_iff]
    constructor
    · rintro htips _ _ ⟨⟩
      exact htips
    · exact fun htips => htips u v rfl

/-- Whether a space in the place of a comment leaves what a draft says, but for the types in whose
texts the comment stands. -/
structure NeutralBut (before comment after : List Char) (frames : Option (TableOf Frame)) :
    Prop where
  table : referencedTable? (draftWith before comment after) =
    referencedTable? (draftWith before [' '] after)
  drops : dropsTable (tokens (draftWith before comment after)) =
    dropsTable (tokens (draftWith before [' '] after))
  changes : changesData (tokens (draftWith before comment after)) =
    changesData (tokens (draftWith before [' '] after))
  checks (check : Check) : check.holds (draftWith before comment after) =
    check.holds (draftWith before [' '] after)
  names : (Definition.ofDraft? (draftWith before comment after)).map Definition.names =
    (Definition.ofDraft? (draftWith before [' '] after)).map Definition.names
  /-- Type texts differ in the comment at most. -/
  types : ∀ text ∈ [comment, [' ']],
    typeTexts? (draftWith before text after) = frames.map (TableOf.map (Frame.fill text))
  /-- Round the comment a type text goes on as the draft does. -/
  placed : ∀ t ∈ frames, ∀ column ∈ t.columns, ∀ u v, column.2 = .around u v →
    u <:+ before ∧ v <+: after
  definition : Definition.ofDraft? (draftWith before comment after) =
      Definition.ofDraft? (draftWith before [' '] after) ↔
    ∀ t ∈ frames, ∀ column ∈ t.columns, ∀ u v, column.2 = .around u v →
      ¬ ColumnType.Tips u comment v

/-- A comment says nothing about a draft's table, effects, checks and definition, but for the types
in whose texts it stands, and for those its words and number markers count. -/
theorem CommentAt.neutralBut (h : CommentAt before comment after) :
    ∃ frames, NeutralBut before comment after frames := by
  obtain ⟨front, lead, l, back, hbefore, hafter, hlexemes⟩ := h.exists_lexemes
  obtain ⟨frames, htypes, hplaced⟩ := exists_frames front l back lead
  rw [hbefore, hafter] at hplaced
  have hcomment := hlexemes comment (by simp)
  have hspace := hlexemes [' '] (by simp)
  have htokens : tokens (draftWith before comment after) =
      tokens (draftWith before [' '] after) := by
    rw [tokens, tokens, hcomment, hspace]
    exact tokens_withLead _ _
  have htypes : ∀ text ∈ [comment, [' ']],
      typeTexts? (draftWith before text after) = frames.map (TableOf.map (Frame.fill text)) := by
    intro text htext
    rw [typeTexts?, hlexemes text htext, htypes]
  have hdefinition : ∀ text ∈ [comment, [' ']], Definition.ofDraft? (draftWith before text after) =
      frames.map fun t => (t.map (Frame.fill text)).definition := by
    intro text htext
    rw [ofDraft?_eq_map, htypes text htext, Option.map_map]
    rfl
  refine ⟨frames, ?table, ?drops, ?changes, ?checks, ?names, htypes, hplaced, ?definition⟩
  case table =>
    rw [referencedTable?, referencedTable?, hcomment, hspace]
    exact tableReference?_withLead _ _
  case drops => rw [htokens]
  case changes => rw [htokens]
  case checks =>
    intro check
    rw [Check.holds, Check.holds, htokens]
  case names =>
    rw [hdefinition comment (by simp), hdefinition [' '] (by simp), Option.map_map, Option.map_map]
    congr 1
    funext t
    exact (TableOf.names_definition_map _ t).trans (TableOf.names_definition_map _ t).symm
  case definition =>
    rw [hdefinition comment (by simp), hdefinition [' '] (by simp)]
    cases frames with
    | none => exact ⟨fun _ t ht => absurd ht (Option.not_mem_none t), fun _ => rfl⟩
    | some t =>
      simp only [Option.map_some, Option.some.injEq, Option.mem_def, forall_eq',
        TableOf.definition_map_eq_iff]
      exact forall₂_congr fun column hcolumn => h.infer_fill_eq_iff fun u v haround =>
        (hplaced t rfl column hcolumn u v haround).2

/-- The word in the comment makes a number of what is text without the comment. -/
theorem printed_makes_number :
    CommentAt "CREATE TABLE books (title VARCHAR ".toList "/* as printed on the cover */".toList
        " (80))".toList ∧
      Definition.ofDraft? (draftWith "CREATE TABLE books (title VARCHAR ".toList
          "/* as printed on the cover */".toList " (80))".toList) =
        some ⟨"books", [⟨"title", .number⟩]⟩ ∧
      Definition.ofDraft? (draftWith "CREATE TABLE books (title VARCHAR ".toList [' ']
          " (80))".toList) =
        some ⟨"books", [⟨"title", .text⟩]⟩ := by
  refine ⟨⟨pieces "CREATE TABLE books (title VARCHAR ".toList, .blockComment,
    pieces " (80))".toList, ?_⟩, ?_⟩
  · decide +kernel
  · decide +kernel

/-- The comment takes the place of the type's first word. -/
theorem neutralBut_options :
    CommentAt "CREATE TABLE answers (choice (".toList "-- enum of options\n".toList
        "int), id INT)".toList ∧
      ∃ frames, NeutralBut "CREATE TABLE answers (choice (".toList "-- enum of options\n".toList
        "int), id INT)".toList frames := by
  have hcomment : CommentAt "CREATE TABLE answers (choice (".toList
      "-- enum of options\n".toList "int), id INT)".toList :=
    ⟨pieces "CREATE TABLE answers (choice (".toList, .lineComment,
      pieces "int), id INT)".toList, by decide +kernel⟩
  exact ⟨hcomment, hcomment.neutralBut⟩

end Comment

end SqlDraft
