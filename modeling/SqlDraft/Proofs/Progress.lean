import SqlDraft.Proofs.Appending
import SqlDraft.Proofs.Words
import SqlDraft.Roadmap.Basic

/-!
# Progress while typing on

A check asks for a few tokens in their order, so it holds of more tokens if it holds of some
(`Check.Met.append`), and it holds without those that no check asks for (`Check.Met.of_append`).
White space ends every token but a text and a name that are still open, and no check asks for a
text: `progress_append` says that what follows a blank undoes no step.
-/

namespace SqlDraft

/-! ## What checks ask for -/

theorem contains_dropWhile_iff {α : Type} [BEq α] [LawfulBEq α] {a b : α} (hab : b ≠ a)
    {list : List α} :
    (list.dropWhile fun x => x != a).contains b = true ↔ [a, b].Sublist list := by
  induction list with
  | nil => simp
  | cons x list ih =>
    rw [List.dropWhile_cons]
    by_cases hx : x = a
    · subst hx
      rw [if_neg (by simp), List.contains_iff_mem, List.mem_cons, or_iff_right hab,
        List.cons_sublist_cons, List.singleton_sublist]
    · rw [if_pos (bne_iff_ne.2 hx), ih, List.sublist_cons_iff]
      refine (or_iff_left ?_).symm
      rintro ⟨later, heq, -⟩
      exact hx (List.cons.inj heq).1.symm

theorem infix_of_infix_append {α : Type} {run xs ys : List α} (h : run <:+: xs ++ ys)
    (hrun : ∀ x ∈ run, x ∉ ys) : run <:+: xs := by
  rcases List.infix_append_iff_ne_nil.1 h with hxs | hys | ⟨front, back, -, hback, rfl, -, hys⟩
  · exact hxs
  · obtain rfl : run = [] := List.eq_nil_iff_forall_not_mem.2 fun x hx => hrun x hx (hys.subset hx)
    exact List.nil_infix
  · obtain ⟨x, back, rfl⟩ := List.exists_cons_of_ne_nil hback
    exact absurd (hys.subset (List.mem_cons_self ..)) (hrun x (by simp))

theorem sublist_of_sublist_append {α : Type} {part xs ys : List α} (h : part.Sublist (xs ++ ys))
    (hpart : ∀ x ∈ part, x ∉ ys) : part.Sublist xs := by
  obtain ⟨front, back, rfl, hxs, hys⟩ := List.sublist_append_iff.1 h
  obtain rfl : back = [] := List.eq_nil_iff_forall_not_mem.2 fun x hx =>
    hpart x (List.mem_append_right _ hx) (hys.subset hx)
  rwa [List.append_nil]

namespace Check

/-- The tokens that a check asks for next to each other, if it does. -/
def run? : Check → Option (List Token)
  | fromClause => some [.keyword .FROM]
  | asAlias => some [.keyword .AS]
  | deleteFrom => some [.keyword .DELETE, .keyword .FROM]
  | whereClause => some [.keyword .WHERE]
  | selectKeyword => some [.keyword .SELECT]
  | createTable => some [.keyword .CREATE, .keyword .TABLE]
  | ifNotExists => some [.keyword .IF, .keyword .NOT, .keyword .EXISTS]
  | aggregateCall | parenGroup => none

/-- The tokens that a check asks for in their order, whatever stands between them. -/
def parens : List Token :=
  [.symbol .openParen, .symbol .closeParen]

/-- Whether some tokens meet a check. -/
inductive Met : Check → List Token → Prop
  | named {ts : List Token} {t : Token} (ht : t ∈ ts) (hname : isAggregate t = true) :
      Met aggregateCall ts
  | run {check : Check} {ts run : List Token} (hcheck : check.run? = some run) (h : run <:+: ts) :
      Met check ts
  | grouped {ts : List Token} (h : parens.Sublist ts) : Met parenGroup ts

theorem holdsIn_of_run? {check : Check} {run : List Token} (h : check.run? = some run)
    (ts : List Token) : check.holdsIn ts = occurs run ts := by
  have hcontains (t : Token) : ts.contains t = occurs [t] ts := by
    rw [Bool.eq_iff_iff, occurs_iff_isInfix, List.contains_iff_mem, List.singleton_infix_iff]
  cases check with
  | aggregateCall | parenGroup => cases h
  | fromClause | asAlias | whereClause | selectKeyword =>
    obtain rfl := Option.some.inj h
    exact hcontains _
  | deleteFrom | createTable | ifNotExists =>
    obtain rfl := Option.some.inj h
    rfl

theorem holdsIn_iff {check : Check} {ts : List Token} :
    check.holdsIn ts = true ↔ check.Met ts := by
  constructor
  · intro h
    cases hrun : check.run? with
    | some run => exact .run hrun (occurs_iff_isInfix.1 (holdsIn_of_run? hrun ts ▸ h))
    | none =>
      cases check with
      | aggregateCall =>
        obtain ⟨t, ht, hname⟩ := List.any_eq_true.1 h
        exact .named ht hname
      | parenGroup => exact .grouped ((contains_dropWhile_iff (by decide)).1 h)
      | _ => cases hrun
  · intro h
    cases h with
    | named ht hname => exact List.any_eq_true.2 ⟨_, ht, hname⟩
    | run hcheck h => rw [holdsIn_of_run? hcheck, occurs_iff_isInfix.2 h]
    | grouped h => exact (contains_dropWhile_iff (by decide)).2 h

theorem Met.append {check : Check} {ts : List Token} (h : check.Met ts) (us : List Token) :
    check.Met (ts ++ us) := by
  cases h with
  | named ht hname => exact .named (List.mem_append_left us ht) hname
  | run hcheck h => exact .run hcheck (h.trans (List.prefix_append ts us).isInfix)
  | grouped h => exact .grouped (h.trans (List.sublist_append_left ts us))

/-- Whether a token is one that no check asks for: a text or the end of the draft. -/
inductive Idle : Token → Prop
  | str {content : String} : Idle (.str content)
  | eof : Idle .eof

theorem not_idle_of_mem_run {check : Check} {run : List Token} (h : check.run? = some run)
    {t : Token} (ht : t ∈ run) : ¬ Idle t := by
  have hkeyword : ∀ t ∈ run, t.isKeyword = true := by
    cases check <;> cases h <;> decide
  rintro ⟨⟩ <;> exact Bool.noConfusion (hkeyword _ ht)

theorem Met.of_append {check : Check} {ts us : List Token} (h : check.Met (ts ++ us))
    (hus : ∀ t ∈ us, Idle t) : check.Met ts := by
  cases h with
  | @named _ t ht hname =>
    rcases List.mem_append.1 ht with ht | ht
    · exact .named ht hname
    · cases hus t ht <;> cases hname
  | run hcheck h =>
    exact .run hcheck (infix_of_infix_append h fun t ht hmem =>
      not_idle_of_mem_run hcheck ht (hus t hmem))
  | grouped h =>
    refine .grouped (sublist_of_sublist_append h fun t ht hmem => ?_)
    have hidle := hus t hmem
    simp only [parens, List.mem_cons, List.not_mem_nil, or_false] at ht
    rcases ht with rfl | rfl <;> cases hidle

end Check

/-! ## The tokens of a longer draft -/

def endsInName (text : List Char) : Bool :=
  (pieces text).getLast?.any fun p => p.isOpen && p.text.head? != some '\''

/-- What follows a blank leaves the tokens in front of it, unless it goes into a quotation. -/
theorem exists_textTokens_append {text : List Char} {d : Char} (hclosed : endsOpen text = false)
    (hd : isBlank d = true) (t : List Char) :
    ∃ rest, textTokens (text ++ d :: t) = textTokens text ++ rest := by
  cases text with
  | nil => exact ⟨_, rfl⟩
  | cons c cs =>
    obtain ⟨front, last, later, hpieces, hwhole, happend⟩ := exists_pieces_append c cs
    rw [endsOpen, hpieces, List.getLast?_concat] at hclosed
    have hlast : ∃ longer, firstPiece last (later ++ d :: t) = longer ∧
        longer.token? = (firstPiece last later).token? := by
      rcases (firstPiece_kind last later).append_startsPiece hwhole hclosed
          (startsPiece_of_isBlank hd) t with hsame | ⟨kind, -, longer, hgap, -, hlonger⟩
      · exact ⟨_, firstPiece_eq_iff.2 hsame, rfl⟩
      · exact ⟨_, firstPiece_eq_iff.2 hlonger, by rw [hgap]; rfl⟩
    obtain ⟨longer, hfirst, htoken⟩ := hlast
    refine ⟨(pieces ((later ++ d :: t).drop (longer.text.length - 1))).filterMap Piece.token?, ?_⟩
    rw [textTokens, textTokens, happend, hpieces, List.cons_append, pieces_cons, hfirst,
      List.filterMap_append, List.filterMap_append, List.append_assoc, ← List.singleton_append,
      List.filterMap_append]
    simp only [List.filterMap_cons, List.filterMap_nil, htoken]

/-- A text that is still open at the end may take in more, and nothing in front of it does. -/
theorem exists_textTokens_append_of_endsOpen {text : List Char} (hopen : endsOpen text = true)
    (hname : endsInName text = false) :
    ∃ kept content, textTokens text = kept ++ [.str content] ∧
      ∀ t, ∃ rest, textTokens (text ++ t) = kept ++ rest := by
  obtain ⟨front, opening, close, later, hclose, hlater, happend⟩ :=
    exists_pieces_append_of_endsOpen hopen
  have hpieces := happend []
  rw [List.append_nil, List.append_nil, pieces_of_not_closes hclose hlater] at hpieces
  rw [endsInName, hpieces, List.getLast?_concat] at hname
  have hquote : opening = '\'' := by
    simpa [Piece.isOpen, Piece.text, hclose, hlater] using hname
  refine ⟨front.filterMap Piece.token?, String.ofList (unquoted close later), ?_, fun t => ?_⟩
  · rw [textTokens, hpieces, hquote, List.filterMap_append]
    rfl
  · exact ⟨(pieces (opening :: later ++ t)).filterMap Piece.token?, by
      rw [textTokens, happend, List.filterMap_append]⟩

/-- What follows a blank leaves all tokens that a check asks for, unless it goes into a name. -/
theorem exists_tokens_append {s t : String} (hs : endsInName s.toList = false)
    (ht : t.toList.head?.any isBlank = true) :
    ∃ kept tail rest, tokens s = kept ++ tail ∧ (∀ u ∈ tail, Check.Idle u) ∧
      tokens (s ++ t) = kept ++ rest := by
  have hshort : tokens s = textTokens s.toList ++ [.eof] := tokens_eq s
  have hlong : tokens (s ++ t) = textTokens (s.toList ++ t.toList) ++ [.eof] := by
    rw [tokens_eq, String.toList_append, textTokens]
  by_cases hopen : endsOpen s.toList = true
  · -- The open text may end with what follows or take it in, but no check asks for a text.
    obtain ⟨kept, content, hkept, happend⟩ := exists_textTokens_append_of_endsOpen hopen hs
    obtain ⟨rest, hrest⟩ := happend t.toList
    refine ⟨kept, [.str content, .eof], rest ++ [.eof], ?_, ?_, ?_⟩
    · rw [hshort, hkept, List.append_assoc]
      rfl
    · exact List.forall_mem_cons.2 ⟨.str, List.forall_mem_singleton.2 .eof⟩
    · rw [hlong, hrest, List.append_assoc]
  · -- The blank ends whatever the draft ends in, and only a comment takes in more.
    obtain ⟨d, hd, hblank⟩ := (Option.any_eq_true ..).1 ht
    obtain ⟨ds, htext⟩ := List.head?_eq_some_iff.1 hd
    obtain ⟨rest, hrest⟩ := exists_textTokens_append (Bool.eq_false_iff.2 hopen) hblank ds
    refine ⟨textTokens s.toList, [.eof], rest ++ [.eof], hshort, ?_, ?_⟩
    · exact List.forall_mem_singleton.2 .eof
    · rw [hlong, htext, hrest, List.append_assoc]

/-! ## Steps that stay taken -/

theorem Check.holds_append {check : Check} {s t : String} (hs : endsInName s.toList = false)
    (ht : t.toList.head?.any isBlank = true) (h : check.holds s = true) :
    check.holds (s ++ t) = true := by
  obtain ⟨kept, tail, rest, hshort, hidle, hlong⟩ := exists_tokens_append hs ht
  rw [holds, hshort, holdsIn_iff] at h
  rw [holds, hlong, holdsIn_iff]
  exact (h.of_append hidle).append rest

namespace Roadmap

theorem isFinished_iff {r : Roadmap} {draft : String} :
    r.isFinished draft = true ↔ r.steps ≠ [] ∧ ∀ step ∈ r.steps, step.check.holds draft = true := by
  rw [isFinished, progress_eq, isEmpty]
  simp [Step.isComplete]

section LongerDraft

variable {s t : String} (h : ∀ check : Check, check.holds s = true → check.holds (s ++ t) = true)
  (r : Roadmap)

include h

theorem progress_le : List.Forall₂ (· ≤ ·) (r.progress s) (r.progress (s ++ t)) := by
  rw [progress_eq, progress_eq, List.forall₂_map_left_iff, List.forall₂_map_right_iff,
    List.forall₂_same]
  exact fun step _ => h step.check

theorem isFinished_of_longer (hfinished : r.isFinished s = true) :
    r.isFinished (s ++ t) = true := by
  rw [isFinished_iff] at hfinished ⊢
  obtain ⟨hsteps, htaken⟩ := hfinished
  exact ⟨hsteps, fun step hstep => h step.check (htaken step hstep)⟩

end LongerDraft

/-- What is typed after a draft and a blank undoes no check, no step towards an answer and no
finished roadmap, unless it goes into a quoted name that the draft leaves open. -/
theorem progress_append {s t : String} (hs : endsInName s.toList = false)
    (ht : t.toList.head?.any isBlank = true) :
    (∀ check : Check, check.holds s = true → check.holds (s ++ t) = true) ∧
    ∀ question,
      List.Forall₂ (· ≤ ·) ((forQuestion question).progress s)
        ((forQuestion question).progress (s ++ t)) ∧
      ((forQuestion question).isFinished s = true →
        (forQuestion question).isFinished (s ++ t) = true) := by
  have hholds (check : Check) (h : check.holds s = true) : check.holds (s ++ t) = true :=
    Check.holds_append hs ht h
  refine ⟨hholds, fun question => ⟨?_, ?_⟩⟩
  · exact progress_le hholds (forQuestion question)
  · exact isFinished_of_longer hholds (forQuestion question)

/-- A name that is still open can turn from the name of a function into another one. -/
example : Check.aggregateCall.holds "SELECT \"MAX" = true ∧
    Check.aggregateCall.holds "SELECT \"MAX score" = false := by decide +kernel

/-- A draft that stops in the middle of a text. -/
def removalDraft : String :=
  "DELETE FROM pets WHERE owner = 'Al -- (O"

theorem progress_append_removal :
    endsInName removalDraft.toList = false ∧
      (" Bundy') WHERE" : String).toList.head?.any isBlank = true ∧
      (forQuestion "Remove all pets").isFinished removalDraft = true ∧
      (forQuestion "Remove all pets").isFinished (removalDraft ++ " Bundy') WHERE") = true := by
  have hname : endsInName removalDraft.toList = false := by decide +kernel
  have hblank : (" Bundy') WHERE" : String).toList.head?.any isBlank = true := by decide +kernel
  have hfinished : (forQuestion "Remove all pets").isFinished removalDraft = true := by
    decide +kernel
  obtain ⟨-, hquestion⟩ := progress_append hname hblank
  exact ⟨hname, hblank, hfinished, (hquestion "Remove all pets").2 hfinished⟩

end Roadmap

end SqlDraft
