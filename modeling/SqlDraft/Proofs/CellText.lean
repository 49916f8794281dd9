import SqlDraft.Proofs.Cells
import SqlDraft.Proofs.Extents
import SqlDraft.Proofs.Gaps

/-!
# What is read from a cell

A value is cut from the first lexeme of its cell to the last one, and not from one delimiter to the
next.  What stands between the lexemes of a cell stays.  What stands in front of the first one and
behind the last one goes, be it white space, comments or characters that start no lexeme.
`reads_plain_cells` says so of every cell without quotes.
-/

namespace SqlDraft

/-! ## White space at the ends -/

/-- White space at the ends makes no difference. -/
theorem trim_append_of_blank {before after : List Char} (hbefore : ∀ c ∈ before, isBlank c = true)
    (hafter : ∀ c ∈ after, isBlank c = true) (text : List Char) :
    trim (before ++ (text ++ after)) = trim text := by
  rw [trim, trim, trimStart_append_of_blank hbefore]
  have hsplit : trimStart (text ++ after) =
      if (trimStart text).isEmpty then trimStart after else trimStart text ++ after :=
    List.dropWhile_append
  rw [hsplit]
  split
  next hnil =>
    -- Of a text that is all white space nothing is left, and nothing of what comes after it.
    have hnone : trimStart after = [] := by
      rw [← List.append_nil after, trimStart_append_of_blank hafter]
      rfl
    rw [hnone, List.isEmpty_iff.1 hnil]
  next => rw [trimEnd_append_of_blank hafter]

/-- Trimming takes off white space only. -/
theorem countP_trim (text : List Char) :
    (trim text).countP (fun c => !isBlank c) = text.countP fun c => !isBlank c := by
  have hnone {ws : List Char} (hws : ∀ c ∈ ws, isBlank c = true) :
      ws.countP (fun c => !isBlank c) = 0 :=
    List.countP_eq_zero.2 fun c hc => by rw [hws c hc]; exact Bool.false_ne_true
  obtain ⟨front, back, hsplit, hfront, hback⟩ := exists_trim text
  conv => rhs; rw [hsplit]
  rw [List.countP_append, List.countP_append, hnone hfront, hnone hback, Nat.zero_add, Nat.add_zero]

/-- Text round another one is taken off if it is white space, and only then. -/
theorem trim_append_eq_iff (before text after : List Char) :
    trim (before ++ (text ++ after)) = trim text ↔ ∀ c ∈ before ++ after, isBlank c = true := by
  constructor
  · intro h c hc
    have hcount := congrArg (List.countP fun c => !isBlank c) h
    rw [countP_trim, countP_trim, List.countP_append, List.countP_append] at hcount
    have hnone : (before ++ after).countP (fun c => !isBlank c) = 0 := by
      rw [List.countP_append]
      omega
    simpa using List.countP_eq_zero.1 hnone c hc
  · intro h
    exact trim_append_of_blank (fun c hc => h c (List.mem_append_left _ hc))
      (fun c hc => h c (List.mem_append_right _ hc)) text

/-! ## Quotes round a text -/

theorem withoutQuotes_of_head? {text : List Char} (h : ∀ q ∈ ['\'', '"'], text.head? ≠ some q) :
    withoutQuotes text = text := by
  cases text with
  | nil => rfl
  | cons c cs =>
    have hc : ¬ (c = '\'' ∨ c = '"') := by
      rintro (rfl | rfl)
      · exact h '\'' (by simp) rfl
      · exact h '"' (by simp) rfl
    rw [withoutQuotes, if_neg hc]

/-- A part that is no lone literal has the value of its source text. -/
theorem cellText_of_source {part : List Lexeme}
    (h : ∀ l, part = [l] → ∀ content, l.token ≠ .str content) :
    cellText part = String.ofList (withoutQuotes (trim (Lexeme.source part))) := by
  match part with
  | [] => rfl
  | [l] =>
    rw [Lexeme.source, List.flatMap_nil, List.append_nil]
    simp only [cellText]
    split
    next content hl => exact absurd hl (h l rfl content)
    next => rfl
  | _ :: _ :: _ => rfl

/-- A literal starts with an apostrophe. -/
theorem Spells.exists_cons_of_str {text : List Char} {content : String}
    (h : Spells text (.str content)) : ∃ later, text = '\'' :: later := by
  generalize ht : Token.str content = t at h
  have hopening {opening : Char} {content' : List Char}
      (ht : Token.str content = quotationToken opening content') : opening = '\'' := by
    by_contra hne
    rw [quotationToken, if_neg hne] at ht
    cases ht
  cases h with
  | word =>
    unfold Token.ofWord at ht
    split at ht <;> cases ht
  | number => cases ht
  | symbol => cases ht
  | closed => exact ⟨_, by rw [hopening ht, quoted]⟩
  | unclosed => exact ⟨_, by rw [hopening ht]⟩

/-! ## What stands at the ends of a cell -/

/-- The units of the gaps in front of the first lexeme of a cell and behind its last one.  In a cell
without lexemes all of them are behind. -/
structure Cell.Ends (cell : Cell) (back : List Lexeme) (before after : List (List Char)) :
    Prop where
  text : cell.text = before.flatten ++ (Lexeme.source cell.part ++ after.flatten)
  before : GapUnits before
    (Lexeme.source cell.part ++ (after.flatten ++ Lexeme.source (cell.stop :: back)))
  after : GapUnits after (Lexeme.source (cell.stop :: back))

theorem exists_ends {draft : String} {front back : List Lexeme} {cell : Cell}
    (h : lexemes draft = front ++ (cell.part ++ cell.stop :: back)) :
    ∃ before after, cell.Ends back before after := by
  have hstop : lexemes draft = (front ++ cell.part) ++ cell.stop :: back := by
    rw [h, List.append_assoc]
  obtain ⟨after, hafter, hunits⟩ := exists_gapUnits hstop
  obtain ⟨part, stop⟩ := cell
  cases part with
  | nil => exact ⟨[], after, by rw [Cell.text, hafter]; rfl, .nil, hunits⟩
  | cons l ls =>
    -- The gap in front of the cell is the one that its first lexeme leads with.
    obtain ⟨before, hbefore, hfirst⟩ := exists_gapUnits h
    refine ⟨before, after, ?_, ?_, hunits⟩
    · rw [Cell.text, Lexeme.fullText_cons, hbefore, hafter, List.append_assoc]
    · have hfirst : GapUnits before (Lexeme.source (l :: ls ++ stop :: back)) := hfirst
      rwa [Lexeme.source_append_cons, ← hafter] at hfirst

theorem mem_source_of_mem_lexeme {part : List Lexeme} {l : Lexeme} (hl : l ∈ part) {c : Char}
    (hc : c ∈ l.text) : c ∈ Lexeme.source part := by
  cases part with
  | nil => cases hl
  | cons m ms =>
    rcases List.mem_cons.1 hl with rfl | hl
    · exact List.mem_append_left _ hc
    · exact List.mem_append_right _ (List.mem_flatMap.2 ⟨l, hl, List.mem_append_right _ hc⟩)

theorem mem_of_mem_trim {text : List Char} {c : Char} (h : c ∈ trim text) : c ∈ text := by
  obtain ⟨front, back, hsplit, -, -⟩ := exists_trim text
  rw [hsplit]
  exact List.mem_append_right _ (List.mem_append_left _ h)

/-- Without quotes the value of a part is its source text. -/
theorem cellText_of_no_quote {draft : String} {part : List Lexeme} (hpart : part ⊆ lexemes draft)
    (hquotes : ∀ q ∈ ['\'', '"'], q ∉ Lexeme.source part) :
    cellText part = String.ofList (trim (Lexeme.source part)) := by
  rw [cellText_of_source, withoutQuotes_of_head?]
  · exact fun q hq hhead => hquotes q hq (mem_of_mem_trim (List.mem_of_mem_head? hhead))
  · rintro l rfl content hl
    have hmem : l ∈ lexemes draft := hpart (List.mem_singleton_self l)
    have hend : l.token ≠ .eof := by
      rw [hl]
      exact Token.noConfusion
    obtain ⟨c, cs, hfirst⟩ := firstPiece_of_mem_lexemes hmem hend
    obtain ⟨later, hlater⟩ := (hl ▸ hfirst).spells.exists_cons_of_str
    refine hquotes '\'' (by simp) (mem_source_of_mem_lexeme (List.mem_singleton_self l) ?_)
    rw [hlater]
    exact List.mem_cons_self ..

/-- The value of a cell without quotes is its text from the first lexeme to the last one.  It is all
of the text but white space at the ends if the units of the gaps there are white space, and only
then. -/
theorem reads_plain_cells (draft : String) :
    ∃ rows, CellRows draft rows ∧ draftRows draft = rows.map (List.map Cell.value) ∧
      ∀ row ∈ rows, ∀ cell ∈ row, ∃ front back before after,
        lexemes draft = front ++ (cell.part ++ cell.stop :: back) ∧
        cell.Ends back before after ∧
        ('\'' ∉ cell.text → '"' ∉ cell.text →
          cell.value = String.ofList (trim (Lexeme.source cell.part)) ∧
          (cell.value = String.ofList (trim cell.text) ↔
            ∀ unit ∈ before ++ after, ∀ c ∈ unit, isBlank c = true)) := by
  obtain ⟨rows, hrows⟩ := exists_cellRows draft
  refine ⟨rows, hrows, hrows.draftRows_eq, fun row hrow cell hcell => ?_⟩
  obtain ⟨front, start, back, hsplit, -, -⟩ := hrows.exists_append hrow hcell
  rw [List.append_cons] at hsplit
  obtain ⟨before, after, hends⟩ := exists_ends hsplit
  refine ⟨_, back, before, after, hsplit, hends, fun hsingle hdouble => ?_⟩
  have hpart : cell.part ⊆ lexemes draft := by
    rw [hsplit]
    exact fun l hl => List.mem_append_right _ (List.mem_append_left _ hl)
  have hquotes : ∀ q ∈ ['\'', '"'], q ∉ Lexeme.source cell.part := by
    have hsource {c : Char} (hc : c ∈ Lexeme.source cell.part) : c ∈ cell.text := by
      rw [hends.text]
      exact List.mem_append_right _ (List.mem_append_left _ hc)
    simp only [List.mem_cons, List.not_mem_nil, or_false]
    rintro q (rfl | rfl)
    · exact fun hc => hsingle (hsource hc)
    · exact fun hc => hdouble (hsource hc)
  have hvalue : cell.value = String.ofList (trim (Lexeme.source cell.part)) :=
    cellText_of_no_quote hpart hquotes
  refine ⟨hvalue, ?_⟩
  rw [hvalue, String.ofList_inj, eq_comm, hends.text, trim_append_eq_iff, ← List.flatten_append]
  constructor
  · exact fun h unit hunit c hc => h c (List.mem_flatten_of_mem hunit hc)
  · intro h c hc
    obtain ⟨unit, hunit, hc⟩ := List.mem_flatten.1 hc
    exact h unit hunit c hc

/-- A sign, a parameter and a per cent sign are in none of the values, although they are all that
stands between the delimiters besides digits and white space. -/
theorem signs_are_lost :
    let draft := "INSERT INTO readings VALUES (- 5, ?, 50 %)"
    let comma := Lexeme.ofMark [] .comma
    let cells : List Cell :=
      [⟨[.ofNumber "- ".toList "5".toList], comma⟩, ⟨[], .ofMark " ?".toList .comma⟩,
        ⟨[.ofNumber " ".toList "50".toList], .ofMark " %".toList .closeParen⟩]
    CellRows draft [cells] ∧
      cells.map (fun cell => String.ofList (trim cell.text)) = ["- 5", "?", "50 %"] ∧
      draftRows draft = [["5", "", "50"]] := by
  intro draft comma cells
  have hinside : lexemes draft = (lexemes draft).take 4 ++
      .ofMark [' '] .openParen :: (lexemes draft).drop 5 := by decide +kernel
  have hbody : (lexemes draft).drop 5 = cells[0].part ++ comma :: ([] ++ cells[1].stop ::
      (cells[2].part ++ [cells[2].stop, ⟨[], [], .eof⟩])) := by decide +kernel
  have hcut : Cut cells ((lexemes draft).drop 5) [⟨[], [], .eof⟩] := by
    rw [hbody]
    exact .comma rfl (.comma rfl (.closed rfl))
  have hgroups : valueGroups (lexemes draft) =
      [⟨cells[0].part, [[], cells[2].part], [⟨[], [], .eof⟩]⟩] := by decide +kernel
  refine ⟨?_, by decide +kernel, by decide +kernel⟩
  rw [CellRows, hgroups]
  exact .cons ⟨rfl, _, _, _, hinside, rfl, hcut⟩ .nil

end SqlDraft
