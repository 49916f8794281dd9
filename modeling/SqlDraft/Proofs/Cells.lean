import Mathlib.Data.List.Forall2
import SqlDraft.Proofs.ValueGroups

/-!
# Cells

A part of a group stands between two lexemes that are not in it: a comma or the parenthesis of the
group in front, and a comma, a parenthesis or the end of the draft after it.  A cell is a part with
the lexeme that ends it, so it knows all the text between the two, and not only its own lexemes.
`exists_cellsOf` says that every group of values is cut into cells.
-/

namespace SqlDraft

/-- A part of a group where it stands. -/
structure Cell where
  part : List Lexeme
  /-- The comma or the parenthesis after the part, or the end of the draft. -/
  stop : Lexeme

namespace Cell

/-- What stands between the lexemes that delimit a cell. -/
def text (cell : Cell) : List Char :=
  Lexeme.fullText cell.part ++ cell.stop.lead

def value (cell : Cell) : String :=
  cellText cell.part

end Cell

/-- Whether the lexemes inside a parenthesis are cells, up to what is left after it. -/
inductive Cut : List Cell → List Lexeme → List Lexeme → Prop
  | closed {part rest : List Lexeme} {close : Lexeme} (hclose : close.token = .symbol .closeParen) :
      Cut [⟨part, close⟩] (part ++ close :: rest) rest
  | unclosed {part rest : List Lexeme} {last : Lexeme} (hlast : last.token = .eof) :
      Cut [⟨part, last⟩] (part ++ last :: rest) (last :: rest)
  | comma {part ls rest : List Lexeme} {comma : Lexeme} {cells : List Cell}
      (hcomma : comma.token = .symbol .comma) (h : Cut cells ls rest) :
      Cut (⟨part, comma⟩ :: cells) (part ++ comma :: ls) rest

/-- Whether a group of a draft is cut into cells, which its parts stand in. -/
structure CellsOf (ls : List Lexeme) (g : Group) (cells : List Cell) : Prop where
  parts : cells.map Cell.part = g.fragments
  placed : ∃ front paren inside, ls = front ++ paren :: inside ∧
    paren.token = .symbol .openParen ∧ Cut cells inside g.rest

/-! ## Every group is cut into cells -/

/-- One more lexeme in front goes into the first cell. -/
theorem Cut.push {cells : List Cell} {ls rest : List Lexeme} (h : Cut cells ls rest) (l : Lexeme) :
    ∃ cell more, cells = cell :: more ∧
      Cut (⟨l :: cell.part, cell.stop⟩ :: more) (l :: ls) rest := by
  cases h with
  | closed hclose => exact ⟨_, [], rfl, .closed hclose⟩
  | unclosed hlast => exact ⟨_, [], rfl, .unclosed hlast⟩
  | comma hcomma h => exact ⟨_, _, rfl, .comma hcomma h⟩

theorem Group.exists_cut {ls : List Lexeme} (hend : ∃ l ∈ ls, l.token = .eof) (depth : Nat) :
    ∃ cells, cells.map Cell.part = (readAt depth ls).fragments ∧
      Cut cells ls (readAt depth ls).rest := by
  have hpush {l : Lexeme} {ls : List Lexeme} {g : Group}
      (h : ∃ cells, cells.map Cell.part = g.fragments ∧ Cut cells ls g.rest) :
      ∃ cells, cells.map Cell.part = (push l g).fragments ∧ Cut cells (l :: ls) g.rest := by
    obtain ⟨cells, hparts, hcut⟩ := h
    obtain ⟨cell, more, rfl, hpushed⟩ := hcut.push l
    obtain ⟨hfirst, hothers⟩ := List.cons.inj hparts
    refine ⟨_, ?_, hpushed⟩
    rw [List.map_cons, hothers, hfirst]
    rfl
  -- A lexeme that splits or ends the group leaves an empty cell in front of it, any other one goes
  -- into the first cell after it.
  fun_induction readAt depth ls with
  | case1 =>
    obtain ⟨l, hl, -⟩ := hend
    cases hl
  | case2 depth l ls hl => exact ⟨_, rfl, @Cut.unclosed [] ls l hl⟩
  | case3 depth l ls hl ih => exact hpush (ih (by simpa [hl] using hend))
  | case4 l ls hl => exact ⟨_, rfl, @Cut.closed [] ls l hl⟩
  | case5 l ls hl outer ih => exact hpush (ih (by simpa [hl] using hend))
  | case6 l ls hl ih =>
    obtain ⟨cells, hparts, hcut⟩ := ih (by simpa [hl] using hend)
    refine ⟨⟨[], l⟩ :: cells, ?_, @Cut.comma [] ls _ l cells hl hcut⟩
    rw [List.map_cons, hparts]
    rfl
  | case7 l ls hl outer ih => exact hpush (ih (by simpa [hl] using hend))
  | case8 depth l ls heof _ _ _ ih =>
    have hne : l.token ≠ .eof := heof
    exact hpush (ih (by simpa [hne] using hend))

theorem exists_cellsOf {draft : String} {g : Group} (hg : g ∈ valueGroups (lexemes draft)) :
    ∃ cells, CellsOf (lexemes draft) g cells := by
  obtain ⟨front, paren, body, hsplit, hparen, rfl⟩ := exists_read_of_mem_valueGroups hg
  -- The parenthesis is not the end of the draft, so that comes after it.
  have hend : ∃ l ∈ body, l.token = .eof := by
    rcases eof_or_exists_concat hsplit with ⟨heof, -⟩ | ⟨-, more, trail, rfl⟩
    · rw [hparen] at heof
      cases heof
    · exact ⟨_, List.mem_append_right _ (List.mem_singleton_self _), rfl⟩
  obtain ⟨cells, hparts, hcut⟩ := Group.exists_cut hend 0
  exact ⟨cells, hparts, front, paren, body, hsplit, hparen, hcut⟩

theorem CellsOf.row_eq {ls : List Lexeme} {g : Group} {cells : List Cell} (h : CellsOf ls g cells) :
    g.row = cells.map Cell.value := by
  rw [Group.row, ← h.parts, List.map_map]
  rfl

/-! ## Where cells stand -/

/-- What can end a cell. -/
def Lexeme.IsStop (l : Lexeme) : Prop :=
  l.token = .symbol .comma ∨ l.token = .symbol .closeParen ∨ l.token = .eof

/-- What a cell can stand after. -/
def Lexeme.IsStart (l : Lexeme) : Prop :=
  l.token = .symbol .openParen ∨ l.token = .symbol .comma

theorem Cut.exists_append {cells : List Cell} {ls rest : List Lexeme} (h : Cut cells ls rest)
    {start : Lexeme} (hstart : start.IsStart) {cell : Cell} (hcell : cell ∈ cells) :
    ∃ front start' back, start :: ls = front ++ start' :: (cell.part ++ cell.stop :: back) ∧
      start'.IsStart ∧ cell.stop.IsStop := by
  -- The comma that ends a cell is what the next one stands after.
  induction h generalizing start with
  | @closed part rest close hclose =>
    obtain rfl := List.mem_singleton.1 hcell
    exact ⟨[], start, rest, rfl, hstart, .inr (.inl hclose)⟩
  | @unclosed part rest last hlast =>
    obtain rfl := List.mem_singleton.1 hcell
    exact ⟨[], start, rest, rfl, hstart, .inr (.inr hlast)⟩
  | @comma part ls rest comma cells hcomma _ ih =>
    rcases List.mem_cons.1 hcell with rfl | hcell
    · exact ⟨[], start, ls, rfl, hstart, .inl hcomma⟩
    · obtain ⟨front, start', back, hsplit, hends⟩ := ih (.inr hcomma) hcell
      exact ⟨start :: (part ++ front), start', back, by simp [hsplit], hends⟩

theorem CellsOf.exists_append {ls : List Lexeme} {g : Group} {cells : List Cell}
    (h : CellsOf ls g cells) {cell : Cell} (hcell : cell ∈ cells) :
    ∃ front start back, ls = front ++ start :: (cell.part ++ cell.stop :: back) ∧
      start.IsStart ∧ cell.stop.IsStop := by
  obtain ⟨front, paren, inside, rfl, hparen, hcut⟩ := h.placed
  obtain ⟨before, start, back, hsplit, hends⟩ := hcut.exists_append (.inl hparen) hcell
  exact ⟨front ++ before, start, back, by rw [hsplit, List.append_assoc], hends⟩

/-! ## The cells of a draft -/

/-- Whether rows of cells are what the groups of values of a draft are cut into. -/
def CellRows (draft : String) (rows : List (List Cell)) : Prop :=
  List.Forall₂ (CellsOf (lexemes draft)) (valueGroups (lexemes draft)) rows

theorem exists_cellRows (draft : String) : ∃ rows, CellRows draft rows := by
  have hrows : ∀ groups : List Group, (∀ g ∈ groups, g ∈ valueGroups (lexemes draft)) →
      ∃ rows, List.Forall₂ (CellsOf (lexemes draft)) groups rows := by
    intro groups hgroups
    induction groups with
    | nil => exact ⟨[], .nil⟩
    | cons g groups ih =>
      obtain ⟨hg, hgroups⟩ := List.forall_mem_cons.1 hgroups
      obtain ⟨cells, hcells⟩ := exists_cellsOf hg
      obtain ⟨rows, hrows⟩ := ih hgroups
      exact ⟨cells :: rows, .cons hcells hrows⟩
  exact hrows _ fun _ hg => hg

namespace CellRows

variable {draft : String} {rows : List (List Cell)}

/-- The rows of a draft are the values of its cells. -/
theorem draftRows_eq (h : CellRows draft rows) :
    draftRows draft = rows.map (List.map Cell.value) := by
  rw [draftRows, rowsOf_eq_map]
  rw [CellRows] at h
  generalize valueGroups (lexemes draft) = groups at h ⊢
  induction h with
  | nil => rfl
  | cons hcells _ ih => rw [List.map_cons, List.map_cons, hcells.row_eq, ih]

theorem exists_append (h : CellRows draft rows) {row : List Cell} (hrow : row ∈ rows) {cell : Cell}
    (hcell : cell ∈ row) :
    ∃ front start back, lexemes draft = front ++ start :: (cell.part ++ cell.stop :: back) ∧
      start.IsStart ∧ cell.stop.IsStop := by
  rw [CellRows] at h
  generalize valueGroups (lexemes draft) = groups at h
  induction h with
  | nil => cases hrow
  | cons hcells _ ih =>
    rcases List.mem_cons.1 hrow with rfl | hrow
    · exact hcells.exists_append hcell
    · exact ih hrow

end CellRows

end SqlDraft
