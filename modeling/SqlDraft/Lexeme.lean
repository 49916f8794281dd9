import SqlDraft.Piece
import SqlDraft.Text.Bytes

/-!
# Lexemes

A lexeme is a token together with its source text and the gap in front of it.  The last lexeme of
a draft is the end of the draft, whose gap is whatever trails the last token.  Since gaps are kept,
a list of neighbouring lexemes still holds the source text from the first to the last.
-/

namespace SqlDraft

structure Lexeme where
  /-- The blanks, comments and stray characters in front. -/
  lead : List Char
  text : List Char
  token : Token
  deriving DecidableEq, Repr

namespace Lexeme

/-- Puts more text into the gap in front of the first lexeme. -/
def addLead (text : List Char) : List Lexeme → List Lexeme
  | [] => []
  | l :: ls => { l with lead := text ++ l.lead } :: ls

theorem addLead_nil (ls : List Lexeme) : addLead [] ls = ls := by
  cases ls <;> rfl

theorem addLead_append (s t : List Char) (ls : List Lexeme) :
    addLead (s ++ t) ls = addLead s (addLead t ls) := by
  cases ls with
  | nil => rfl
  | cons l ls => simp only [addLead, List.append_assoc]

def ofPieces : List Piece → List Lexeme
  | [] => [⟨[], [], .eof⟩]
  | .gap _ text :: ps => addLead text (ofPieces ps)
  | .token token text :: ps => ⟨[], text, token⟩ :: ofPieces ps

/-- The word that a lexeme spells: a name's content, or a keyword as it was typed. -/
def word? (l : Lexeme) : Option String :=
  match l.token with
  | .ident name => some name
  | .keyword _ => some (String.ofList l.text)
  | _ => none

def source : List Lexeme → List Char
  | [] => []
  | l :: ls => l.text ++ ls.flatMap fun next => next.lead ++ next.text

/-- The whole text that lexemes stand for, with the gap in front of the first. -/
def fullText (ls : List Lexeme) : List Char :=
  ls.flatMap fun l => l.lead ++ l.text

end Lexeme

/-- The lexemes of a draft, the last of which is its end. -/
def lexemes (draft : String) : List Lexeme :=
  Lexeme.ofPieces (pieces draft.toList)

def tokens (draft : String) : List Token :=
  (lexemes draft).map Lexeme.token

/-! ## Places -/

/-- A stretch of a draft, in bytes from its start. -/
structure Span where
  start : Nat
  stop : Nat
  deriving DecidableEq, Repr

def spansFrom (offset : Nat) : List Lexeme → List Span
  | [] => []
  | l :: ls =>
    let start := offset + byteSize l.lead
    let stop := start + byteSize l.text
    ⟨start, stop⟩ :: spansFrom stop ls

def spans (ls : List Lexeme) : List Span :=
  spansFrom 0 ls

@[simp] theorem spansFrom_length (offset : Nat) (ls : List Lexeme) :
    (spansFrom offset ls).length = ls.length := by
  induction ls generalizing offset with
  | nil => rfl
  | cons l ls ih => simp [spansFrom, ih]

/-! ## Nothing is lost -/

namespace Lexeme

theorem ofPieces_ne_nil (ps : List Piece) : ofPieces ps ≠ [] := by
  induction ps with
  | nil => simp [ofPieces]
  | cons p ps ih =>
    cases p with
    | token token text => simp [ofPieces]
    | gap kind text =>
      obtain ⟨l, ls, h⟩ := List.exists_cons_of_ne_nil ih
      simp [ofPieces, h, addLead]

/-- The lexemes stand for the text of the pieces. -/
theorem fullText_ofPieces (ps : List Piece) : fullText (ofPieces ps) = ps.flatMap Piece.text := by
  induction ps with
  | nil => simp [ofPieces, fullText]
  | cons p ps ih =>
    cases p with
    | token token text => simpa [ofPieces, fullText, Piece.text] using ih
    | gap kind text =>
      obtain ⟨l, ls, h⟩ := List.exists_cons_of_ne_nil (ofPieces_ne_nil ps)
      rw [h] at ih
      simp only [ofPieces, h, addLead, List.flatMap_cons, Piece.text, ← ih]
      simp [fullText]

end Lexeme

/-- The lexemes of a draft stand for the whole draft. -/
theorem fullText_lexemes (draft : String) : Lexeme.fullText (lexemes draft) = draft.toList := by
  rw [lexemes, Lexeme.fullText_ofPieces, pieces_text]

end SqlDraft
