import SqlDraft.Text.Blank
import SqlDraft.Text.Numeric
import SqlDraft.Token

/-!
# Pieces of a draft

Every text splits into pieces: tokens, and between them blanks, comments and stray characters.
Nothing is an error: an unclosed quote or comment runs to the end of the text, and a character that
can start no token is passed over.  `pieces_text` says that the pieces make up the text.
-/

namespace SqlDraft

/-! ## Stretches of text

Each of these functions returns a front part of the text it is given. -/

/-- A line comment's text after its dashes: up to and including the next line break. -/
def lineText : List Char → List Char
  | [] => []
  | c :: cs => if c = '\n' then [c] else c :: lineText cs

/-- A block comment's text after its opening: up to and including the first closing. -/
def blockText : List Char → List Char
  | [] => []
  | [c] => [c]
  | c :: d :: cs => if c = '*' ∧ d = '/' then [c, d] else c :: blockText (d :: cs)

/-- A quotation's text after its opening quote: up to and including the first closing quote that
is not doubled. -/
def quotedText (close : Char) : List Char → List Char
  | [] => []
  | [c] => [c]
  | c :: d :: cs =>
    if c = close then
      if d = close then c :: d :: quotedText close cs else [c]
    else c :: quotedText close (d :: cs)

/-- The content of a quotation, read from the text after its opening quote: doubled closing quotes
are single, and the closing quote and what follows it are left out. -/
def unquoted (close : Char) : List Char → List Char
  | [] => []
  | [c] => if c = close then [] else [c]
  | c :: d :: cs =>
    if c = close then
      if d = close then c :: unquoted close cs else []
    else c :: unquoted close (d :: cs)

def digitsText (pointSeen : Bool) : List Char → List Char
  | [] => []
  | c :: cs =>
    if c.isDigit then c :: digitsText pointSeen cs
    else if c = '.' ∧ pointSeen = false then c :: digitsText true cs
    else []

def isWordChar (c : Char) : Bool :=
  isAlphanumeric c || c == '_'

def isWordStart (c : Char) : Bool :=
  isAlphabetic c || c == '_'

/-! ## Pieces -/

inductive Gap
  | blank
  | lineComment
  | blockComment
  /-- A character that starts no token where it stands. -/
  | stray
  deriving DecidableEq, Repr

inductive Piece
  | gap (kind : Gap) (text : List Char)
  | token (token : Token) (text : List Char)
  deriving DecidableEq, Repr

def Piece.text : Piece → List Char
  | gap _ text => text
  | token _ text => text

def closingQuote? : Char → Option Char
  | '"' => some '"'
  | '\x60' => some '\x60'
  | '[' => some ']'
  | '\'' => some '\''
  | _ => none

/-- The token of a quotation: apostrophes quote text, other quotes quote names. -/
def quotationToken (opening : Char) (content : List Char) : Token :=
  if opening = '\'' then .str (String.ofList content) else .ident (String.ofList content)

def numberPiece (c : Char) (cs : List Char) : Piece :=
  let text := c :: digitsText false cs
  .token (.num (String.ofList text)) text

def firstPiece (c : Char) (cs : List Char) : Piece :=
  if isBlank c then .gap .blank [c]
  else if c = '-' then
    match cs with
    | d :: _ =>
      if d = '-' then .gap .lineComment (c :: lineText cs)
      -- A minus right in front of a digit is a sign, even behind a name or another number.
      else if d.isDigit then numberPiece c cs
      else .gap .stray [c]
    | [] => .gap .stray [c]
  else if c = '/' then
    match cs with
    | '*' :: rest => .gap .blockComment (c :: '*' :: blockText rest)
    | _ => .gap .stray [c]
  else match Symbol.ofChar? c with
  | some mark => .token (.symbol mark) [c]
  | none =>
    match closingQuote? c with
    | some close => .token (quotationToken c (unquoted close cs)) (c :: quotedText close cs)
    | none =>
      if c.isDigit then numberPiece c cs
      else if isWordStart c then
        let word := c :: cs.takeWhile isWordChar
        .token (.ofWord word) word
      else .gap .stray [c]

/-- The pieces of a text whose first characters, as many as given, belong to a piece before it. -/
def piecesAfter : Nat → List Char → List Piece
  | _, [] => []
  | skip + 1, _ :: cs => piecesAfter skip cs
  | 0, c :: cs =>
    let piece := firstPiece c cs
    piece :: piecesAfter (piece.text.length - 1) cs

def pieces (text : List Char) : List Piece :=
  piecesAfter 0 text

/-! ## One piece after the other -/

theorem piecesAfter_eq_drop (skip : Nat) (cs : List Char) :
    piecesAfter skip cs = pieces (cs.drop skip) := by
  induction cs generalizing skip with
  | nil => cases skip <;> simp [pieces, piecesAfter]
  | cons c cs ih =>
    cases skip with
    | zero => rfl
    | succ skip => simpa [piecesAfter] using ih skip

@[simp] theorem pieces_nil : pieces [] = [] := rfl

/-- The pieces of a text are its first piece and those of the text after it. -/
theorem pieces_cons (c : Char) (cs : List Char) :
    pieces (c :: cs) =
      firstPiece c cs :: pieces (cs.drop ((firstPiece c cs).text.length - 1)) := by
  rw [← piecesAfter_eq_drop]
  rfl

/-! ## Nothing is lost -/

theorem lineText_isPrefix (cs : List Char) : lineText cs <+: cs := by
  induction cs with
  | nil => simp [lineText]
  | cons c cs ih =>
    simp only [lineText]
    split
    · exact ⟨cs, rfl⟩
    · exact List.cons_prefix_cons.2 ⟨rfl, ih⟩

theorem blockText_isPrefix (cs : List Char) : blockText cs <+: cs := by
  fun_induction blockText cs with
  | case1 => exact List.nil_prefix
  | case2 c => exact List.prefix_refl _
  | case3 c d cs => exact ⟨cs, rfl⟩
  | case4 c d cs _ ih => exact List.cons_prefix_cons.2 ⟨rfl, ih⟩

theorem quotedText_isPrefix (close : Char) (cs : List Char) : quotedText close cs <+: cs := by
  fun_induction quotedText close cs with
  | case1 => exact List.nil_prefix
  | case2 c => exact List.prefix_refl _
  | case3 cs ih => exact List.cons_prefix_cons.2 ⟨rfl, List.cons_prefix_cons.2 ⟨rfl, ih⟩⟩
  | case4 d cs _ => exact ⟨d :: cs, rfl⟩
  | case5 c d cs _ ih => exact List.cons_prefix_cons.2 ⟨rfl, ih⟩

theorem digitsText_isPrefix (pointSeen : Bool) (cs : List Char) :
    digitsText pointSeen cs <+: cs := by
  fun_induction digitsText pointSeen cs with
  | case1 => exact List.nil_prefix
  | case2 pointSeen c cs _ ih => exact List.cons_prefix_cons.2 ⟨rfl, ih⟩
  | case3 pointSeen c cs _ _ ih => exact List.cons_prefix_cons.2 ⟨rfl, ih⟩
  | case4 => exact List.nil_prefix

theorem firstPiece_isPrefix (c : Char) (cs : List Char) :
    (firstPiece c cs).text <+: c :: cs := by
  have one : [c] <+: c :: cs := ⟨cs, rfl⟩
  have number : (numberPiece c cs).text <+: c :: cs :=
    List.cons_prefix_cons.2 ⟨rfl, digitsText_isPrefix false cs⟩
  unfold firstPiece
  split
  · exact one
  split
  · split
    · split
      · exact List.cons_prefix_cons.2 ⟨rfl, lineText_isPrefix _⟩
      split
      · exact number
      · exact one
    · exact one
  split
  · split
    · exact List.cons_prefix_cons.2 ⟨rfl, List.cons_prefix_cons.2 ⟨rfl, blockText_isPrefix _⟩⟩
    · exact one
  split
  · exact one
  split
  · exact List.cons_prefix_cons.2 ⟨rfl, quotedText_isPrefix _ _⟩
  split
  · exact number
  split
  · exact List.cons_prefix_cons.2 ⟨rfl, List.takeWhile_prefix _⟩
  · exact one

theorem firstPiece_text_ne_nil (c : Char) (cs : List Char) : (firstPiece c cs).text ≠ [] := by
  unfold firstPiece
  repeat' split
  all_goals simp [Piece.text, numberPiece]

theorem piecesAfter_text (skip : Nat) (cs : List Char) :
    (piecesAfter skip cs).flatMap Piece.text = cs.drop skip := by
  fun_induction piecesAfter skip cs with
  | case1 => simp
  | case2 skip _ cs ih => simpa using ih
  | case3 c cs piece ih =>
    obtain ⟨rest, hrest⟩ := firstPiece_isPrefix c cs
    have hne := firstPiece_text_ne_nil c cs
    simp only [List.flatMap_cons, ih, List.drop_zero]
    obtain ⟨d, ds, hd⟩ := List.exists_cons_of_ne_nil hne
    have hp : piece.text = d :: ds := hd
    rw [hd, List.cons_append, List.cons.injEq] at hrest
    obtain ⟨rfl, hcs⟩ := hrest
    rw [hp, ← hcs]
    simp

/-- The pieces of a text, put side by side, are the text. -/
theorem pieces_text (cs : List Char) : (pieces cs).flatMap Piece.text = cs := by
  simpa [pieces] using piecesAfter_text 0 cs

end SqlDraft
