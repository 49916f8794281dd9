import SqlDraft.Lexeme

/-!
# Groups

A group is what follows an opening parenthesis, cut at the commas of its own nesting level.  It
ends with the parenthesis that closes it, or with the draft.
-/

namespace SqlDraft

structure Group where
  first : List Lexeme
  others : List (List Lexeme)
  /-- What follows the closing parenthesis, or the end of the draft if there is none. -/
  rest : List Lexeme
  deriving DecidableEq, Repr

namespace Group

/-- The parts between the commas; there is always one more of them than commas. -/
def fragments (g : Group) : List (List Lexeme) :=
  g.first :: g.others

def push (l : Lexeme) (g : Group) : Group :=
  { g with first := l :: g.first }

def pushComma (g : Group) : Group :=
  { first := [], others := g.fragments, rest := g.rest }

/-- Reads a group from the lexemes inside it, `depth` parentheses down. -/
def readAt (depth : Nat) : List Lexeme → Group
  | [] => ⟨[], [], []⟩
  | l :: ls =>
    match l.token with
    | .eof => ⟨[], [], l :: ls⟩
    | .symbol .openParen => push l (readAt (depth + 1) ls)
    | .symbol .closeParen =>
      match depth with
      | 0 => ⟨[], [], ls⟩
      | outer + 1 => push l (readAt outer ls)
    | .symbol .comma =>
      match depth with
      | 0 => pushComma (readAt 0 ls)
      | _ + 1 => push l (readAt depth ls)
    | _ => push l (readAt depth ls)

def read (ls : List Lexeme) : Group :=
  readAt 0 ls

theorem readAt_rest_length (depth : Nat) (ls : List Lexeme) :
    (readAt depth ls).rest.length ≤ ls.length := by
  induction ls generalizing depth with
  | nil => simp [readAt]
  | cons l ls ih =>
    simp only [readAt]
    repeat' split
    all_goals simp only [push, pushComma, List.length_cons]
    all_goals first
      | exact Nat.le_refl _
      | exact Nat.le_succ _
      | exact Nat.le_succ_of_le (ih _)

/-- What follows a group is no longer than what was given. -/
theorem read_rest_length (ls : List Lexeme) : (read ls).rest.length ≤ ls.length :=
  readAt_rest_length 0 ls

end Group

end SqlDraft
