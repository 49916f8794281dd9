import SqlDraft.Reading.Group

/-!
# Value rows

The rows that a draft inserts: every group that follows `VALUES`, and the groups that follow those
after a comma.
-/

namespace SqlDraft

/-- Takes off an opening quote and the quote that ends the text, if there is one. -/
def withoutQuotes (text : List Char) : List Char :=
  match text with
  | [] => []
  | c :: cs =>
    if c = '\'' ∨ c = '"' then
      match cs.getLast? with
      | some last => if last = c then cs.dropLast else cs
      | none => cs
    else text

/-- The value of a part of a group: the content of a lone literal, and otherwise the source text
without quotes around it. -/
def cellText (fragment : List Lexeme) : String :=
  match fragment with
  | [] => ""
  | [l] =>
    match l.token with
    | .str content => content
    | _ => String.ofList (withoutQuotes (trim l.text))
  | _ => String.ofList (withoutQuotes (trim (Lexeme.source fragment)))

/-- The values of the groups at the front of some lexemes, with commas between them. -/
def rowsAtFront (ls : List Lexeme) : List (List String) :=
  match ls with
  | [] => []
  | l :: body =>
    if l.token = .symbol .openParen then
      let group := Group.read body
      let row := group.fragments.map cellText
      match h : group.rest with
      | comma :: next :: rest =>
        have shorter : rest.length < body.length := by
          have hle := Group.read_rest_length body
          rw [show (Group.read body).rest = comma :: next :: rest from h] at hle
          exact Nat.lt_of_succ_lt hle
        if comma.token = .symbol .comma ∧ next.token = .symbol .openParen then
          row :: rowsAtFront (next :: rest)
        else [row]
      | _ => [row]
    else []
  termination_by ls.length

def rowsOf : List Lexeme → List (List String)
  | [] => []
  | l :: ls =>
    if l.token = .keyword .VALUES then rowsAtFront ls ++ rowsOf ls
    else rowsOf ls

def draftRows (draft : String) : List (List String) :=
  rowsOf (lexemes draft)

end SqlDraft
