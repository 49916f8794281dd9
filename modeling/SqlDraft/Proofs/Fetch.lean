import SqlDraft.Proofs.Lexing
import SqlDraft.Proofs.Plan
import SqlDraft.Reading.Reference

/-!
# Fetches

A fetch is meant to read the rows of one table.  The name of the table goes into the statement as it
is, without the quotes that it may have had in the draft, so what the statement says depends on what
the name says.  `Desk.fetch_readsOnly_iff` tells the names that are safe from those that are not.
-/

namespace SqlDraft

/-! ## Names that need no quotes -/

/-- Whether a name is a word and no keyword. -/
def isPlainName (name : String) : Bool :=
  isWord name.toList && (Keyword.ofWord? name.toList).isNone

theorem ofWord_of_isPlainName {name : String} (h : isPlainName name = true) :
    Token.ofWord name.toList = .ident name := by
  rw [isPlainName, Bool.and_eq_true, Option.isNone_iff_eq_none] at h
  rw [Token.ofWord, h.2]
  simp only [String.ofList_toList]

theorem pieces_of_isPlainName {name : String} (h : isPlainName name = true) :
    pieces name.toList = [.token (.ident name) name.toList] := by
  have hword : isWord name.toList = true := by
    rw [isPlainName, Bool.and_eq_true] at h
    exact h.1
  have hpieces : pieces (name.toList ++ []) = .token (.ofWord name.toList) name.toList :: [] :=
    pieces_word_append hword (fun d ds hnil => nomatch hnil)
  rw [List.append_nil, ofWord_of_isPlainName h] at hpieces
  exact hpieces

theorem unquoted_length_le (close : Char) (cs : List Char) :
    (unquoted close cs).length ≤ (quotedText close cs).length := by
  fun_induction unquoted close cs with
  | case1 => exact Nat.le_refl 0
  | case2 => exact Nat.zero_le _
  | case3 => exact Nat.le_refl 1
  | case4 cs ih =>
    rw [quotedText, if_pos rfl, if_pos rfl]
    simp only [List.length_cons]
    omega
  | case5 => exact Nat.zero_le _
  | case6 c d cs hc ih =>
    rw [quotedText, if_neg hc]
    simp only [List.length_cons]
    omega

theorem isPlainName_or_length_lt {c : Char} {cs : List Char} {name : String}
    (h : (firstPiece c cs).token? = some (.ident name)) :
    isPlainName name = true ∨ name.toList.length < (firstPiece c cs).text.length := by
  have hkind := firstPiece_kind c cs
  generalize firstPiece c cs = p at h hkind
  cases hkind with
  | blank | lineComment | blockComment | symbol | number | stray => cases h
  | quotation hclose =>
    -- The opening quote is no part of the name, and what follows it is no shorter than the content.
    rename_i close
    right
    have hname : String.ofList (unquoted close cs) = name := by
      simp only [Piece.token?, quotationToken, Option.some.injEq] at h
      split at h
      · cases h
      · exact Token.ident.inj h
    rw [← hname, String.toList_ofList]
    exact Nat.lt_succ_of_le (unquoted_length_le close cs)
  | word hstart =>
    left
    simp only [Piece.token?, Token.ofWord, Option.some.injEq] at h
    split at h
    · cases h
    next hword =>
      rw [← Token.ident.inj h, isPlainName, String.toList_ofList, hword, isWord, hstart]
      simp

theorem text_length_le_of_mem {p : Piece} {text : List Char} (h : p ∈ pieces text) :
    p.text.length ≤ text.length := by
  obtain ⟨before, after, hsplit⟩ := List.append_of_mem h
  have htext := pieces_text text
  rw [hsplit, List.flatMap_append, List.flatMap_cons] at htext
  rw [← htext, List.length_append, List.length_append]
  omega

/-- The plain names are the ones that read as themselves. -/
theorem tokens_eq_ident_iff (name : String) :
    tokens name = [.ident name, .eof] ↔ isPlainName name = true := by
  constructor
  · intro h
    rw [tokens_eq] at h
    have hident : Token.ident name ∈ (pieces name.toList).filterMap Piece.token? := by
      rw [List.append_cancel_right (h.trans List.singleton_append.symm)]
      exact List.mem_singleton_self _
    obtain ⟨p, hp, htoken⟩ := List.mem_filterMap.1 hident
    -- A name in quotes would make its piece longer than the whole text.
    have hlength := text_length_le_of_mem hp
    obtain ⟨c, cs, rfl⟩ := exists_firstPiece_of_mem hp
    rcases isPlainName_or_length_lt htoken with hplain | hlt
    · exact hplain
    · omega
  · intro h
    rw [tokens_eq, pieces_of_isPlainName h]
    rfl

/-! ## The statement of a fetch -/

theorem pieces_selectAll (table : String) :
    pieces (Request.selectAll table).query.toList =
      [.token (.keyword .SELECT) "SELECT".toList, .gap .blank [' '], .token (.symbol .star) ['*'],
        .gap .blank [' '], .token (.keyword .FROM) "FROM".toList, .gap .blank [' ']] ++
      pieces table.toList := by
  have hquery : (Request.selectAll table).query.toList =
      "SELECT".toList ++ ' ' :: Symbol.star.char :: ' ' :: ("FROM".toList ++ ' ' :: table.toList) :=
    String.toList_append
  have hblank : ∀ (cs : List Char) d ds, ' ' :: cs = d :: ds → isWordChar d = false := by
    intro cs d ds h
    rw [← (List.cons.inj h).1]
    decide
  rw [hquery, pieces_word_append (by decide) (hblank _), pieces_of_isBlank _ (by decide),
    pieces_symbol_cons, pieces_of_isBlank _ (by decide), pieces_word_append (by decide) (hblank _),
    pieces_of_isBlank _ (by decide)]
  rfl

/-- A fetch says `SELECT * FROM`, and then whatever the name of the table says. -/
theorem tokens_selectAll (table : String) :
    tokens (Request.selectAll table).query =
      [.keyword .SELECT, .symbol .star, .keyword .FROM] ++ tokens table := by
  rw [tokens_eq, pieces_selectAll, List.filterMap_append, tokens_eq, List.append_assoc]
  rfl

/-- What a request is that only reads the rows of a table. -/
structure ReadsOnly (request : Request) (table : String) : Prop where
  tokens : tokens request.query =
    [.keyword .SELECT, .symbol .star, .keyword .FROM, .ident table, .eof]
  referencedTable : referencedTable? request.query = some table
  keepsTables : dropsTable (SqlDraft.tokens request.query) = false
  oneStatement : Token.symbol .semicolon ∉ SqlDraft.tokens request.query

theorem readsOnly_selectAll_iff (table : String) :
    ReadsOnly (.selectAll table) table ↔ isPlainName table = true := by
  constructor
  · intro h
    have htokens := h.tokens
    rw [tokens_selectAll] at htokens
    exact (tokens_eq_ident_iff table).1 (List.append_cancel_left (htokens.trans rfl))
  · intro h
    have htokens : tokens (Request.selectAll table).query =
        [.keyword .SELECT, .symbol .star, .keyword .FROM, .ident table, .eof] := by
      rw [tokens_selectAll, (tokens_eq_ident_iff table).2 h]
      rfl
    refine ⟨htokens, ?_, ?_, ?_⟩
    -- A table reference is read from lexemes, for which the tokens alone do not stand.
    · rw [referencedTable?, lexemes, pieces_selectAll, pieces_of_isPlainName h]
      rfl
    · rw [htokens]
      rfl
    · rw [htokens]
      simp

/-! ## Fetches of a session -/

/-- The fetches that a session makes next, each with the table that it is for. -/
inductive Session.Fetches (s : Session) : Request → String → Prop
  | ticket {ticket : Ticket} (h : s.requestSnapshot.1 = some ticket) :
      Fetches s ticket.query ticket.table
  | before {request : Request} {table : String} (htable : s.beginRun.table = some table)
      (hnext : s.beginRun.next? = some request) :
      Fetches s request table
  | after {request : Request} {table : String} (first second : Answer)
      (htable : s.beginRun.table = some table)
      (hnext : ((s.beginRun.accept first).accept second).next? = some request) :
      Fetches s request table

theorem Plan.eq_bracketed_of_table {plan : Plan} {table : String}
    (h : (plan.run []).table = some table) : ∃ query, plan = .bracketed query table := by
  cases plan with
  | nothing => cases h
  | plain query => cases h
  | bracketed query table' =>
    cases h
    exact ⟨query, rfl⟩

/-- Every fetch of a session is made the same way. -/
theorem Session.Fetches.eq_selectAll {s : Session} {request : Request} {table : String}
    (h : s.Fetches request table) : request = .selectAll table := by
  have hstart : s.beginRun = (Plan.ofDraft s.draft).run [] := Plan.start_eq_run s.draft
  cases h with
  | ticket => rfl
  | before htable hnext =>
    rw [hstart] at htable hnext
    obtain ⟨query, hplan⟩ := Plan.eq_bracketed_of_table htable
    rw [hplan, Plan.next?_run] at hnext
    exact (Option.some.inj hnext).symm
  | after first second htable hnext =>
    rw [hstart] at htable hnext
    obtain ⟨query, hplan⟩ := Plan.eq_bracketed_of_table htable
    rw [hplan, Plan.accept_run, Plan.accept_run, Plan.next?_run] at hnext
    exact (Option.some.inj hnext).symm

namespace Desk

/-- A fetch of a session says `SELECT * FROM` and then what the name of its table says.  It only
reads that table if the name is a plain one, and otherwise does not. -/
theorem fetch_readsOnly_iff (events : List Event) (request : Request) (table : String)
    (h : (new.after events).session.Fetches request table) :
    tokens request.query = [.keyword .SELECT, .symbol .star, .keyword .FROM] ++ tokens table ∧
    (ReadsOnly request table ↔ isPlainName table = true) := by
  rw [h.eq_selectAll]
  exact ⟨tokens_selectAll table, readsOnly_selectAll_iff table⟩

/-- The fetch of a table whose name is a plain one. -/
theorem fetch_readsOnly_pets :
    ((new.after [.setDraft "DELETE FROM pets"]).session.Fetches ⟨"SELECT * FROM pets"⟩ "pets") ∧
    ReadsOnly ⟨"SELECT * FROM pets"⟩ "pets" := by
  have hfetch : (new.after [.setDraft "DELETE FROM pets"]).session.Fetches
      ⟨"SELECT * FROM pets"⟩ "pets" :=
    .before (by decide +kernel) (by decide +kernel)
  exact ⟨hfetch, (fetch_readsOnly_iff _ _ _ hfetch).2.2 (by decide +kernel)⟩

/-- A draft that drops nothing has a fetch that does, since a name in quotes may say anything. -/
theorem quoted_name_drops_table :
    dropsTable (tokens "CREATE TABLE \"t; DROP TABLE students\" (id INT)") = false ∧
    (new.after [.setDraft "CREATE TABLE \"t; DROP TABLE students\" (id INT)"]).session.Fetches
      ⟨"SELECT * FROM t; DROP TABLE students"⟩ "t; DROP TABLE students" ∧
    dropsTable (tokens "SELECT * FROM t; DROP TABLE students") = true ∧
    ¬ ReadsOnly ⟨"SELECT * FROM t; DROP TABLE students"⟩ "t; DROP TABLE students" := by
  have hdrops : dropsTable (tokens "SELECT * FROM t; DROP TABLE students") = true := by
    decide +kernel
  have hticket : (new.after [.setDraft
      "CREATE TABLE \"t; DROP TABLE students\" (id INT)"]).session.requestSnapshot.1 =
      some ⟨1, "t; DROP TABLE students"⟩ := by
    decide +kernel
  refine ⟨by decide +kernel, .ticket hticket, hdrops, ?_⟩
  intro h
  have hkeeps := h.keepsTables
  rw [hdrops] at hkeeps
  exact Bool.noConfusion hkeeps

end Desk

end SqlDraft
