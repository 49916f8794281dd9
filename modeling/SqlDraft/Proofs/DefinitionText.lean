import SqlDraft.Proofs.DefinitionHead
import SqlDraft.Proofs.Nesting
import SqlDraft.Proofs.Writing

/-!
# Definitions as they are written

A definition is a name and, between parentheses, columns and constraints in any order.  The main
result is `reads_definition`: whatever the columns and constraints say, such a definition is read
as its table and its columns, in their order and with the types that their type texts stand for.
-/

namespace SqlDraft

/-! ## What a definition is made of -/

/-- A name: a word, or any text between quotes. -/
inductive NameLexeme : Lexeme → String → Prop
  | word {gap word : List Char} (hword : isWord word = true) :
      NameLexeme (.ofWord gap word) (String.ofList word)
  | quoted {gap content : List Char} {opening close : Char}
      (hquotes : (opening, close) ∈ [('"', '"'), ('\x60', '\x60'), ('[', ']')]) :
      NameLexeme (.ofQuotation gap opening close content) (String.ofList content)

inductive WordLexeme (spelling : String) : Lexeme → Prop
  | word {gap word : List Char} (hword : isWord word = true)
      (hsame : sameName spelling (String.ofList word) = true) :
      WordLexeme spelling (.ofWord gap word)

/-- A part of a type: a word that starts no clause, or numbers between parentheses. -/
inductive TypePart : List Lexeme → Prop
  | word {gap word : List Char} (hword : isWord word = true)
      (hkeyword : ∀ k ∈ [Keyword.NOT, .CONSTRAINT, .CHECK, .PRIMARY, .UNIQUE],
        Token.ofWord word ≠ .keyword k)
      (hname : ∀ clause ∈ ["NULL", "DEFAULT", "REFERENCES", "COLLATE", "GENERATED"],
        sameName clause (String.ofList word) = false) :
      TypePart [.ofWord gap word]
  | numbers {opening close : Lexeme} {numbers : List (List Lexeme)} {inner : List Lexeme}
      (hopening : opening.token = .symbol .openParen)
      (hnumbers : ∀ part ∈ numbers, ∃ l ds, part = [l] ∧ l.token = .num ds)
      (hinner : Separated numbers inner) (hclose : close.token = .symbol .closeParen) :
      TypePart (opening :: (inner ++ [close]))

/-- A clause after the type of a column, if there is one. -/
inductive ClauseLexemes : List Lexeme → Prop
  | none : ClauseLexemes []
  | clause {spelling : String} {word : Lexeme} {rest : List Lexeme}
      (hspelling : spelling ∈ ["NOT", "NULL", "DEFAULT", "CONSTRAINT", "CHECK", "PRIMARY",
        "UNIQUE", "REFERENCES", "COLLATE", "GENERATED"])
      (hword : WordLexeme spelling word) (hrest : Balanced false (rest.map Lexeme.token)) :
      ClauseLexemes (word :: rest)

/-- What may stand between the commas of a definition, with the column that it describes: a name,
a type and a clause, or a constraint. -/
inductive ItemLexemes : List Lexeme → Option Column → Prop
  | column {l : Lexeme} {name : String} {type : List (List Lexeme)} {clause : List Lexeme}
      (hname : NameLexeme l name)
      (hplain : ∀ word ∈ ["PRIMARY", "FOREIGN", "CONSTRAINT", "KEY", "UNIQUE", "CHECK"],
        sameName word name = false)
      (htype : ∀ part ∈ type, TypePart part) (hclause : ClauseLexemes clause) :
      ItemLexemes (l :: (type.flatten ++ clause))
        (some ⟨name, .infer (Lexeme.source type.flatten)⟩)
  | constraint {spelling : String} {word : Lexeme} {rest : List Lexeme}
      (hspelling : spelling ∈ ["PRIMARY", "FOREIGN", "CONSTRAINT", "KEY", "UNIQUE", "CHECK"])
      (hword : WordLexeme spelling word) (hrest : Balanced false (rest.map Lexeme.token)) :
      ItemLexemes (word :: rest) none

/-- The lexemes of a definition: how it opens, the name, and the items between parentheses. -/
inductive DefinitionLexemes : List Lexeme → Definition → Prop
  | create {guarded : Bool} {opening body : List Lexeme} {name paren close : Lexeme}
      {table : String} {items : List (List Lexeme × Option Column)}
      (hopening : opening.map Lexeme.token = [.keyword .CREATE, .keyword .TABLE] ++
        if guarded then [.keyword .IF, .keyword .NOT, .keyword .EXISTS] else [])
      (hname : NameLexeme name table) (hplain : ∀ k, name.token ≠ .keyword k)
      (hparen : paren.token = .symbol .openParen)
      (hitems : ∀ item ∈ items, ItemLexemes item.1 item.2)
      (hbody : Separated (items.map Prod.fst) body)
      (hclose : close.token = .symbol .closeParen) :
      DefinitionLexemes (opening ++ name :: paren :: (body ++ [close]))
        ⟨table, items.filterMap Prod.snd⟩

/-! ## Words -/

theorem ofWord_cases (word : List Char) :
    (∃ k, Token.ofWord word = .keyword k) ∨ Token.ofWord word = .ident (String.ofList word) := by
  unfold Token.ofWord
  split
  next k _ => exact .inl ⟨k, rfl⟩
  next => exact .inr rfl

theorem toNat_lt_of_toLower {c : Char} (h : c.toLower.toNat < 128) : c.toNat < 128 := by
  unfold Char.toLower at h
  split at h
  next hupper => exact Nat.lt_of_le_of_lt (show c.val ≤ 'Z'.val from hupper.2) (by decide)
  next => exact h

/-- An ASCII capital is the capital of its own small letter only. -/
theorem capital_of_toLower {c d : Char} (hd : d ∈ "ABCDEFGHIJKLMNOPQRSTUVWXYZ".toList)
    (h : d.toLower = c.toLower) : capital c = [d] := by
  -- Both letters are ASCII, so trying all of these is enough.
  have hsmall : ∀ d ∈ "ABCDEFGHIJKLMNOPQRSTUVWXYZ".toList, d.toLower.toNat < 128 :=
    List.all_iff_forall_prop.1 (by decide)
  have hall : ∀ d ∈ "ABCDEFGHIJKLMNOPQRSTUVWXYZ".toList, ∀ n < 128,
      d.toLower = (Char.ofNat n).toLower → capital (Char.ofNat n) = [d] :=
    List.all_iff_forall_prop.1 (by decide +kernel)
  have hc : c.toNat < 128 := toNat_lt_of_toLower (h ▸ hsmall d hd)
  have hfound := hall d hd c.toNat hc
  rw [Char.ofNat_toNat] at hfound
  exact hfound h

theorem capitals_of_map_toLower {letters word : List Char}
    (hletters : ∀ d ∈ letters, d ∈ "ABCDEFGHIJKLMNOPQRSTUVWXYZ".toList)
    (h : letters.map Char.toLower = word.map Char.toLower) : capitals word = letters := by
  induction letters generalizing word with
  | nil =>
    obtain rfl := List.map_eq_nil_iff.1 h.symm
    rfl
  | cons d letters ih =>
    obtain ⟨c, word, rfl, hc, hword⟩ := List.map_eq_cons_iff.1 h.symm
    obtain ⟨hd, hletters⟩ := List.forall_mem_cons.1 hletters
    have ih := ih hletters hword.symm
    rw [capitals] at ih
    rw [capitals, List.flatMap_cons, capital_of_toLower hd hc.symm, ih]
    rfl

/-- A word in letters of any case is the keyword that it spells in capitals, if it spells one. -/
theorem ofWord?_of_sameName {spelling : String} {word : List Char}
    (hspelling : ∀ d ∈ spelling.toList, d ∈ "ABCDEFGHIJKLMNOPQRSTUVWXYZ".toList)
    (h : sameName spelling (String.ofList word) = true) :
    Keyword.ofWord? word = Keyword.ofWord? spelling.toList := by
  rw [sameName, String.toList_ofList, beq_iff_eq] at h
  rw [Keyword.ofWord?, Keyword.ofWord?, capitals_of_map_toLower hspelling h,
    capitals_of_map_toLower hspelling rfl]

/-- The words that start a clause end the type in front of them. -/
theorem endsType_of_wordLexeme {spelling : String} {l : Lexeme}
    (hspelling : spelling ∈ ["NOT", "NULL", "DEFAULT", "CONSTRAINT", "CHECK", "PRIMARY", "UNIQUE",
      "REFERENCES", "COLLATE", "GENERATED"])
    (h : WordLexeme spelling l) : endsType l.token = true := by
  have hall : ∀ spelling ∈ ["NOT", "NULL", "DEFAULT", "CONSTRAINT", "CHECK", "PRIMARY", "UNIQUE",
      "REFERENCES", "COLLATE", "GENERATED"],
      (spelling.toList.all fun d => d ∈ "ABCDEFGHIJKLMNOPQRSTUVWXYZ".toList) = true ∧
      ((Keyword.ofWord? spelling.toList).any (fun k => endsType (.keyword k)) = true ∨
        Keyword.ofWord? spelling.toList = none ∧ spelling ∈ clauseNames) := by decide +kernel
  cases h with
  | @word gap word hword hsame =>
    obtain ⟨hcapitals, hends⟩ := hall spelling hspelling
    have hkeyword := ofWord?_of_sameName (List.all_iff_forall_prop.1 hcapitals) hsame
    -- The word is a keyword, or one of the names that are looked for by their letters.
    rcases hends with hends | ⟨hnone, hclause⟩
    · obtain ⟨k, hk, hends⟩ := (Option.any_eq_true ..).1 hends
      simp only [Lexeme.ofWord, Token.ofWord, hkeyword, hk, hends]
    · simp only [Lexeme.ofWord, Token.ofWord, hkeyword, hnone, endsType, List.any_eq_true]
      exact ⟨spelling, hclause, hsame⟩

theorem word?_of_ofWord (gap word : List Char) :
    (Lexeme.ofWord gap word).word? = some (String.ofList word) := by
  rcases ofWord_cases word with ⟨k, hk⟩ | hident
  · simp only [Lexeme.word?, Lexeme.ofWord, hk]
  · simp only [Lexeme.word?, Lexeme.ofWord, hident]

theorem NameLexeme.word? {l : Lexeme} {name : String} (h : NameLexeme l name) :
    l.word? = some name := by
  cases h with
  | word => exact word?_of_ofWord _ _
  | @quoted gap content opening close hquotes =>
    have hall : ∀ q ∈ [('"', '"'), ('\x60', '\x60'), ('[', ']')], q.1 ≠ '\'' := by decide
    simp only [Lexeme.word?, Lexeme.ofQuotation, quotationToken, if_neg (hall _ hquotes)]

/-! ## Balance -/

theorem Balanced.cons_of_word? {inside : Bool} {l : Lexeme} {name : String} {ts : List Token}
    (hword : l.word? = some name) (h : Balanced inside ts) : Balanced inside (l.token :: ts) := by
  unfold Lexeme.word? at hword
  split at hword
  next htoken => rw [htoken]; exact .plain nofun nofun nofun nofun h
  next htoken => rw [htoken]; exact .plain nofun nofun nofun nofun h
  next => cases hword

theorem mem_of_separated {parts : List (List Lexeme)} {ls : List Lexeme} (h : Separated parts ls)
    {l : Lexeme} (hl : l ∈ ls) : l.token = .symbol .comma ∨ ∃ part ∈ parts, l ∈ part := by
  induction h with
  | none => cases hl
  | one => exact .inr ⟨_, List.mem_singleton_self _, hl⟩
  | @more part next ls parts comma hcomma _ ih =>
    rw [List.mem_append, List.mem_cons] at hl
    rcases hl with hl | rfl | hl
    · exact .inr ⟨part, List.mem_cons_self .., hl⟩
    · exact .inl hcomma
    · refine (ih hl).imp_right ?_
      rintro ⟨part', hpart', hl⟩
      exact ⟨part', List.mem_cons_of_mem part hpart', hl⟩

theorem token_of_mem_numbers {numbers : List (List Lexeme)} {inner : List Lexeme}
    (hnumbers : ∀ part ∈ numbers, ∃ l ds, part = [l] ∧ l.token = .num ds)
    (hinner : Separated numbers inner) {l : Lexeme} (hl : l ∈ inner) :
    l.token = .symbol .comma ∨ ∃ ds, l.token = .num ds := by
  refine (mem_of_separated hinner hl).imp_right ?_
  rintro ⟨part, hpart, hl⟩
  obtain ⟨number, ds, rfl, hds⟩ := hnumbers part hpart
  exact ⟨ds, List.mem_singleton.1 hl ▸ hds⟩

theorem TypePart.balanced {part : List Lexeme} (h : TypePart part) :
    Balanced false (part.map Lexeme.token) := by
  cases h with
  | @word gap word => exact .cons_of_word? (word?_of_ofWord gap word) .nil
  | @numbers opening close numbers inner hopening hnumbers hinner hclose =>
    have hall : Balanced true (inner.map Lexeme.token) := by
      apply Balanced.of_forall
      intro t ht
      obtain ⟨l, hl, rfl⟩ := List.mem_map.1 ht
      rcases token_of_mem_numbers hnumbers hinner hl with hcomma | ⟨ds, hds⟩
      · rw [hcomma]
        exact ⟨nofun, nofun, nofun⟩
      · rw [hds]
        exact ⟨nofun, nofun, nofun⟩
    rw [List.map_cons, List.map_append, List.map_singleton, hopening, hclose]
    exact .group hall .nil

theorem balanced_flatten {parts : List (List Lexeme)} (h : ∀ part ∈ parts, TypePart part) :
    Balanced false (parts.flatten.map Lexeme.token) := by
  induction parts with
  | nil => exact .nil
  | cons part parts ih =>
    obtain ⟨hpart, h⟩ := List.forall_mem_cons.1 h
    rw [List.flatten_cons, List.map_append]
    exact hpart.balanced.append (ih h)

theorem WordLexeme.word? {spelling : String} {l : Lexeme} (h : WordLexeme spelling l) :
    ∃ name, l.word? = some name ∧ sameName spelling name = true := by
  cases h with
  | word hword hsame => exact ⟨_, word?_of_ofWord _ _, hsame⟩

theorem ClauseLexemes.balanced {clause : List Lexeme} (h : ClauseLexemes clause) :
    Balanced false (clause.map Lexeme.token) := by
  cases h with
  | none => exact .nil
  | clause _ hword hrest =>
    obtain ⟨name, hname, _⟩ := hword.word?
    exact .cons_of_word? hname hrest

theorem ItemLexemes.balanced {item : List Lexeme} {column : Option Column}
    (h : ItemLexemes item column) : Balanced false (item.map Lexeme.token) := by
  cases h with
  | column hname _ htype hclause =>
    refine .cons_of_word? hname.word? ?_
    rw [List.map_append]
    exact (balanced_flatten htype).append hclause.balanced
  | constraint _ hword hrest =>
    obtain ⟨name, hname, _⟩ := hword.word?
    exact .cons_of_word? hname hrest

/-! ## How items are read -/

theorem TypePart.not_endsType {part : List Lexeme} (h : TypePart part) {l : Lexeme}
    (hl : l ∈ part) : endsType l.token = false := by
  cases h with
  | @word gap word _ hkeyword hname =>
    obtain rfl := List.mem_singleton.1 hl
    rw [Bool.eq_false_iff]
    intro hends
    rcases ofWord_cases word with ⟨k, hk⟩ | hident
    · have hall (k : Keyword) (h : endsType (.keyword k) = true) :
          k ∈ [Keyword.NOT, .CONSTRAINT, .CHECK, .PRIMARY, .UNIQUE] := by
        revert h
        cases k <;> decide
      rw [Lexeme.ofWord, hk] at hends
      exact hkeyword k (hall k hends) hk
    · have hall : ∀ clause ∈ clauseNames,
          clause ∈ ["NULL", "DEFAULT", "REFERENCES", "COLLATE", "GENERATED"] := by decide
      rw [Lexeme.ofWord, hident] at hends
      obtain ⟨clause, hclause, hsame⟩ := List.any_eq_true.1 hends
      rw [hname clause (hall clause hclause)] at hsame
      exact Bool.noConfusion hsame
  | @numbers opening close numbers inner hopening hnumbers hinner hclose =>
    rw [List.mem_cons, List.mem_append, List.mem_singleton] at hl
    rcases hl with rfl | hl | rfl
    · rw [hopening]; rfl
    · rcases token_of_mem_numbers hnumbers hinner hl with hcomma | ⟨ds, hds⟩
      · rw [hcomma]; rfl
      · rw [hds]; rfl
    · rw [hclose]; rfl

/-- The type of a column is what stands between its name and its clause. -/
theorem typeLexemes_append {type : List (List Lexeme)} {clause : List Lexeme}
    (htype : ∀ part ∈ type, TypePart part) (hclause : ClauseLexemes clause) :
    typeLexemes (type.flatten ++ clause) = type.flatten := by
  have hall : ∀ l ∈ type.flatten, (!endsType l.token) = true := by
    intro l hl
    obtain ⟨part, hpart, hl⟩ := List.mem_flatten.1 hl
    rw [(htype part hpart).not_endsType hl]
    rfl
  have hstop : typeLexemes clause = [] := by
    cases hclause with
    | none => rfl
    | clause hspelling hword _ =>
      have hends := endsType_of_wordLexeme hspelling hword
      exact List.takeWhile_cons_of_neg (by rw [hends]; exact Bool.false_ne_true)
  rw [typeLexemes] at hstop ⊢
  rw [List.takeWhile_append_of_pos hall, hstop, List.append_nil]

theorem ofFragment?_of_itemLexemes {item : List Lexeme} {column : Option Column}
    (h : ItemLexemes item column) : Column.ofFragment? item = column := by
  cases h with
  | @column l name type clause hname hplain htype hclause =>
    have hnone : (constraintWords.any fun word => sameName word name) = false :=
      List.any_eq_false.2 fun word hword => by
        rw [hplain word hword]
        exact Bool.false_ne_true
    simp only [Column.ofFragment?, hname.word?, hnone, typeLexemes_append htype hclause, bind,
      Option.bind, Bool.false_eq_true, ↓reduceIte]
  | constraint hspelling hword _ =>
    obtain ⟨name, hname, hsame⟩ := hword.word?
    have hany : (constraintWords.any fun word => sameName word name) = true :=
      List.any_eq_true.2 ⟨_, hspelling, hsame⟩
    simp only [Column.ofFragment?, hname, hany, bind, Option.bind, ↓reduceIte]

theorem filterMap_ofFragment? {items : List (List Lexeme × Option Column)}
    (hitems : ∀ item ∈ items, ItemLexemes item.1 item.2) :
    (items.map Prod.fst).filterMap Column.ofFragment? = items.filterMap Prod.snd := by
  induction items with
  | nil => rfl
  | cons item items ih =>
    obtain ⟨hitem, hitems⟩ := List.forall_mem_cons.1 hitems
    rw [List.map_cons, List.filterMap_cons, List.filterMap_cons, ofFragment?_of_itemLexemes hitem,
      ih hitems]

theorem columnsOf_items {items : List (List Lexeme × Option Column)} {body : List Lexeme}
    {close : Lexeme} (hitems : ∀ item ∈ items, ItemLexemes item.1 item.2)
    (hbody : Separated (items.map Prod.fst) body) (hclose : close.token = .symbol .closeParen)
    (rest : List Lexeme) :
    columnsOf (body ++ close :: rest) = items.filterMap Prod.snd := by
  rw [columnsOf, ← filterMap_ofFragment? hitems]
  have hbalanced : ∀ part ∈ items.map Prod.fst, Balanced false (part.map Lexeme.token) := by
    intro part hpart
    obtain ⟨item, hitem, rfl⟩ := List.mem_map.1 hpart
    exact (hitems item hitem).balanced
  generalize items.map Prod.fst = parts at hbody hbalanced
  cases parts with
  | nil =>
    cases hbody
    rw [List.nil_append, Group.read, Group.readAt_zero_closeParen hclose]
    rfl
  | cons first others =>
    rw [Group.read_of_separated hbody hbalanced hclose rest]
    rfl

/-! ## How definitions are read -/

theorem NameLexeme.token_eq {l : Lexeme} {name : String} (h : NameLexeme l name)
    (hplain : ∀ k, l.token ≠ .keyword k) : l.token = .ident name := by
  have hword := h.word?
  unfold Lexeme.word? at hword
  split at hword
  next htoken => rw [htoken, Option.some.inj hword]
  next htoken => exact absurd htoken (hplain _)
  next => cases hword

theorem atFront?_of_definitionLexemes {ls : List Lexeme} {d : Definition}
    (h : DefinitionLexemes ls d) (rest : List Lexeme) :
    Definition.atFront? (ls ++ rest) = some d := by
  cases h with
  | @create guarded opening body name paren close table items hopening hname hplain hparen hitems
      hbody hclose =>
    have hhead : DefinitionHead table ((opening ++ [name]).map Lexeme.token) := by
      rw [List.map_append, hopening, List.map_singleton, hname.token_eq hplain, List.append_assoc]
      cases guarded with
      | false => exact .named (.inl rfl) .plain
      | true => exact .named (.inr rfl) .plain
    have hopens : OpensDefinition (opening ++ name :: paren :: (body ++ [close]) ++ rest) table
        (body ++ close :: rest) := ⟨opening ++ [name], paren, by simp, hhead, hparen⟩
    rw [atFront?_of_opensDefinition hopens, columnsOf_items hitems hbody hclose]

/-- A definition is read as its table and its columns, whatever gaps stand between its lexemes and
whatever follows it. -/
theorem reads_definition {ls rest : List Lexeme} {d : Definition} {text : List Char}
    (h : DefinitionLexemes ls d) (hwritten : Written (ls ++ rest) text) :
    Definition.ofDraft? (String.ofList text) = some d := by
  have hfront := atFront?_of_definitionLexemes h rest
  have hread : lexemes (String.ofList text) = ls ++ rest := by
    rw [lexemes, String.toList_ofList]
    exact textLexemes_of_written hwritten
  rw [Definition.ofDraft?, hread, Definition.ofLexemes?]
  cases hls : ls ++ rest with
  | nil =>
    rw [hls] at hfront
    cases hfront
  | cons l ls =>
    rw [hls] at hfront
    rw [firstFrom, hfront, Option.some_or]

/-- Quoted names, numbers and names between further parentheses, and a constraint among columns. -/
def petsItems : List (List Lexeme × Option Column) :=
  [(.ofQuotation [] '"' '"' "a, b".toList ::
      ([[.ofWord [' '] "Dec".toList], .ofMark [] .openParen ::
        ([.ofNumber [] ['3'], .ofMark [] .comma, .ofNumber [' '] ['1']] ++
          [.ofMark [] .closeParen])].flatten ++
        [.ofWord [' '] "not".toList, .ofWord [' '] "null".toList]),
      some ⟨"a, b", .number⟩),
    ([.ofWord [' '] "Key".toList, .ofMark [' '] .openParen, .ofWord [] "id".toList,
      .ofMark [] .comma, .ofWord [' '] "x".toList, .ofMark [] .closeParen], none),
    (.ofQuotation [' '] '\x60' '\x60' "note".toList :: ([].flatten ++ []), some ⟨"note", .text⟩)]

theorem itemLexemes_petsItems : ∀ item ∈ petsItems, ItemLexemes item.1 item.2 := by
  have hnumber (gap number : List Char) :
      ∃ l ds, [Lexeme.ofNumber gap number] = [l] ∧ l.token = .num ds := ⟨_, _, rfl, rfl⟩
  have htype : ∀ part ∈ [[.ofWord [' '] "Dec".toList], .ofMark [] .openParen ::
      ([.ofNumber [] ['3'], .ofMark [] .comma, .ofNumber [' '] ['1']] ++
        [.ofMark [] .closeParen])], TypePart part := by
    refine List.forall_mem_cons.2 ⟨?_, List.forall_mem_singleton.2 ?_⟩
    · exact .word (by decide +kernel) (by decide +kernel) (by decide +kernel)
    · refine @TypePart.numbers _ _ [[.ofNumber [] ['3']], [.ofNumber [' '] ['1']]] _ rfl ?_ ?_ rfl
      · exact List.forall_mem_cons.2 ⟨hnumber _ _, List.forall_mem_singleton.2 (hnumber _ _)⟩
      · exact .more rfl .one
  have hclause : ClauseLexemes [.ofWord [' '] "not".toList, .ofWord [' '] "null".toList] :=
    .clause (List.mem_cons_self ..) (.word (by decide +kernel) (by decide +kernel))
      (.cons_of_word? (word?_of_ofWord _ _) .nil)
  have hnames : Balanced false (.symbol .openParen ::
      ([.ofWord "id".toList, .symbol .comma, .ofWord "x".toList] ++ [.symbol .closeParen])) :=
    .group (.of_forall (by decide +kernel)) .nil
  refine List.forall_mem_cons.2 ⟨?_, List.forall_mem_cons.2 ⟨?_, List.forall_mem_singleton.2 ?_⟩⟩
  · exact .column (.quoted (by decide)) (by decide +kernel) htype hclause
  · have hkey : WordLexeme "KEY" (.ofWord [' '] "Key".toList) :=
      .word (by decide +kernel) (by decide +kernel)
    exact .constraint (by decide) hkey hnames
  · exact .column (.quoted (by decide)) (by decide +kernel) (by nofun) .none

def petsLexemes : List Lexeme :=
  [.ofWord [] "create".toList, .ofWord [' '] "table".toList] ++
    .ofQuotation [' '] '[' ']' "my pets".toList :: .ofMark [' '] .openParen ::
      ((petsItems.map Prod.fst)[0] ++ .ofMark [] .comma :: ((petsItems.map Prod.fst)[1] ++
        .ofMark [] .comma :: (petsItems.map Prod.fst)[2]) ++ [.ofMark [] .closeParen])

theorem reads_definition_pets :
    ∃ text, Written (petsLexemes ++ [⟨[], [], .eof⟩]) text ∧
      DefinitionLexemes petsLexemes ⟨"my pets", [⟨"a, b", .number⟩, ⟨"note", .text⟩]⟩ ∧
      String.ofList text =
        "create table [my pets] (\"a, b\" Dec(3, 1) not null, Key (id, x), \x60note\x60)" ∧
      Definition.ofDraft?
        "create table [my pets] (\"a, b\" Dec(3, 1) not null, Key (id, x), \x60note\x60)" =
          some ⟨"my pets", [⟨"a, b", .number⟩, ⟨"note", .text⟩]⟩ := by
  have hspace : GapText [' '] := .blank (by decide) .nil
  have hnumber : ∀ d ∈ ['1', '3'], IsNumber [d] := by
    intro d hd
    have hdigit : ∀ d ∈ ['1', '3'], d.isDigit = true := List.all_iff_forall_prop.1 (by decide)
    exact ⟨[], [d], [], List.mem_cons_self .., List.cons_ne_nil d [],
      List.forall_mem_singleton.2 (hdigit d hd), .inl rfl, rfl⟩
  have hopening : [Lexeme.ofWord [] "create".toList, .ofWord [' '] "table".toList].map
      Lexeme.token = [.keyword .CREATE, .keyword .TABLE] := by decide +kernel
  have hdef : DefinitionLexemes petsLexemes ⟨"my pets", [⟨"a, b", .number⟩, ⟨"note", .text⟩]⟩ :=
    @DefinitionLexemes.create false _ _ _ _ _ _ petsItems hopening (.quoted (by decide)) nofun rfl
      itemLexemes_petsItems (.more rfl (.more rfl .one)) rfl
  have hnext {p : Char → Prop} [DecidablePred p] {rest : List Char}
      (h : rest.head?.all (fun c => p c) = true) : ∀ c ∈ rest.head?, p c :=
    fun c hc => of_decide_eq_true ((Option.all_eq_true ..).1 h c hc)
  have hwritten : Written (petsLexemes ++ [⟨[], [], .eof⟩]) _ :=
    .word .nil (by decide +kernel) (hnext (by decide +kernel)) <|
    .word hspace (by decide +kernel) (hnext (by decide +kernel)) <|
    .quotation hspace rfl (by decide +kernel) <| .mark hspace <|
    .quotation .nil rfl (by decide +kernel) <|
    .word hspace (by decide +kernel) (hnext (by decide +kernel)) <|
    .mark .nil <| .number .nil (hnumber '3' (by decide)) (hnext (by decide +kernel)) <|
    .mark .nil <| .number hspace (hnumber '1' (by decide)) (hnext (by decide +kernel)) <|
    .mark .nil <| .word hspace (by decide +kernel) (hnext (by decide +kernel)) <|
    .word hspace (by decide +kernel) (hnext (by decide +kernel)) <|
    .mark .nil <| .word hspace (by decide +kernel) (hnext (by decide +kernel)) <|
    .mark hspace <| .word .nil (by decide +kernel) (hnext (by decide +kernel)) <|
    .mark .nil <| .word hspace (by decide +kernel) (hnext (by decide +kernel)) <|
    .mark .nil <| .mark .nil <| .quotation hspace rfl (by decide +kernel) <| .mark .nil <|
    .eof .nil
  have hread := reads_definition hdef hwritten
  exact ⟨_, hwritten, hdef, rfl, hread⟩

end SqlDraft
