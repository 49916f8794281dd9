import SqlDraft.Proofs.Lexemes

/-!
# Where lexemes stand

The places of the lexemes of a draft are counted in bytes.  `wellPlaced_lexemes` says that they are
in order and do not overlap, and that the draft can be cut from the start of any lexeme to the end
of any later one: the text that is cut out is the source text of the lexemes from the one to the
other.
-/

namespace SqlDraft

/-! ## Cutting a text -/

/-- A text in two parts, of which the first has so many bytes.  There are none if the bytes end
inside a character or if there are not so many. -/
def splitBytes? : Nat → List Char → Option (List Char × List Char)
  | 0, cs => some ([], cs)
  | _ + 1, [] => none
  | n + 1, c :: cs =>
    if c.utf8Size ≤ n + 1 then
      (splitBytes? (n + 1 - c.utf8Size) cs).map fun (front, rest) => (c :: front, rest)
    else none

/-- The text that a span cuts out of another one, unless the span ends before it starts, or starts
or ends inside a character or outside the text. -/
def Span.slice? (span : Span) (text : List Char) : Option (List Char) :=
  if span.start ≤ span.stop then do
    let (_, rest) ← splitBytes? span.start text
    let (cut, _) ← splitBytes? (span.stop - span.start) rest
    return cut
  else none

theorem splitBytes?_append (s t : List Char) : splitBytes? (byteSize s) (s ++ t) = some (s, t) := by
  induction s with
  | nil => cases t <;> rfl
  | cons c s ih =>
    have hpos : 0 < c.utf8Size := c.utf8Size_pos
    obtain ⟨n, hn⟩ : ∃ n, c.utf8Size + byteSize s = n + 1 := ⟨_, (Nat.succ_pred (by omega)).symm⟩
    have hrest : n + 1 - c.utf8Size = byteSize s := by omega
    rw [byteSize_cons, hn, List.cons_append, splitBytes?, if_pos (by omega), hrest, ih]
    rfl

theorem slice?_append (before text after : List Char) :
    Span.slice? ⟨byteSize before, byteSize (before ++ text)⟩ (before ++ (text ++ after)) =
      some text := by
  have hsize : byteSize (before ++ text) - byteSize before = byteSize text := by
    rw [byteSize_append, Nat.add_sub_cancel_left]
  have hle : byteSize before ≤ byteSize (before ++ text) := by
    rw [byteSize_append]
    exact Nat.le_add_right ..
  rw [Span.slice?, if_pos hle]
  simp only [splitBytes?_append, hsize, Option.bind_eq_bind, Option.bind_some, pure]

/-! ## The span of a lexeme -/

namespace Lexeme

theorem fullText_append (ls ms : List Lexeme) : fullText (ls ++ ms) = fullText ls ++ fullText ms :=
  List.flatMap_append

theorem fullText_cons (l : Lexeme) (ls : List Lexeme) :
    fullText (l :: ls) = l.lead ++ source (l :: ls) := by
  rw [source, ← List.append_assoc]
  rfl

theorem source_append_cons (m l : Lexeme) (p q : List Lexeme) :
    source (m :: p ++ l :: q) = source (m :: p) ++ (l.lead ++ source (l :: q)) := by
  simp [source]

end Lexeme

/-- A lexeme starts after its lead and ends where the text of all lexemes up to it does. -/
theorem getElem?_spansFrom (offset : Nat) (ls : List Lexeme) (i : Nat) :
    (spansFrom offset ls)[i]? = ls[i]?.map fun l =>
      ⟨offset + byteSize (Lexeme.fullText (ls.take i) ++ l.lead),
        offset + byteSize (Lexeme.fullText (ls.take (i + 1)))⟩ := by
  induction ls generalizing offset i with
  | nil => rfl
  | cons l ls ih =>
    cases i with
    | zero => simp [spansFrom, Lexeme.fullText, Nat.add_assoc]
    | succ i =>
      rw [spansFrom, List.getElem?_cons_succ, List.getElem?_cons_succ, ih]
      simp [Lexeme.fullText, Nat.add_assoc]

theorem getElem?_spans {ls : List Lexeme} {i : Nat} {p : Span} (h : (spans ls)[i]? = some p) :
    ∃ l, ls[i]? = some l ∧ p.start = byteSize (Lexeme.fullText (ls.take i) ++ l.lead) ∧
      p.stop = byteSize (Lexeme.fullText (ls.take (i + 1))) := by
  rw [spans, getElem?_spansFrom] at h
  obtain ⟨l, hl, rfl⟩ := Option.map_eq_some_iff.1 h
  exact ⟨l, hl, Nat.zero_add _, Nat.zero_add _⟩

/-- From the start of a lexeme to the end of a later one stands their source text. -/
theorem slice?_spans {ls : List Lexeme} {i j : Nat} {p q : Span} (hij : i ≤ j)
    (hp : (spans ls)[i]? = some p) (hq : (spans ls)[j]? = some q) :
    Span.slice? ⟨p.start, q.stop⟩ (Lexeme.fullText ls) =
      some (Lexeme.source ((ls.drop i).take (j + 1 - i))) := by
  obtain ⟨l, hl, hstart, -⟩ := getElem?_spans hp
  obtain ⟨_, -, -, hstop⟩ := getElem?_spans hq
  obtain ⟨hi, rfl⟩ := List.getElem?_eq_some_iff.1 hl
  -- The lexemes fall into those before `i`, those from `i` to `j`, and those after `j`.
  have hpart : (ls.drop i).take (j + 1 - i) = ls[i] :: (ls.drop (i + 1)).take (j - i) := by
    rw [List.drop_eq_getElem_cons hi, show j + 1 - i = j - i + 1 by omega, List.take_succ_cons]
  have htake : ls.take (j + 1) = ls.take i ++ (ls.drop i).take (j + 1 - i) := by
    rw [← List.take_add, show i + (j + 1 - i) = j + 1 by omega]
  have hfront : Lexeme.fullText (ls.take (j + 1)) = Lexeme.fullText (ls.take i) ++ ls[i].lead ++
      Lexeme.source ((ls.drop i).take (j + 1 - i)) := by
    rw [htake, Lexeme.fullText_append, hpart, Lexeme.fullText_cons, List.append_assoc]
  have hwhole : Lexeme.fullText ls = Lexeme.fullText (ls.take i) ++ ls[i].lead ++
      (Lexeme.source ((ls.drop i).take (j + 1 - i)) ++ Lexeme.fullText (ls.drop (j + 1))) := by
    rw [← List.append_assoc, ← hfront, ← Lexeme.fullText_append, List.take_append_drop]
  rw [hstart, hstop, hfront, hwhole]
  exact slice?_append _ _ _

theorem le_start_of_lt {ls : List Lexeme} {i j : Nat} {p q : Span} (hij : i < j)
    (hp : (spans ls)[i]? = some p) (hq : (spans ls)[j]? = some q) : p.stop ≤ q.start := by
  obtain ⟨_, -, -, hstop⟩ := getElem?_spans hp
  obtain ⟨_, -, hstart, -⟩ := getElem?_spans hq
  have htake : ls.take j = ls.take (i + 1) ++ (ls.drop (i + 1)).take (j - (i + 1)) := by
    rw [← List.take_add, show i + 1 + (j - (i + 1)) = j by omega]
  rw [hstop, hstart, htake, Lexeme.fullText_append, byteSize_append, byteSize_append]
  omega

theorem start_lt_stop {ls : List Lexeme} {i : Nat} {l : Lexeme} {p : Span}
    (hl : ls[i]? = some l) (hp : (spans ls)[i]? = some p) (htext : l.text ≠ []) :
    p.start < p.stop := by
  obtain ⟨m, hm, hstart, hstop⟩ := getElem?_spans hp
  obtain rfl : l = m := Option.some.inj (hl.symm.trans hm)
  have hsize : 0 < byteSize l.text :=
    Nat.lt_of_lt_of_le (List.length_pos_iff.2 htext) (length_le_byteSize l.text)
  rw [hstart, hstop, List.take_add_one, hl, Option.toList_some, Lexeme.fullText_append,
    Lexeme.fullText_cons, ← List.append_assoc, byteSize_append (_ ++ _)]
  simpa [Lexeme.source] using hsize

/-! ## The lexemes of a draft -/

/-- Whether lexemes have the given places in a draft. -/
structure WellPlaced (draft : List Char) (ls : List Lexeme) (places : List Span) : Prop where
  /-- The end is the last lexeme and no other one, and stands at the end. -/
  ended : ∃ front last, ls = front ++ [last] ∧ last.token = .eof ∧
    (∀ l ∈ front, l.token ≠ .eof) ∧ places.getLast? = some ⟨byteSize draft, byteSize draft⟩
  placed : places.length = ls.length
  filled : ∀ (i : Nat) (l : Lexeme) (p : Span), ls[i]? = some l → places[i]? = some p →
    l.token ≠ .eof → p.start < p.stop
  ordered : places.Pairwise fun p q => p.stop ≤ q.start
  /-- The draft can be cut from the start of any lexeme to the end of a later one. -/
  cut : ∀ (i j : Nat) (p q : Span), i ≤ j → places[i]? = some p → places[j]? = some q →
    Span.slice? ⟨p.start, q.stop⟩ draft = some (Lexeme.source ((ls.drop i).take (j + 1 - i)))
  named : ∀ l ∈ ls, ∀ name, l.token = .ident name → l.word? = some name
  spelled : ∀ (i : Nat) (l : Lexeme) (p : Span) (k : Keyword), ls[i]? = some l →
    places[i]? = some p → l.token = .keyword k →
    ∃ word, l.word? = some word ∧ p.slice? draft = some word.toList

theorem getLast?_spans (draft : String) :
    (spans (lexemes draft)).getLast? = some ⟨byteSize draft.toList, byteSize draft.toList⟩ := by
  obtain ⟨front, trail, hlexemes, _⟩ := exists_lexemes_concat draft
  have htext : Lexeme.fullText front ++ trail = draft.toList := by
    rw [← fullText_lexemes draft, hlexemes, Lexeme.fullText_append, Lexeme.fullText_cons]
    simp [Lexeme.source]
  have hlength : (front ++ [⟨trail, [], .eof⟩] : List Lexeme).length - 1 = front.length := by
    rw [List.length_append, List.length_singleton, Nat.add_sub_cancel]
  have hall : (lexemes draft).take (front.length + 1) = lexemes draft :=
    List.take_of_length_le (by simp [hlexemes])
  rw [List.getLast?_eq_getElem?, spans, spansFrom_length, getElem?_spansFrom]
  simp only [hlexemes, hlength]
  rw [← hlexemes, hall, fullText_lexemes, hlexemes, List.getElem?_concat_length, List.take_left,
    Option.map_some, htext, Nat.zero_add]

/-- The lexemes of a draft have their places in it: no cut from one lexeme to another can fail, and
what is cut out is their source text. -/
theorem wellPlaced_lexemes (draft : String) :
    WellPlaced draft.toList (lexemes draft) (spans (lexemes draft)) := by
  have hcut {i j : Nat} {p q : Span} (hij : i ≤ j) (hp : (spans (lexemes draft))[i]? = some p)
      (hq : (spans (lexemes draft))[j]? = some q) :
      Span.slice? ⟨p.start, q.stop⟩ draft.toList =
        some (Lexeme.source (((lexemes draft).drop i).take (j + 1 - i))) := by
    rw [← fullText_lexemes draft]
    exact slice?_spans hij hp hq
  refine ⟨?ended, ?placed, ?filled, ?ordered, fun i j p q => hcut, ?named, ?spelled⟩
  case ended =>
    obtain ⟨front, trail, hlexemes, hfront⟩ := exists_lexemes_concat draft
    exact ⟨front, _, hlexemes, rfl, hfront, getLast?_spans draft⟩
  case placed => exact spansFrom_length 0 (lexemes draft)
  case filled =>
    intro i l p hl hp hend
    exact start_lt_stop hl hp (text_ne_nil_of_mem_lexemes (List.mem_of_getElem? hl) hend)
  case ordered =>
    rw [List.pairwise_iff_getElem]
    intro i j hi hj hij
    exact le_start_of_lt hij (List.getElem?_eq_getElem hi) (List.getElem?_eq_getElem hj)
  case named =>
    intro l _ name hname
    rw [Lexeme.word?, hname]
  case spelled =>
    intro i l p k hl hp hk
    refine ⟨String.ofList l.text, by rw [Lexeme.word?, hk], ?_⟩
    obtain ⟨hi, rfl⟩ := List.getElem?_eq_some_iff.1 hl
    have hone : ((lexemes draft).drop i).take (i + 1 - i) = [(lexemes draft)[i]] := by
      rw [Nat.add_sub_cancel_left, List.drop_eq_getElem_cons hi, List.take_succ_cons,
        List.take_zero]
    have hself := hcut (Nat.le_refl i) hp hp
    rw [hone] at hself
    rw [hself, String.toList_ofList, Lexeme.source, List.flatMap_nil, List.append_nil]

/-- Places are counted in bytes, of which a letter may have several. -/
example : spans (lexemes "é 'x'") = [⟨0, 2⟩, ⟨3, 6⟩, ⟨6, 6⟩] := by decide +kernel

end SqlDraft
