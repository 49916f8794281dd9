import SqlDraft.Json.Value
import SqlDraft.Proofs.JsonNumbers
import SqlDraft.Proofs.JsonStrings

/-!
# Lists, objects and whole values

White space may stand around every part of a JSON text.  `elements_append` and `entries_append` say
that lists and objects are read part by part, and `skipValue_append` that any well-formed value is
passed over, however deep it is and whatever its numbers and strings are.
-/

namespace SqlDraft.Json

/-! ## White space -/

def Spaces (ws : List Char) : Prop :=
  ∀ c ∈ ws, c ∈ [' ', '\n', '\t', '\r']

instance (ws : List Char) : Decidable (Spaces ws) :=
  List.decidableBAll _ ws

theorem Spaces.nil : Spaces [] :=
  fun _ h => absurd h List.not_mem_nil

theorem skipSpace_append {ws : List Char} (hws : Spaces ws) (rest : List Char) :
    skipSpace (ws ++ rest) = skipSpace rest := by
  have hall : ∀ c ∈ [' ', '\n', '\t', '\r'], isSpace c = true :=
    List.all_iff_forall_prop.1 (by decide)
  exact List.dropWhile_append_of_pos fun c hc => hall c (hws c hc)

theorem skipSpace_cons {c : Char} (h : isSpace c = false) (cs : List Char) :
    skipSpace (c :: cs) = c :: cs :=
  List.dropWhile_cons_of_neg (by rw [h]; exact Bool.false_ne_true)

theorem colon_append {ws : List Char} (hws : Spaces ws) (rest : List Char) :
    colon (ws ++ ':' :: rest) = .ok rest := by
  rw [colon, skipSpace_append hws]
  rfl

theorem Delimited.cons {c : Char} (h : c ∈ [' ', '\n', '\t', '\r', ',', ']', '\x7d'])
    (cs : List Char) : Delimited (c :: cs) := by
  intro d ds heq
  rw [← (List.cons.inj heq).1]
  exact h

theorem Delimited.append {ws rest : List Char} (hws : Spaces ws) (h : Delimited rest) :
    Delimited (ws ++ rest) := by
  cases ws with
  | nil => exact h
  | cons c cs =>
    have hall : ∀ c ∈ [' ', '\n', '\t', '\r'], c ∈ [' ', '\n', '\t', '\r', ',', ']', '\x7d'] :=
      List.all_iff_forall_prop.1 (by decide)
    exact .cons (hall c (hws c (List.mem_cons_self ..))) _

/-! ## Parts of lists and objects -/

/-- A text with white space around it. -/
structure Padded where
  before : List Char
  inner : List Char
  after : List Char
  before_spaces : Spaces before
  after_spaces : Spaces after

def Padded.text (p : Padded) : List Char :=
  p.before ++ (p.inner ++ p.after)

/-- Texts between brackets, with commas between them. -/
def enclosed (opening close : Char) (ws : List Char) (parts : List Padded) : List Char :=
  opening :: (ws ++ (commaSeparated (parts.map Padded.text) ++ [close]))

def bracketed (ws : List Char) (items : List Padded) : List Char :=
  enclosed '[' ']' ws items

def braced (ws : List Char) (entries : List Padded) : List Char :=
  enclosed '\x7b' '\x7d' ws entries

theorem enclosed_append (opening close : Char) (ws : List Char) (parts : List Padded)
    (rest : List Char) :
    enclosed opening close ws parts ++ rest =
      opening :: (ws ++ (commaSeparated (parts.map Padded.text) ++ close :: rest)) := by
  simp only [enclosed, List.cons_append, List.append_assoc, List.nil_append]

theorem commaSeparated_cons (t : List Char) (ts : List (List Char)) :
    commaSeparated (t :: ts) = t ++ ts.flatMap fun later => ',' :: later := by
  induction ts generalizing t with
  | nil => rw [commaSeparated, List.flatMap_nil, List.append_nil]
  | cons t' ts ih =>
    change t ++ ',' :: commaSeparated (t' :: ts) = _
    rw [ih, List.flatMap_cons, List.cons_append]

theorem length_le_commaSeparated {t : List Char} {ts : List (List Char)} (h : t ∈ ts) :
    t.length ≤ (commaSeparated ts).length := by
  obtain ⟨first, later, rfl⟩ := List.exists_cons_of_ne_nil (List.ne_nil_of_mem h)
  rw [commaSeparated_cons, List.length_append]
  rcases List.mem_cons.1 h with rfl | h
  · exact Nat.le_add_right _ _
  · obtain ⟨before, after, rfl⟩ := List.append_of_mem h
    simp only [List.flatMap_append, List.flatMap_cons, List.length_append, List.length_cons]
    omega

theorem length_lt_enclosed {p : Padded} {parts : List Padded} (h : p ∈ parts)
    (opening close : Char) (ws : List Char) :
    p.inner.length < (enclosed opening close ws parts).length := by
  have hpart := length_le_commaSeparated (List.mem_map_of_mem (f := Padded.text) h)
  simp only [Padded.text, List.length_append] at hpart
  simp only [enclosed, List.length_cons, List.length_append]
  omega

/-- What follows the first part of a list or an object: the other parts, each after a comma, and the
closing bracket. -/
def laterParts (close : Char) (parts : List Padded) (rest : List Char) : List Char :=
  (parts.map Padded.text).flatMap (fun later => ',' :: later) ++ close :: rest

theorem laterParts_cons (close : Char) (p : Padded) (parts : List Padded) (rest : List Char) :
    laterParts close (p :: parts) rest =
      ',' :: (p.before ++ (p.inner ++ (p.after ++ laterParts close parts rest))) := by
  simp only [laterParts, List.map_cons, List.flatMap_cons, Padded.text, List.cons_append,
    List.append_assoc]

theorem commaSeparated_append (close : Char) (p : Padded) (parts : List Padded)
    (rest : List Char) :
    commaSeparated ((p :: parts).map Padded.text) ++ close :: rest =
      p.before ++ (p.inner ++ (p.after ++ laterParts close parts rest)) := by
  simp only [List.map_cons, commaSeparated_cons, laterParts, Padded.text, List.append_assoc]

theorem length_laterParts (close : Char) (parts : List Padded) (rest : List Char) :
    parts.length < (laterParts close parts rest).length := by
  induction parts with
  | nil => exact Nat.succ_pos _
  | cons p parts ih =>
    rw [laterParts_cons]
    simp only [List.length_cons, List.length_append]
    omega

/-- The closing bracket, or the comma in front of the next part, sets a part off. -/
theorem delimited_laterParts (close : Char) (hclose : close ∈ [']', '\x7d']) {ws : List Char}
    (hws : Spaces ws) (parts : List Padded) (rest : List Char) :
    Delimited (ws ++ laterParts close parts rest) := by
  apply Delimited.append hws
  cases parts with
  | nil =>
    have hall : ∀ c ∈ [']', '\x7d'], c ∈ [' ', '\n', '\t', '\r', ',', ']', '\x7d'] :=
      List.all_iff_forall_prop.1 (by decide)
    exact .cons (hall close hclose) rest
  | cons p parts =>
    rw [laterParts_cons]
    exact .cons (by decide) _

/-! ## Lists -/

/-- Whether a reader takes a text as a value, after white space and wherever the text is set off
from what follows. -/
structure Reads {α : Type} (reader : Reader α) (text : List Char) (x : α) : Prop where
  start : ∃ c cs, text = c :: cs ∧ isSpace c = false ∧ c ≠ ']'
  takes : ∀ ws rest, Spaces ws → Delimited rest → reader (ws ++ (text ++ rest)) = .ok (x, rest)

theorem Reads.takes_front {α : Type} {reader : Reader α} {text : List Char} {x : α}
    (h : Reads reader text x) {rest : List Char} (hrest : Delimited rest) :
    reader (text ++ rest) = .ok (x, rest) :=
  h.takes [] rest .nil hrest

section Lists

variable {α : Type} {item : Reader α}

theorem elementsFrom_last {x : α} {first : Padded} (hfirst : Reads item first.inner x) (b : Char)
    (bound rest : List Char) :
    elementsFrom item (b :: bound) (first.inner ++ (first.after ++ ']' :: rest)) =
      .ok ([x], rest) := by
  have hdelimited : Delimited (first.after ++ ']' :: rest) :=
    .append first.after_spaces (.cons (by decide) rest)
  have hclose : skipSpace (first.after ++ ']' :: rest) = ']' :: rest :=
    skipSpace_append first.after_spaces _
  simp only [elementsFrom, hfirst.takes_front hdelimited, hclose, bind, Except.bind]
  rfl

theorem elementsFrom_next {x : α} {first : Padded} (hfirst : Reads item first.inner x)
    {ws : List Char} (hws : Spaces ws) {c : Char} (hspace : isSpace c = false) (hclose : c ≠ ']')
    (b : Char) (bound cs : List Char) :
    elementsFrom item (b :: bound) (first.inner ++ (first.after ++ ',' :: (ws ++ c :: cs))) =
      (elementsFrom item bound (c :: cs)).map fun (xs, rest) => (x :: xs, rest) := by
  have hdelimited : Delimited (first.after ++ ',' :: (ws ++ c :: cs)) :=
    .append first.after_spaces (.cons (by decide) _)
  have hcomma : skipSpace (first.after ++ ',' :: (ws ++ c :: cs)) = ',' :: (ws ++ c :: cs) :=
    skipSpace_append first.after_spaces _
  have hnext : skipSpace (ws ++ c :: cs) = c :: cs :=
    (skipSpace_append hws _).trans (skipSpace_cons hspace cs)
  simp only [elementsFrom, hfirst.takes_front hdelimited, hcomma, hnext, bind, Except.bind]
  split
  next heq => cases heq
  -- A bracket right after a comma would be a fault, but no value starts with one.
  next heq => exact absurd (List.cons.inj heq).1 hclose
  next => cases elementsFrom item bound (c :: cs) <;> rfl

theorem elementsFrom_append {x : α} {first : Padded} {later : List (α × Padded)}
    (hfirst : Reads item first.inner x) (hlater : ∀ p ∈ later, Reads item p.2.inner p.1)
    {bound : List Char} (hbound : later.length < bound.length) (rest : List Char) :
    elementsFrom item bound
        (first.inner ++ (first.after ++ laterParts ']' (later.map Prod.snd) rest)) =
      .ok (x :: later.map Prod.fst, rest) := by
  induction later generalizing x first bound with
  | nil =>
    obtain ⟨b, bound, rfl⟩ := List.exists_cons_of_length_pos hbound
    exact elementsFrom_last hfirst b bound rest
  | cons p later ih =>
    obtain ⟨b, bound, rfl⟩ := List.exists_cons_of_length_pos (Nat.zero_lt_of_lt hbound)
    obtain ⟨hp, hlater⟩ := List.forall_mem_cons.1 hlater
    obtain ⟨c, cs, hinner, hspace, hclose⟩ := hp.start
    have ih := ih hp hlater (Nat.lt_of_succ_lt_succ hbound)
    rw [hinner, List.cons_append] at ih
    rw [List.map_cons, laterParts_cons, hinner, List.cons_append,
      elementsFrom_next hfirst p.2.before_spaces hspace hclose, ih]
    rfl

theorem elements_append {items : List (α × Padded)}
    (hitems : ∀ p ∈ items, Reads item p.2.inner p.1) {ws : List Char} (hws : Spaces ws)
    (rest : List Char) :
    elements item (ws ++ (commaSeparated ((items.map Prod.snd).map Padded.text) ++ ']' :: rest)) =
      .ok (items.map Prod.fst, rest) := by
  cases items with
  | nil =>
    have hclose : skipSpace (ws ++ ']' :: rest) = ']' :: rest := skipSpace_append hws _
    simp only [elements, List.map_nil, commaSeparated, List.nil_append, hclose]
  | cons p items =>
    obtain ⟨hp, hitems⟩ := List.forall_mem_cons.1 hitems
    obtain ⟨c, cs, hinner, hspace, hclose⟩ := hp.start
    generalize hmore : p.2.after ++ laterParts ']' (items.map Prod.snd) rest = more
    -- The reader takes the rest of the text for its bound, and every element has a comma in it.
    have hbound : items.length < (p.2.inner ++ more).length := by
      have hlength := length_laterParts ']' (items.map Prod.snd) rest
      rw [← hmore, List.length_append, List.length_append]
      rw [List.length_map] at hlength
      omega
    have hread := elementsFrom_append hp hitems hbound rest
    rw [List.map_cons, commaSeparated_append, elements, skipSpace_append hws,
      skipSpace_append p.2.before_spaces, hmore]
    rw [hmore] at hread
    rw [hinner, List.cons_append] at hread ⊢
    rw [skipSpace_cons hspace]
    split
    next heq => cases heq
    next heq => exact absurd (List.cons.inj heq).1 hclose
    next => exact hread

end Lists

/-! ## Objects -/

/-- An entry of an object with white space around its parts. -/
structure Member where
  before : List Char
  key : List Char
  beforeColon : List Char
  afterColon : List Char
  value : List Char
  after : List Char
  before_spaces : Spaces before
  beforeColon_spaces : Spaces beforeColon
  afterColon_spaces : Spaces afterColon
  after_spaces : Spaces after

namespace Member

def body (m : Member) : List Char :=
  m.key ++ '"' :: (m.beforeColon ++ ':' :: (m.afterColon ++ m.value))

def padded (m : Member) : Padded :=
  ⟨m.before, '"' :: m.body, m.after, m.before_spaces, m.after_spaces⟩

theorem body_append (m : Member) (rest : List Char) :
    m.body ++ rest =
      m.key ++ '"' :: (m.beforeColon ++ ':' :: (m.afterColon ++ (m.value ++ rest))) := by
  simp only [body, List.append_assoc, List.cons_append]

end Member

/-- Whether entries, one after the other, take a state to another one. -/
inductive ReadsEntries {σ : Type} (entry : σ → Reader σ) : σ → List Member → σ → Prop
  | nil {s : σ} : ReadsEntries entry s [] s
  | cons {s s' s'' : σ} {m : Member} {members : List Member}
      (hentry : ∀ rest, Delimited rest → entry s (m.body ++ rest) = .ok (s', rest))
      (h : ReadsEntries entry s' members s'') : ReadsEntries entry s (m :: members) s''

section Objects

variable {σ : Type} {entry : σ → Reader σ}

theorem readsEntries_self {s : σ} {members : List Member}
    (h : ∀ m ∈ members, ∀ rest, Delimited rest → entry s (m.body ++ rest) = .ok (s, rest)) :
    ReadsEntries entry s members s := by
  induction members with
  | nil => exact .nil
  | cons m members ih =>
    obtain ⟨hm, h⟩ := List.forall_mem_cons.1 h
    exact .cons hm (ih h)

theorem entriesFrom_append {s s' : σ} {first : Member} {later : List Member}
    (h : ReadsEntries entry s (first :: later) s') {bound : List Char}
    (hbound : later.length < bound.length) (rest : List Char) :
    entriesFrom entry bound s
        ('"' :: first.body ++ (first.after ++ laterParts '\x7d' (later.map Member.padded) rest)) =
      .ok (s', rest) := by
  induction later generalizing s first bound with
  | nil =>
    obtain ⟨b, bound, rfl⟩ := List.exists_cons_of_length_pos hbound
    cases h with
    | cons hentry h =>
    cases h
    have hdelimited := delimited_laterParts '\x7d' (by decide) first.after_spaces [] rest
    have hclose : skipSpace (first.after ++ laterParts '\x7d' [] rest) = '\x7d' :: rest :=
      skipSpace_append first.after_spaces _
    simp only [List.cons_append, entriesFrom, List.map_nil, hentry _ hdelimited, hclose, bind,
      Except.bind]
    rfl
  | cons m later ih =>
    obtain ⟨b, bound, rfl⟩ := List.exists_cons_of_length_pos (Nat.zero_lt_of_lt hbound)
    cases h with
    | cons hentry h =>
    have ih := ih h (Nat.lt_of_succ_lt_succ hbound)
    have hdelimited := delimited_laterParts '\x7d' (by decide) first.after_spaces
      ((m :: later).map Member.padded) rest
    have hcomma : skipSpace
        (first.after ++ laterParts '\x7d' ((m :: later).map Member.padded) rest) =
        ',' :: (m.before ++ ('"' :: m.body ++
          (m.after ++ laterParts '\x7d' (later.map Member.padded) rest))) := by
      rw [skipSpace_append first.after_spaces, List.map_cons, laterParts_cons]
      rfl
    have hnext : skipSpace (m.before ++ ('"' :: m.body ++
        (m.after ++ laterParts '\x7d' (later.map Member.padded) rest))) =
        '"' :: m.body ++ (m.after ++ laterParts '\x7d' (later.map Member.padded) rest) :=
      skipSpace_append m.before_spaces _
    simp only [List.cons_append] at ih hcomma hnext ⊢
    simp only [entriesFrom, hentry _ hdelimited, hcomma, hnext, ih, bind, Except.bind]

theorem entries_append {s s' : σ} {members : List Member} (h : ReadsEntries entry s members s')
    {ws : List Char} (hws : Spaces ws) (rest : List Char) :
    entries entry s
        (ws ++ (commaSeparated ((members.map Member.padded).map Padded.text) ++ '\x7d' :: rest)) =
      .ok (s', rest) := by
  cases members with
  | nil =>
    cases h
    have hclose : skipSpace (ws ++ '\x7d' :: rest) = '\x7d' :: rest := skipSpace_append hws _
    simp only [entries, List.map_nil, commaSeparated, List.nil_append, hclose]
  | cons m members =>
    generalize hmore : m.after ++ laterParts '\x7d' (members.map Member.padded) rest = more
    have hbound : members.length < ('"' :: m.body ++ more).length := by
      have hlength := length_laterParts '\x7d' (members.map Member.padded) rest
      rw [← hmore, List.length_append, List.length_append]
      rw [List.length_map] at hlength
      omega
    have hread := entriesFrom_append h hbound rest
    have hfirst : skipSpace (ws ++ (commaSeparated (((m :: members).map Member.padded).map
        Padded.text) ++ '\x7d' :: rest)) = '"' :: m.body ++ more := by
      rw [List.map_cons, commaSeparated_append, skipSpace_append hws]
      change skipSpace (m.before ++ ('"' :: m.body ++
        (m.after ++ laterParts '\x7d' (members.map Member.padded) rest))) = _
      rw [skipSpace_append m.before_spaces, hmore]
      rfl
    rw [hmore] at hread
    rw [entries, hfirst]
    exact hread

end Objects

/-! ## Whole values -/

/-- The well-formed values, without white space around them. -/
inductive ValueText : List Char → Prop
  | word {text : List Char} (h : text ∈ ["null".toList, "true".toList, "false".toList]) :
      ValueText text
  | number {text : List Char} (h : NumberText text) : ValueText text
  | string {body : List Char} (h : IsStringBody body) : ValueText ('"' :: (body ++ ['"']))
  | list {ws : List Char} {items : List Padded} (hws : Spaces ws)
      (hitems : ∀ p ∈ items, ValueText p.inner) : ValueText (bracketed ws items)
  | object {ws : List Char} {members : List Member} (hws : Spaces ws)
      (hkeys : ∀ m ∈ members, IsStringBody m.key) (hvalues : ∀ m ∈ members, ValueText m.value) :
      ValueText (braced ws (members.map Member.padded))

/-- What a number starts with starts no other value. -/
theorem ne_cons_of_isDigit {c : Char} (h : c = '-' ∨ c.isDigit = true) {d : Char}
    (hd : d ∈ [' ', '\n', '\t', '\r', ']', 'n', 't', 'f', '"', '[', '\x7b']) (cs rest : List Char) :
    c :: cs ≠ d :: rest := by
  intro heq
  have hall : ∀ d ∈ [' ', '\n', '\t', '\r', ']', 'n', 't', 'f', '"', '[', '\x7b'],
      ¬ (d = '-' ∨ d.isDigit = true) := List.all_iff_forall_prop.1 (by decide)
  exact hall d hd ((List.cons.inj heq).1 ▸ h)

theorem isSpace_of_isDigit {c : Char} (h : c = '-' ∨ c.isDigit = true) :
    isSpace c = false ∧ c ≠ ']' := by
  have hne {d : Char} (hd : d ∈ [' ', '\n', '\t', '\r', ']', 'n', 't', 'f', '"', '[', '\x7b']) :
      c ≠ d := fun heq => ne_cons_of_isDigit h hd [] [] (heq ▸ rfl)
  refine ⟨?_, hne (by decide)⟩
  simp only [isSpace, Bool.or_eq_false_iff, beq_eq_false_iff_ne]
  exact ⟨⟨⟨hne (by decide), hne (by decide)⟩, hne (by decide)⟩, hne (by decide)⟩

theorem ValueText.start {text : List Char} (h : ValueText text) :
    ∃ c cs, text = c :: cs ∧ isSpace c = false ∧ c ≠ ']' := by
  cases h with
  | word h =>
    have hall : ∀ w ∈ ["null".toList, "true".toList, "false".toList],
        w.head?.any (fun c => !isSpace c && c != ']') = true := by decide
    obtain ⟨c, hc, hfits⟩ := (Option.any_eq_true ..).1 (hall text h)
    obtain ⟨cs, rfl⟩ := List.head?_eq_some_iff.1 hc
    simp only [Bool.and_eq_true, Bool.not_eq_true', bne_iff_ne] at hfits
    exact ⟨c, cs, rfl, hfits⟩
  | string | list | object => exact ⟨_, _, rfl, by decide, by decide⟩
  | number h =>
    obtain ⟨c, cs, rfl, hc⟩ := h.exists_cons
    exact ⟨c, cs, rfl, isSpace_of_isDigit hc⟩

theorem skipWithin_spaces (levels : List Char) {ws : List Char} (hws : Spaces ws) (cs : List Char) :
    skipWithin levels (ws ++ cs) = skipWithin levels cs := by
  unfold skipWithin
  rw [skipSpace_append hws]

theorem skipWithin_number (levels : List Char) {c : Char} (h : c = '-' ∨ c.isDigit = true)
    (cs : List Char) :
    skipWithin levels (c :: cs) = (literal .malformed (c :: cs)).map Prod.snd := by
  unfold skipWithin
  rw [skipSpace_cons (isSpace_of_isDigit h).1]
  split
  next heq => cases heq
  iterate 6 next heq => exact absurd heq (ne_cons_of_isDigit h (by decide) _ _)
  next heq =>
    obtain ⟨rfl, rfl⟩ := List.cons.inj heq
    rw [if_pos h]

def skipping (levels : List Char) : Reader Unit := fun cs =>
  (skipWithin levels cs).map fun rest => ((), rest)

theorem skipping_reads {levels text : List Char}
    (hstart : ∃ c cs, text = c :: cs ∧ isSpace c = false ∧ c ≠ ']')
    (htakes : ∀ rest, Delimited rest → skipWithin levels (text ++ rest) = .ok rest) :
    Reads (skipping levels) text () where
  start := hstart
  takes := by
    intro ws rest hws hrest
    rw [skipping, skipWithin_spaces levels hws, htakes rest hrest]
    rfl

/-- How `skipWithin` passes over an entry of an object. -/
def skipEntry (levels : List Char) (_ : Unit) : Reader Unit := fun cs => do
  let rest ← skipWithin levels (← colon (← skipText cs))
  return ((), rest)

theorem skipWithin_of_valueText {text : List Char} (h : ValueText text) {levels : List Char}
    (hlevels : text.length ≤ levels.length) {rest : List Char} (hrest : Delimited rest) :
    skipWithin levels (text ++ rest) = .ok rest := by
  induction h generalizing levels rest with
  | word h =>
    simp only [List.mem_cons, List.not_mem_nil, or_false] at h
    rcases h with rfl | rfl | rfl <;> cases levels <;> rfl
  | number h =>
    obtain ⟨l, hl⟩ := literal_of_numberText .malformed h hrest
    obtain ⟨c, cs, rfl, hc⟩ := h.exists_cons
    rw [List.cons_append] at hl ⊢
    rw [skipWithin_number levels hc, hl]
    rfl
  | @string body h =>
    have hread := skipText_of_isStringBody h rest
    rw [List.cons_append, List.append_assoc, List.singleton_append]
    cases levels <;> exact hread
  | @list ws items hws hitems ih =>
    -- A list or an object uses up one level, and what stands inside it is shorter.
    obtain ⟨level, inner, rfl⟩ :=
      List.exists_cons_of_length_pos (Nat.lt_of_lt_of_le (Nat.succ_pos _) hlevels)
    change (enclosed '[' ']' ws items).length ≤ inner.length + 1 at hlevels
    have hreads : ∀ p ∈ items.map fun p => ((), p), Reads (skipping inner) p.2.inner p.1 := by
      intro q hq
      obtain ⟨p, hp, rfl⟩ := List.mem_map.1 hq
      have hshort := length_lt_enclosed hp '[' ']' ws
      exact skipping_reads (hitems p hp).start fun rest => ih p hp (by omega)
    have hread := elements_append hreads hws rest
    have hitems : (items.map fun p => ((), p)).map Prod.snd = items := by
      rw [List.map_map]
      exact List.map_id items
    rw [hitems] at hread
    rw [bracketed, enclosed_append]
    exact congrArg (Except.map Prod.snd) hread
  | @object ws members hws hkeys hvalues ih =>
    obtain ⟨level, inner, rfl⟩ :=
      List.exists_cons_of_length_pos (Nat.lt_of_lt_of_le (Nat.succ_pos _) hlevels)
    change (enclosed '\x7b' '\x7d' ws (members.map Member.padded)).length ≤ inner.length + 1
      at hlevels
    have hentries : ReadsEntries (skipEntry inner) () members () := by
      apply readsEntries_self
      intro m hm rest hrest
      have hvalue : skipWithin inner (m.value ++ rest) = .ok rest := by
        have hshort :=
          length_lt_enclosed (List.mem_map_of_mem (f := Member.padded) hm) '\x7b' '\x7d' ws
        simp only [Member.padded, Member.body, List.length_cons, List.length_append] at hshort
        exact ih m hm (by omega) hrest
      rw [m.body_append]
      simp only [skipEntry, skipText_of_isStringBody (hkeys m hm),
        colon_append m.beforeColon_spaces, skipWithin_spaces inner m.afterColon_spaces, hvalue,
        bind, Except.bind]
      rfl
    have hread := entries_append hentries hws rest
    rw [braced, enclosed_append]
    exact congrArg (Except.map Prod.snd) hread

/-- A well-formed value is passed over, whatever it is. -/
theorem skipValue_append {text : List Char} (h : ValueText text) {ws rest : List Char}
    (hws : Spaces ws) (hrest : Delimited rest) :
    skipValue (ws ++ (text ++ rest)) = .ok rest := by
  rw [skipValue, skipWithin_spaces _ hws]
  apply skipWithin_of_valueText h _ hrest
  simp only [List.length_append]
  omega

/-! ## Compact texts -/

def compact (text : List Char) : Padded :=
  ⟨[], text, [], .nil, .nil⟩

def compactMember (key : String) (value : List Char) : Member :=
  ⟨[], key.toList.flatMap escape, [], [], value, [], .nil, .nil, .nil, .nil⟩

theorem listText_eq_bracketed (items : List (List Char)) :
    listText items = bracketed [] (items.map compact) := by
  have hcompact : (items.map compact).map Padded.text = items := by
    rw [List.map_map]
    exact (List.map_congr_left fun text _ => List.append_nil text).trans (List.map_id items)
  rw [bracketed, enclosed, hcompact]
  rfl

theorem objectText_eq_braced (members : List (String × List Char)) :
    objectText members =
      braced [] ((members.map fun m => compactMember m.1 m.2).map Member.padded) := by
  have hcompact : ((members.map fun m => compactMember m.1 m.2).map Member.padded).map Padded.text =
      members.map fun m => quote m.1.toList ++ ':' :: m.2 := by
    rw [List.map_map, List.map_map]
    refine List.map_congr_left fun m _ => ?_
    simp only [Function.comp, Padded.text, Member.padded, Member.body, compactMember, quote,
      List.nil_append, List.append_nil, List.cons_append, List.append_assoc]
  rw [braced, enclosed, hcompact]
  rfl

end SqlDraft.Json
