import SqlDraft.Exchange.Response
import SqlDraft.Proofs.JsonValues

/-!
# Responses as the service may spell them

A service is free in the order of the fields, in white space, in the spelling of strings and in
fields of its own.  `decode_of_written` says that none of this has a say in what is read, and
`decode_encode` that a response that is written is read back as itself.
-/

namespace SqlDraft.Response

open Json

/-! ## The content of a response -/

/-- A cell of a row as the service gives it. -/
inductive Cell
  | string (s : String)
  | null
  | bool (b : Bool)
  | integer (n : Int) (hlow : -0x8000000000000000 ≤ n) (hhigh : n ≤ 0xFFFFFFFFFFFFFFFF)

def Cell.shown : Cell → String
  | string s => s
  | null => "NULL"
  | bool true => "true"
  | bool false => "false"
  | integer n _ _ => toString n

/-- A field of a response, or one that responses do not have. -/
inductive Field
  | status (s : Status)
  | message (m : Option String)
  | columns (names : List String)
  | data (rows : List (List Cell))
  | other (key : String) (h : key ∉ ["status", "message", "columns", "data"])

namespace Field

def key : Field → String
  | status _ => "status"
  | message _ => "message"
  | columns _ => "columns"
  | data _ => "data"
  | other key _ => key

def name? : Field → Option FieldName
  | status _ => some .status
  | message _ => some .message
  | columns _ => some .columns
  | data _ => some .data
  | other _ _ => none

end Field

/-- What the service says in a response: its status, and any of the other fields. -/
structure Content where
  status : Status
  message : Option (Option String)
  columns : Option (List String)
  data : Option (List (List Cell))

namespace Content

def fields (c : Content) : List Field :=
  .status c.status :: (c.message.map Field.message).toList ++
    ((c.columns.map Field.columns).toList ++ (c.data.map Field.data).toList)

/-- What a response means: no message, no columns and no rows where the field is left out. -/
def response (c : Content) : Response where
  status := c.status
  message := c.message.getD none
  columns := c.columns.getD []
  data := (c.data.getD []).map fun row => row.map Cell.shown

end Content

/-! ## Spellings -/

inductive StringText (s : String) : List Char → Prop
  | quoted {body : List Char} (h : Spelled UnicodeText s.toList body) :
      StringText s ('"' :: (body ++ ['"']))

/-- The texts that spell a list whose elements are spelled in the given way. -/
inductive ListText {α : Type} (element : α → List Char → Prop) : List α → List Char → Prop
  | bracketed {ws : List Char} {items : List (α × Padded)} (hws : Spaces ws)
      (hitems : ∀ p ∈ items, element p.1 p.2.inner) :
      ListText element (items.map Prod.fst) (bracketed ws (items.map Prod.snd))

inductive CellText : Cell → List Char → Prop
  | string {s : String} {text : List Char} (h : StringText s text) : CellText (.string s) text
  | null : CellText .null "null".toList
  | true : CellText (.bool true) "true".toList
  | false : CellText (.bool false) "false".toList
  | integer {n : Int} {hlow : -0x8000000000000000 ≤ n} {hhigh : n ≤ 0xFFFFFFFFFFFFFFFF} :
      CellText (.integer n hlow hhigh) (toString n).toList

inductive FieldText : Field → List Char → Prop
  | success {text : List Char} (h : StringText "success" text) : FieldText (.status .success) text
  | error {text : List Char} (h : StringText "error" text) : FieldText (.status .error) text
  | noMessage : FieldText (.message none) "null".toList
  | message {m : String} {text : List Char} (h : StringText m text) :
      FieldText (.message (some m)) text
  | columns {names : List String} {text : List Char} (h : ListText StringText names text) :
      FieldText (.columns names) text
  | data {rows : List (List Cell)} {text : List Char} (h : ListText (ListText CellText) rows text) :
      FieldText (.data rows) text
  | other {key : String} {hkey : key ∉ ["status", "message", "columns", "data"]}
      {text : List Char} (h : ValueText text) : FieldText (.other key hkey) text

/-- Whether an entry of an object spells a field. -/
structure Field.Written (f : Field) (m : Member) : Prop where
  key : Spelled UnicodeText f.key.toList m.key
  value : FieldText f m.value

theorem stringText_quote (s : String) : StringText s (quote s.toList) :=
  .quoted (spelled_escape s.toList)

/-! ## Reading what a field holds -/

theorem text_of_stringText {s : String} {body : List Char} (h : Spelled UnicodeText s.toList body)
    (rest : List Char) :
    Json.text (body ++ ['"'] ++ rest) = .ok (s.toList, rest) := by
  rw [List.append_assoc, List.singleton_append]
  exact text_of_spelled h rest

theorem skipSpace_quoted {ws : List Char} (hws : Spaces ws) (body rest : List Char) :
    skipSpace (ws ++ ('"' :: (body ++ ['"']) ++ rest)) = '"' :: (body ++ ['"'] ++ rest) :=
  skipSpace_append hws _

theorem reads_string {s : String} {text : List Char} (h : StringText s text) :
    Reads readString text s := by
  cases h with
  | @quoted body h =>
    refine ⟨⟨'"', body ++ ['"'], rfl, by decide, by decide⟩, ?_⟩
    intro ws rest hws _
    simp only [readString, skipSpace_quoted hws, text_of_stringText h, Except.map,
      String.ofList_toList]

theorem reads_status {s : Status} {text : List Char} (h : StringText s.name text) :
    Reads readStatus text s := by
  have hstring := reads_string h
  cases h with
  | @quoted body h =>
    refine ⟨hstring.start, ?_⟩
    intro ws rest hws hrest
    have hread : readString ('"' :: (body ++ ['"'] ++ rest)) = .ok (s.name, rest) :=
      hstring.takes_front hrest
    simp only [readStatus, skipSpace_quoted hws, readStatusName, hread, bind, Except.bind,
      Status.ofName?_name]
    rfl

theorem reads_noMessage : Reads readMessage "null".toList none := by
  refine ⟨⟨'n', ['u', 'l', 'l'], rfl, by decide, by decide⟩, ?_⟩
  intro ws rest hws _
  have hfirst : skipSpace (ws ++ ("null".toList ++ rest)) = 'n' :: 'u' :: 'l' :: 'l' :: rest :=
    skipSpace_append hws _
  simp only [readMessage, hfirst]
  rfl

theorem reads_message {m : String} {text : List Char} (h : StringText m text) :
    Reads readMessage text (some m) := by
  have hstring := reads_string h
  cases h with
  | @quoted body h =>
    refine ⟨hstring.start, ?_⟩
    intro ws rest hws hrest
    have hread : readString ('"' :: (body ++ ['"'] ++ rest)) = .ok (m, rest) :=
      hstring.takes_front hrest
    rw [readMessage, skipSpace_quoted hws]
    split
    next heq => exact absurd (List.cons.inj heq).1 (by decide)
    next => rw [hread]; rfl

theorem reads_list {α β : Type} {element : α → List Char → Prop} {item : Reader β} {shown : α → β}
    (hitem : ∀ x text, element x text → Reads item text (shown x)) {xs : List α}
    {text : List Char} (h : ListText element xs text) :
    Reads (readList item) text (xs.map shown) := by
  cases h with
  | @bracketed ws items hws hitems =>
    refine ⟨⟨'[', _, rfl, by decide, by decide⟩, ?_⟩
    intro before rest hbefore _
    have hreads : ∀ q ∈ items.map fun p => (shown p.1, p.2), Reads item q.2.inner q.1 := by
      intro q hq
      obtain ⟨p, hp, rfl⟩ := List.mem_map.1 hq
      exact hitem p.1 p.2.inner (hitems p hp)
    have hread := elements_append hreads hws rest
    simp only [List.map_map, Function.comp_def] at hread
    have hfirst : skipSpace (before ++ (Json.bracketed ws (items.map Prod.snd) ++ rest)) =
        '[' :: (ws ++ (commaSeparated ((items.map Prod.snd).map Padded.text) ++ ']' :: rest)) := by
      rw [skipSpace_append hbefore, Json.bracketed, enclosed_append]
      rfl
    simp only [readList, hfirst, List.map_map, Function.comp_def, hread]

theorem read_spaces (levels : Nat) {ws : List Char} (hws : Spaces ws) (cs : List Char) :
    Value.read levels (ws ++ cs) = Value.read levels cs := by
  unfold Value.read
  rw [skipSpace_append hws]

theorem read_number (levels : Nat) {c : Char} (h : c = '-' ∨ c.isDigit = true) (cs : List Char) :
    Value.read levels (c :: cs) = (number (c :: cs)).map fun (n, rest) => (.number n, rest) := by
  unfold Value.read
  rw [skipSpace_cons (isSpace_of_isDigit h).1]
  split
  next heq => cases heq
  iterate 6 next heq => exact absurd heq (ne_cons_of_isDigit h (by decide) _ _)
  next heq =>
    obtain ⟨rfl, rfl⟩ := List.cons.inj heq
    rw [if_pos h]

theorem reads_cell_of_read {text : List Char} {v : Value} {c : Char} {cs : List Char}
    (htext : text = c :: cs) (hspace : isSpace c = false) (hclose : c ≠ ']')
    (hread : ∀ rest, Delimited rest →
      Value.read (maxNesting - 3) (text ++ rest) = .ok (v, rest)) :
    Reads readCell text (cellOfValue v) := by
  refine ⟨⟨c, cs, htext, hspace, hclose⟩, ?_⟩
  intro ws rest hws hrest
  rw [readCell, read_spaces _ hws, hread rest hrest]
  rfl

/-- A whole number starts with a minus or a digit, as numbers do. -/
theorem numberText_toString (n : Int) : NumberText (toString n).toList := by
  have hminus : (if n < 0 then ['-'] else []) ∈ [[], ['-']] := by
    split <;> simp
  have hparts := NumberText.parts hminus (isWholeDigits_toDigits n.natAbs) (.inl rfl) (.inl rfl)
  rwa [List.append_nil, List.append_nil, ← toList_toString_int] at hparts

theorem reads_cell {cell : Cell} {text : List Char} (h : CellText cell text) :
    Reads readCell text cell.shown := by
  cases h with
  | @string s text h =>
    cases h with
    | @quoted body h =>
      refine reads_cell_of_read rfl (v := .string s) (by decide) (by decide) ?_
      intro rest _
      have hread : Json.text (body ++ ['"'] ++ rest) = .ok (s.toList, rest) :=
        text_of_stringText h rest
      change (Json.text (body ++ ['"'] ++ rest)).map _ = _
      rw [hread]
      simp only [Except.map, String.ofList_toList]
  | null => exact reads_cell_of_read rfl (v := .null) (by decide) (by decide) fun rest _ => rfl
  | true =>
    exact reads_cell_of_read rfl (v := .bool true) (by decide) (by decide) fun rest _ => rfl
  | false =>
    exact reads_cell_of_read rfl (v := .bool false) (by decide) (by decide) fun rest _ => rfl
  | @integer n hlow hhigh =>
    obtain ⟨c, cs, htext, hc⟩ := (numberText_toString n).exists_cons
    obtain ⟨hspace, hclose⟩ := isSpace_of_isDigit hc
    -- In 64 bits a number keeps its digits; a longer one would be shown rounded.
    have hshown : cellOfValue (.number (.whole n)) = Cell.shown (.integer n hlow hhigh) :=
      String.ofList_toList
    rw [← hshown]
    refine reads_cell_of_read htext hspace hclose ?_
    intro rest hrest
    have hnumber := number_toString hlow hhigh hrest
    rw [htext, List.cons_append] at hnumber ⊢
    rw [read_number _ hc, hnumber]
    rfl

theorem reads_columns {names : List String} {text : List Char}
    (h : ListText StringText names text) : Reads readColumns text names := by
  have hread : Reads readColumns text (names.map id) :=
    reads_list (fun _ _ hname => reads_string hname) h
  rwa [List.map_id] at hread

theorem reads_data {rows : List (List Cell)} {text : List Char}
    (h : ListText (ListText CellText) rows text) :
    Reads readData text (rows.map fun row => row.map Cell.shown) :=
  reads_list (fun _ _ hrow => reads_list (fun _ _ hcell => reads_cell hcell) hrow) h

/-! ## Reading fields in any order -/

def Field.put (before : Fields) : Field → Fields
  | status s => { before with status := some s }
  | message m => { before with message := some m }
  | columns names => { before with columns := some names }
  | data rows => { before with data := some (rows.map fun row => row.map Cell.shown) }
  | other _ _ => before

def Field.Unread (before : Fields) : Field → Prop
  | status _ => before.status = none
  | message _ => before.message = none
  | columns _ => before.columns = none
  | data _ => before.data = none
  | other _ _ => True

theorem ofKey?_of_field (f : Field) : FieldName.ofKey? f.key = f.name? := by
  cases f with
  | status | message | columns | data => rfl
  | other key h =>
    have hall : ∀ name : FieldName, name.key ∈ ["status", "message", "columns", "data"] := by
      intro name
      cases name <;> decide
    rw [FieldName.ofKey?, Field.name?, List.find?_eq_none]
    intro name _ hkey
    have heq : name.key = key := LawfulBEq.eq_of_beq hkey
    exact h (heq ▸ hall name)

theorem readField_append {α : Type} {value : Reader α} {text : List Char} {x : α}
    (h : Reads value text x) {before : Option α} (hbefore : before = none) {ws ws' rest : List Char}
    (hws : Spaces ws) (hws' : Spaces ws') (hrest : Delimited rest) :
    readField before value (ws ++ ':' :: (ws' ++ (text ++ rest))) = .ok (x, rest) := by
  subst hbefore
  simp only [readField, Option.isSome_none, Bool.false_eq_true, ↓reduceIte, colon_append hws, bind,
    Except.bind]
  exact h.takes ws' rest hws' hrest

/-- An entry that spells a field not read before is read as that field. -/
theorem readEntry_append {f : Field} {m : Member} (h : f.Written m) {before : Fields}
    (hunread : f.Unread before) {rest : List Char} (hrest : Delimited rest) :
    readEntry before (m.body ++ rest) = .ok (f.put before, rest) := by
  have htext : Json.text (m.body ++ rest) = .ok (f.key.toList,
      m.beforeColon ++ ':' :: (m.afterColon ++ (m.value ++ rest))) := by
    rw [m.body_append]
    exact text_of_spelled h.key _
  have hvalue := h.value
  -- A field that was read before would be refused, whatever it holds.
  simp only [readEntry, htext, String.ofList_toList, ofKey?_of_field, bind, Except.bind]
  generalize m.value = text at hvalue
  have hfield {α : Type} {value : Reader α} {x : α} (hreads : Reads value text x)
      {before : Option α} (hbefore : before = none) :
      readField before value (m.beforeColon ++ ':' :: (m.afterColon ++ (text ++ rest))) =
        .ok (x, rest) :=
    readField_append hreads hbefore m.beforeColon_spaces m.afterColon_spaces hrest
  cases hvalue with
  | success h => simp only [Field.name?, hfield (reads_status (s := .success) h) hunread]; rfl
  | error h => simp only [Field.name?, hfield (reads_status (s := .error) h) hunread]; rfl
  | noMessage => simp only [Field.name?, hfield reads_noMessage hunread]; rfl
  | message h => simp only [Field.name?, hfield (reads_message h) hunread]; rfl
  | columns h => simp only [Field.name?, hfield (reads_columns h) hunread]; rfl
  | data h => simp only [Field.name?, hfield (reads_data h) hunread]; rfl
  | other h =>
    simp only [Field.name?, colon_append m.beforeColon_spaces,
      skipValue_append h m.afterColon_spaces hrest]
    rfl

/-- Whether two fields can stand in one response. -/
def Field.Apart (f g : Field) : Prop :=
  f.name?.isSome → g.name?.isSome → f.name? ≠ g.name?

theorem Field.Apart.symm {f g : Field} (h : f.Apart g) : g.Apart f :=
  fun hg hf heq => h hf hg heq.symm

theorem unread_put {f g : Field} {before : Fields} (h : g.Unread before) (hapart : f.Apart g) :
    g.Unread (f.put before) := by
  cases f <;> cases g <;> first | exact h | exact absurd rfl (hapart rfl rfl)

theorem put_comm {f g : Field} (hapart : f.Apart g) (before : Fields) :
    g.put (f.put before) = f.put (g.put before) := by
  cases f <;> cases g <;> first | rfl | exact absurd rfl (hapart rfl rfl)

theorem readsEntries_of_written {entries : List (Field × Member)} {before : Fields}
    (hwritten : ∀ p ∈ entries, p.1.Written p.2) (hunread : ∀ p ∈ entries, p.1.Unread before)
    (hapart : (entries.map Prod.fst).Pairwise Field.Apart) :
    ReadsEntries readEntry before (entries.map Prod.snd)
      ((entries.map Prod.fst).foldl Field.put before) := by
  induction entries generalizing before with
  | nil => exact .nil
  | cons p entries ih =>
    obtain ⟨hp, hwritten⟩ := List.forall_mem_cons.1 hwritten
    obtain ⟨hunreadHere, hunread⟩ := List.forall_mem_cons.1 hunread
    obtain ⟨hfirst, hapart⟩ := List.pairwise_cons.1 hapart
    refine .cons (fun rest hrest => readEntry_append hp hunreadHere hrest) (ih hwritten ?_ hapart)
    intro q hq
    exact unread_put (hunread q hq) (hfirst q.1 (List.mem_map_of_mem hq))

theorem unread_noFields (f : Field) : f.Unread noFields := by
  cases f <;> first | rfl | trivial

theorem Content.pairwise_fields (c : Content) : c.fields.Pairwise Field.Apart := by
  obtain ⟨s, m, names, rows⟩ := c
  cases m <;> cases names <;> cases rows <;> simp [fields, Field.Apart, Field.name?]

theorem Content.filter_fields (c : Content) :
    (c.fields.filter fun f => f.name?.isSome) = c.fields := by
  obtain ⟨s, m, names, rows⟩ := c
  cases m <;> cases names <;> cases rows <;> rfl

theorem Content.foldl_fields (c : Content) :
    c.fields.foldl Field.put noFields =
      ⟨some c.status, c.message, c.columns,
        c.data.map fun rows => rows.map (·.map Cell.shown)⟩ := by
  obtain ⟨s, m, names, rows⟩ := c
  cases m <;> cases names <;> cases rows <;> rfl

/-- Fields that responses do not have leave what has been read. -/
theorem foldl_put_filter (fields : List Field) (before : Fields) :
    fields.foldl Field.put before =
      (fields.filter fun f => f.name?.isSome).foldl Field.put before := by
  induction fields generalizing before with
  | nil => rfl
  | cons f fields ih =>
    cases f <;> exact ih _

section Order

variable {c : Content} {fields : List Field}

theorem pairwise_of_perm (h : (fields.filter fun f => f.name?.isSome).Perm c.fields) :
    fields.Pairwise Field.Apart := by
  have hknown := c.pairwise_fields.perm h.symm Field.Apart.symm
  rw [List.pairwise_filter] at hknown
  exact hknown.imp fun hapart hf hg => hapart hf hg hf hg

/-- The order of the fields has no say in what has been read at the end. -/
theorem foldl_put_of_perm (h : (fields.filter fun f => f.name?.isSome).Perm c.fields) :
    fields.foldl Field.put noFields =
      ⟨some c.status, c.message, c.columns,
        c.data.map fun rows => rows.map (·.map Cell.shown)⟩ := by
  -- Fields of different names commute, so every order of them folds to the same.
  have hpairs : c.fields.Pairwise fun f g =>
      ∀ before, g.put (f.put before) = f.put (g.put before) := c.pairwise_fields.imp put_comm
  have hcomm := List.Pairwise.forall_of_forall_of_flip (fun _ _ _ => rfl) hpairs
    (hpairs.imp fun h before => (h before).symm)
  rw [foldl_put_filter, ← c.foldl_fields]
  exact (h.symm.foldl_eq' (fun f hf g hg => hcomm hf hg) noFields).symm

end Order

/-- What is read of an object that spells the fields of a response among others. -/
theorem readObject_append {c : Content} {entries : List (Field × Member)}
    (hfields : ((entries.map Prod.fst).filter fun f => f.name?.isSome).Perm c.fields)
    (hwritten : ∀ p ∈ entries, p.1.Written p.2) {ws : List Char} (hws : Spaces ws)
    (rest : List Char) :
    readObject (ws ++ (commaSeparated
        (((entries.map Prod.snd).map Member.padded).map Padded.text) ++ '\x7d' :: rest)) =
      .ok (c.response, rest) := by
  have hentries := readsEntries_of_written hwritten (fun p _ => unread_noFields p.1)
    (pairwise_of_perm hfields)
  rw [foldl_put_of_perm hfields] at hentries
  simp only [readObject, entries_append hentries hws, bind, Except.bind, Content.response]
  cases c.data <;> rfl

/-- Whatever the order of its fields, the white space between its tokens, the spelling of its
strings and the fields that responses do not have, a response is read as what it means. -/
theorem decode_of_written {c : Content} {entries : List (Field × Member)}
    (hfields : ((entries.map Prod.fst).filter fun f => f.name?.isSome).Perm c.fields)
    (hwritten : ∀ p ∈ entries, p.1.Written p.2) {before inside after : List Char}
    (hbefore : Spaces before) (hinside : Spaces inside) (hafter : Spaces after) :
    decode (String.ofList
        (before ++ (braced inside ((entries.map Prod.snd).map Member.padded) ++ after))) =
      .ok c.response := by
  have hread := readObject_append hfields hwritten hinside after
  have hfirst : skipSpace
      (before ++ (braced inside ((entries.map Prod.snd).map Member.padded) ++ after)) =
      '\x7b' :: (inside ++ (commaSeparated
        (((entries.map Prod.snd).map Member.padded).map Padded.text) ++ '\x7d' :: after)) := by
    rw [skipSpace_append hbefore, braced, enclosed_append]
    rfl
  have hend : skipSpace after = [] := by
    have h := skipSpace_append hafter []
    rwa [List.append_nil] at h
  simp only [decode, read, String.toList_ofList, hfirst, hread, hend, bind, Except.bind]
  rfl

def minusSeven : Cell :=
  .integer (-7) (by decide) (by decide)

/-- Rows of different lengths after a field that responses do not have, and the status at the end,
with an escape in its key. -/
def lateStatus : List (Field × Member) :=
  [(.other "trace" (by decide),
      compactMember "trace" "[1.5e3,\x7b\"data\":null\x7d]".toList),
    (.data [[.null, minusSeven], []], compactMember "data" "[[null,-7],[]]".toList),
    (.status .success,
      ⟨[' '], "st\\u0061tus".toList, [], ['\n'], quote "success".toList, ['\t'],
        by decide, by decide, by decide, by decide⟩)]

theorem written_lateStatus : ∀ p ∈ lateStatus, p.1.Written p.2 := by
  intro p hp
  simp only [lateStatus, List.mem_cons, List.not_mem_nil, or_false] at hp
  rcases hp with rfl | rfl | rfl
  · have hdigit {d : Char} (hd : d.isDigit = true) : IsDigits [d] :=
      ⟨List.cons_ne_nil d [], List.forall_mem_singleton.2 hd⟩
    have hwhole : IsWholeDigits ['1'] := ⟨hdigit rfl, by decide⟩
    have hfraction : IsFraction ".5".toList := .inr ⟨['5'], hdigit rfl, rfl⟩
    have hexponent : IsExponent "e3".toList :=
      .inr ⟨'e', [], ['3'], by decide, by decide, hdigit rfl, rfl⟩
    have hnumber : ValueText "1.5e3".toList :=
      .number (.parts (List.mem_cons_self ..) hwhole hfraction hexponent)
    have hobject : ValueText "\x7b\"data\":null\x7d".toList :=
      @ValueText.object [] [compactMember "data" "null".toList] .nil
        (List.forall_mem_singleton.2 ⟨_, spelled_self (List.all_iff_forall_prop.1 (by decide))⟩)
        (List.forall_mem_singleton.2 (.word (List.mem_cons_self ..)))
    have hvalue : ValueText "[1.5e3,\x7b\"data\":null\x7d]".toList :=
      @ValueText.list [] [compact "1.5e3".toList, compact "\x7b\"data\":null\x7d".toList] .nil
        (List.forall_mem_cons.2 ⟨hnumber, List.forall_mem_singleton.2 hobject⟩)
    exact ⟨spelled_escape _, .other hvalue⟩
  · have hseven : CellText minusSeven "-7".toList := by
      have htext : (toString (-7 : Int)).toList = "-7".toList := by decide
      rw [← htext]
      exact .integer
    have hcells : ListText CellText [.null, minusSeven] "[null,-7]".toList :=
      @ListText.bracketed _ CellText [] [(.null, compact "null".toList),
          (minusSeven, compact "-7".toList)] .nil
        (List.forall_mem_cons.2 ⟨.null, List.forall_mem_singleton.2 hseven⟩)
    have hnone : ListText CellText [] "[]".toList :=
      @ListText.bracketed _ CellText [] [] .nil fun _ h => absurd h List.not_mem_nil
    have hrows : ListText (ListText CellText) [[.null, minusSeven], []] "[[null,-7],[]]".toList :=
      @ListText.bracketed _ (ListText CellText) []
        [([.null, minusSeven], compact "[null,-7]".toList), ([], compact "[]".toList)] .nil
        (List.forall_mem_cons.2 ⟨hcells, List.forall_mem_singleton.2 hnone⟩)
    exact ⟨spelled_escape _, .data hrows⟩
  · have hzero : IsHexDigit 0 '0' := ⟨by decide, .inl rfl⟩
    have hsix : IsHexDigit 6 '6' := ⟨by decide, .inl rfl⟩
    have hone : IsHexDigit 1 '1' := ⟨by decide, .inl rfl⟩
    have hletter : UnicodeText 'a' "0061".toList := .unit (.digits hzero hzero hsix hone)
    have hkey : Spelled UnicodeText "status".toList "st\\u0061tus".toList :=
      .plain (by decide) (by decide) (by decide) <| .plain (by decide) (by decide) (by decide) <|
        .unicode hletter (spelled_self (List.all_iff_forall_prop.1 (by decide)))
    exact ⟨hkey, .success (stringText_quote _)⟩

theorem decode_of_written_lateStatus :
    ((lateStatus.map Prod.fst).filter fun f => f.name?.isSome).Perm
      (Content.mk .success none none (some [[.null, minusSeven], []])).fields ∧
    (∀ p ∈ lateStatus, p.1.Written p.2) ∧
    decode (" \x7b\"trace\":[1.5e3,\x7b\"data\":null\x7d],\"data\":[[null,-7],[]]," ++
        " \"st\\u0061tus\":\n\"success\"\t\x7d") =
      .ok ⟨.success, none, [], [["NULL", "-7"], []]⟩ := by
  have hfields : ((lateStatus.map Prod.fst).filter fun f => f.name?.isSome).Perm
      (Content.mk .success none none (some [[.null, minusSeven], []])).fields := .swap ..
  have hbefore : Spaces [' '] := by decide
  have h := decode_of_written hfields written_lateStatus hbefore .nil .nil
  exact ⟨hfields, written_lateStatus, h⟩

/-! ## Reading what is written -/

theorem listText_of_elements {α β : Type} {element : α → List Char → Prop} {given : β → α}
    {write : β → List Char} (helement : ∀ y, element (given y) (write y)) (ys : List β) :
    ListText element (ys.map given) (listText (ys.map write)) := by
  have hlist : ListText element ((ys.map fun y => (given y, compact (write y))).map Prod.fst)
      (bracketed [] ((ys.map fun y => (given y, compact (write y))).map Prod.snd)) := by
    apply ListText.bracketed Spaces.nil
    intro p hp
    obtain ⟨y, _, rfl⟩ := List.mem_map.1 hp
    exact helement y
  rw [List.map_map, List.map_map] at hlist
  rw [listText_eq_bracketed, List.map_map]
  exact hlist

theorem listText_strings (names : List String) : ListText StringText names (stringsText names) := by
  have h : ListText StringText (names.map id) (stringsText names) :=
    listText_of_elements (fun name => stringText_quote name) names
  rwa [List.map_id] at h

def content (r : Response) : Content where
  status := r.status
  message := r.message.map some
  columns := some r.columns
  data := some (r.data.map fun row => row.map Cell.string)

theorem response_content (r : Response) : r.content.response = r := by
  have hrow (row : List String) : (row.map Cell.string).map Cell.shown = row := by
    rw [List.map_map]
    exact List.map_id row
  have hdata : (r.data.map fun row => row.map Cell.string).map (fun row => row.map Cell.shown) =
      r.data := by
    rw [List.map_map]
    exact (List.map_congr_left fun row _ => hrow row).trans (List.map_id r.data)
  obtain ⟨status, message, columns, data⟩ := r
  simp only [content, Content.response, Option.getD_some]
  rw [hdata]
  cases message <;> rfl

def writtenEntries (r : Response) : List (Field × Member) :=
  (.status r.status, compactMember "status" (quote r.status.name.toList)) ::
    (r.message.map fun m => (.message (some m), compactMember "message" (quote m.toList))).toList ++
    [(.columns r.columns, compactMember "columns" (stringsText r.columns)),
      (.data (r.data.map fun row => row.map Cell.string),
        compactMember "data" (listText (r.data.map stringsText)))]

theorem map_fst_writtenEntries (r : Response) :
    r.writtenEntries.map Prod.fst = r.content.fields := by
  obtain ⟨status, message, columns, data⟩ := r
  cases message <;> rfl

theorem encode_eq_braced (r : Response) :
    r.encode = String.ofList (braced [] ((r.writtenEntries.map Prod.snd).map Member.padded)) := by
  obtain ⟨status, message, columns, data⟩ := r
  rw [encode, objectText_eq_braced]
  cases message <;> rfl

theorem written_of_mem {r : Response} {p : Field × Member} (h : p ∈ r.writtenEntries) :
    p.1.Written p.2 := by
  have hdata : ListText (ListText CellText) (r.data.map fun row => row.map Cell.string)
      (listText (r.data.map stringsText)) :=
    listText_of_elements
      (fun row => listText_of_elements (fun s => .string (stringText_quote s)) row) r.data
  simp only [writtenEntries, List.cons_append, List.mem_cons, List.mem_append, Option.mem_toList,
    Option.map_eq_some_iff, List.not_mem_nil, or_false] at h
  rcases h with rfl | ⟨m, -, rfl⟩ | rfl | rfl
  · refine ⟨spelled_escape _, ?_⟩
    cases r.status with
    | success => exact .success (stringText_quote _)
    | error => exact .error (stringText_quote _)
  · exact ⟨spelled_escape _, .message (stringText_quote m)⟩
  · exact ⟨spelled_escape _, .columns (listText_strings r.columns)⟩
  · exact ⟨spelled_escape _, .data hdata⟩

/-- A response that is written is read back as itself, so reading, writing and reading again gives
what the first reading gave. -/
theorem decode_encode :
    (∀ r : Response, decode r.encode = .ok r) ∧
    ∀ json : String, (do let r ← decode json; decode r.encode) = decode json := by
  -- What is written is one of the spellings: without white space, the fields in their own order.
  have hround (r : Response) : decode r.encode = .ok r := by
    have hfields : ((r.writtenEntries.map Prod.fst).filter fun f => f.name?.isSome).Perm
        r.content.fields := by
      rw [map_fst_writtenEntries, r.content.filter_fields]
    have hread := readObject_append hfields (fun _ => written_of_mem) Spaces.nil []
    rw [response_content] at hread
    rw [encode_eq_braced, decode, String.toList_ofList]
    change (readObject _).bind _ = _
    rw [hread]
    rfl
  refine ⟨hround, fun json => ?_⟩
  cases hjson : decode json with
  | error fault => rfl
  | ok r => exact hround r

end SqlDraft.Response
