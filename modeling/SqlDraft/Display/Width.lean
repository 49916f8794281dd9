import SqlDraft.Display.Emoji
import SqlDraft.Display.Scripts

/-!
# Display width

The number of columns that a text takes on a terminal.  A text is read from its end and falls into
clusters, each a character with those after it that it merges with: emoji with their modifiers and
selectors, flags, and the ligatures and composed vowel signs of some scripts.  The width of a text
is the sum of the widths of its clusters; `textWidth_append_space` says that a space parts them.
-/

namespace SqlDraft

/-! ## Single characters -/

def isControl (c : Char) : Bool :=
  c.toNat < 0x20 || (0x7F ≤ c.toNat && c.toNat < 0xA0)

/-- The columns that a character takes alone.  Control characters take none. -/
def charWidth (c : Char) : Nat :=
  if c.toNat < 0x7F then
    if isControl c then 0 else 1
  else if isControl c || zeroWidthRanges.contains c then 0
  -- Two Khmer characters stand for more than one letter.
  else if c = '\u17A4' then 2
  else if c = '\u17D8' then 3
  else if wideRanges.contains c then 2
  else 1

/-! ## Clusters -/

/-- The forms of a character that a variation selector after it can ask for. -/
inductive Form
  | emoji
  | text
  /-- A quotation mark as wide as an ideograph. -/
  | wide
  deriving DecidableEq, Repr

def Form.ofSelector? (c : Char) : Option Form :=
  if c = '\uFE0F' then some .emoji
  else if c = '\uFE0E' then some .text
  else if c = '\uFE01' then some .wide
  else none

structure Forms where
  emoji : Bool
  text : Bool
  wide : Bool
  deriving DecidableEq, Repr

namespace Forms

def nothing : Forms :=
  ⟨false, false, false⟩

def add (forms : Forms) : Form → Forms
  | .emoji => { forms with emoji := true }
  | .text => { forms with text := true }
  | .wide => { forms with wide := true }

def only (form : Form) : Forms :=
  nothing.add form

end Forms

/-- What a sequence of joined emoji begins with, as far as it has been read from its end. -/
inductive JoinedEnd
  | joiner
  | keycap
  | oneRegional
  | evenRegionals
  | oddRegionals
  /-- The end of a subdivision flag: so many of its letters, and of the digits before them. -/
  | tags (letters digits : Nat)
  deriving DecidableEq, Repr

/-- What a cluster begins with, as far as it matters to the character before it. -/
inductive ClusterStart
  | plain
  | lineFeed
  | emoji
  | skinTone
  | regional
  | regionals
  | joined (start : JoinedEnd)
  | vowel (start : VowelEnd)
  /-- The end of a ligature, maybe with a zero-width joiner before it. -/
  | ligature (start : LigatureEnd) (joiner : Bool)
  deriving DecidableEq, Repr

structure Cluster where
  start : ClusterStart
  asked : Forms
  width : Nat
  deriving DecidableEq, Repr

namespace Cluster

/-- A cluster that merges with nothing before it. -/
def plain (width : Nat) : Cluster :=
  ⟨.plain, .nothing, width⟩

@[simp] theorem plain_width (width : Nat) : (plain width).width = width := rfl

def emoji (width : Nat) : Cluster :=
  ⟨.emoji, .nothing, width⟩

/-- Whether `c` is a regional indicator, two of which make a flag. -/
def isRegional (c : Char) : Bool :=
  0x1F1E6 ≤ c.toNat && c.toNat ≤ 0x1F1FF

def isSkinTone (c : Char) : Bool :=
  0x1F3FB ≤ c.toNat && c.toNat ≤ 0x1F3FF

def isLetterTag (c : Char) : Bool :=
  0xE0061 ≤ c.toNat && c.toNat ≤ 0xE007A

def isDigitTag (c : Char) : Bool :=
  0xE0030 ≤ c.toNat && c.toNat ≤ 0xE0039

def isQuotationMark (c : Char) : Bool :=
  c == '‘' || c == '’' || c == '“' || c == '”'

def joiner : Char := '\u200D'

def startOf (c : Char) : ClusterStart :=
  if isRegional c then .regional
  else if isSkinTone c then .skinTone
  else if isEmoji c then .emoji
  else
    match LigatureEnd.ofChar? c, VowelEnd.ofChar? c with
    | some start, _ => .ligature start false
    | none, some start => .vowel start
    | none, none => .plain

/-- The cluster of one character.  In a text, control characters take a column. -/
def ofChar (c : Char) : Cluster :=
  if c = '\n' then ⟨.lineFeed, .nothing, 1⟩
  else if c.toNat ≤ 0xA0 then .plain 1
  else
    match Form.ofSelector? c with
    | some form => ⟨.plain, .only form, 0⟩
    | none => ⟨startOf c, .nothing, charWidth c⟩

/-! ### Selectors -/

/-- Whether a cluster goes on before a selector that asks for a form: ligatures do, and joined
emoji before one that asks for an emoji. -/
def keepsBefore (start : ClusterStart) (form : Form) : Bool :=
  match start, form with
  | .ligature _ _, _ => true
  | .joined .joiner, .emoji => true
  | .joined .keycap, .emoji => true
  | _, _ => false

def joinSelector? (form : Form) (k : Cluster) : Option Cluster :=
  if keepsBefore k.start form then some { k with asked := k.asked.add form } else none

def joinEmoji? (c : Char) (k : Cluster) : Option Cluster :=
  if k.asked.emoji && hasEmojiStyle c then
    match k.start with
    | .joined _ => some (.emoji k.width)
    | _ => some (.emoji (k.width + 2))
  else none

def withoutEmoji (k : Cluster) : Cluster :=
  if k.asked.emoji then
    match k.start with
    | .ligature _ _ => { k with asked := { k.asked with emoji := false } }
    | _ => .plain k.width
  else k

def joinForm? (c : Char) (k : Cluster) : Option Cluster :=
  if k.asked.text && hasNarrowTextStyle c then some (.plain (k.width + 1))
  else if k.asked.wide && isQuotationMark c then some (.plain (k.width + 2))
  else none

def withoutForm (k : Cluster) : Cluster :=
  { k with asked := .nothing }

/-! ### Sequences and ligatures -/

def joinSequence? (c : Char) (start : JoinedEnd) (width : Nat) : Option Cluster :=
  let onward (start : JoinedEnd) (width : Nat) : Option Cluster :=
    some ⟨.joined start, .nothing, width⟩
  match start with
  | .joiner =>
    if c = '\u20E3' then onward .keycap width
    else if isRegional c then onward .oneRegional (width + 1)
    else if isSkinTone c then some ⟨.skinTone, .nothing, width⟩
    else if c.toNat = 0xE007F then onward (.tags 0 0) width
    else if isEmoji c then some (.emoji width)
    else none
  | .keycap => none
  -- Of an even number of indicators the last two are a flag, which the joiner joins.  Of an odd
  -- number the last one stands alone.
  | .oneRegional | .oddRegionals =>
    if isRegional c then onward .evenRegionals (width - 1)
    else if c = joiner ∧ start = .oddRegionals then onward .joiner width
    else none
  | .evenRegionals =>
    if isRegional c then onward .oddRegionals (width + 3)
    else if c = joiner then onward .joiner width
    else none
  | .tags letters digits =>
    if isLetterTag c ∧ digits = 0 ∧ letters < 6 then onward (.tags (letters + 1) 0) width
    else if isDigitTag c ∧ digits < 3 ∧ letters < 5 then onward (.tags letters (digits + 1)) width
    else if c.toNat = 0x1F3F4 ∧ (digits = 3 ∨ digits = 0 ∧ 3 ≤ letters) then some (.emoji width)
    else none

def joinLigature? (c : Char) (start : LigatureEnd) (parted : Bool) (k : Cluster) :
    Option Cluster :=
  if start.passes c then some (if c = joiner then { k with start := .ligature start true } else k)
  else
    match start.join? c parted k.width with
    | some (some longer, width) => some ⟨.ligature longer false, .nothing, width⟩
    | some (none, width) => some (.plain width)
    | none => none

def joinWide? (c : Char) (k : Cluster) : Option Cluster :=
  match k.start with
  | .plain | .lineFeed => none
  | .emoji => if c = joiner then some ⟨.joined .joiner, .nothing, k.width⟩ else none
  | .skinTone =>
    if isSkinToneBase c then some (.emoji k.width)
    else if c = joiner then some ⟨.joined .joiner, .nothing, k.width⟩
    else none
  | .regional => if isRegional c then some ⟨.regionals, .nothing, k.width + 1⟩ else none
  | .regionals =>
    if isRegional c then some ⟨.regionals, .nothing, k.width + 1⟩
    else if c = joiner then some ⟨.joined .joiner, .nothing, k.width⟩
    else none
  | .joined start => joinSequence? c start k.width
  | .vowel start =>
    match start.join? c with
    | some (some longer, added) => some ⟨.vowel longer, .nothing, k.width + added⟩
    | some (none, added) => some (.plain (k.width + added))
    | none => none
  | .ligature start parted => joinLigature? c start parted k

/-- The cluster with one more character in front, if the character merges with it. -/
def join? (c : Char) (k : Cluster) : Option Cluster :=
  match k.joinEmoji? c with
  | some joined => some joined
  | none =>
    let k := k.withoutEmoji
    if c.toNat ≤ 0xA0 then
      if c = '\r' ∧ k.start = .lineFeed then some (.plain k.width) else none
    else
      match Form.ofSelector? c with
      | some form => k.joinSelector? form
      | none =>
        match k.joinForm? c with
        | some joined => some joined
        | none => joinWide? c k.withoutForm

end Cluster

/-! ## Texts -/

/-- A text from some place on: the columns of the clusters after the first, and the first. -/
structure Measure where
  settled : Nat
  cluster : Cluster
  deriving DecidableEq, Repr

namespace Measure

def empty : Measure :=
  ⟨0, .plain 0⟩

def push (c : Char) (m : Measure) : Measure :=
  match m.cluster.join? c with
  | some joined => ⟨m.settled, joined⟩
  | none => ⟨m.settled + m.cluster.width, .ofChar c⟩

def total (m : Measure) : Nat :=
  m.settled + m.cluster.width

end Measure

def measure (text : List Char) : Measure :=
  text.foldr Measure.push .empty

def textWidth (text : List Char) : Nat :=
  (measure text).total

@[simp] theorem textWidth_nil : textWidth [] = 0 := rfl

/-! ## Spaces part clusters -/

theorem Cluster.join?_space (k : Cluster) : k.join? ' ' = none := by
  have hemoji : hasEmojiStyle ' ' = false := by decide
  simp [join?, joinEmoji?, hemoji]

theorem Cluster.join?_plain (c : Char) (width : Nat) : join? c (.plain width) = none := by
  simp only [join?, joinEmoji?, plain, Forms.nothing, withoutEmoji, joinSelector?, keepsBefore,
    joinForm?, withoutForm, joinWide?]
  repeat' split
  all_goals simp_all

/-- After a plain cluster a text is measured as if it stood alone. -/
theorem foldr_push_plain (text : List Char) (settled width : Nat) :
    (text.foldr Measure.push ⟨settled, .plain width⟩).total =
      textWidth text + settled + width := by
  cases hlast : text.reverse with
  | nil =>
    have htext : text = [] := by simpa using hlast
    subst htext
    simp [textWidth, measure, Measure.total, Measure.empty]
  | cons last before =>
    have htext : text = before.reverse ++ [last] := by
      rw [← List.reverse_cons, ← hlast, List.reverse_reverse]
    have shift (cs : List Char) (n : Nat) (m : Measure) :
        cs.foldr Measure.push ⟨n + m.settled, m.cluster⟩ =
          ⟨n + (cs.foldr Measure.push m).settled, (cs.foldr Measure.push m).cluster⟩ := by
      induction cs with
      | nil => rfl
      | cons c cs ih =>
        simp only [List.foldr_cons, ih, Measure.push]
        split <;> simp [Nat.add_assoc]
    subst htext
    have hstart (s w : Nat) : Measure.push last ⟨s, .plain w⟩ =
        ⟨(s + w) + 0, (Measure.push last .empty).cluster⟩ := by
      simp only [Measure.push, Measure.empty, Cluster.join?_plain, Cluster.plain_width,
        Nat.add_zero]
    have hempty : (Measure.push last .empty).settled = 0 := by
      simp [Measure.push, Measure.empty, Cluster.join?_plain]
    simp only [List.foldr_append, List.foldr_cons, List.foldr_nil, textWidth, measure]
    rw [hstart, ← hempty, shift]
    simp only [Measure.total]
    omega

/-- A space adds its own column to the texts around it. -/
theorem textWidth_append_space (left right : List Char) :
    textWidth (left ++ ' ' :: right) = textWidth left + 1 + textWidth right := by
  have hspace : Cluster.ofChar ' ' = .plain 1 := by decide
  have hpush : Measure.push ' ' (measure right) = ⟨textWidth right, .plain 1⟩ := by
    simp [Measure.push, Cluster.join?_space, hspace, textWidth, Measure.total]
  have h : measure (left ++ ' ' :: right) =
      left.foldr Measure.push ⟨textWidth right, .plain 1⟩ := by
    rw [← hpush]
    simp [measure]
  rw [textWidth, h, foldr_push_plain]
  omega

end SqlDraft
