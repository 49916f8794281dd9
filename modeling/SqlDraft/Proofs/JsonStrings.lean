import SqlDraft.Json.Text

/-!
# Strings as JSON spells them

A character of a JSON string stands for itself or is spelled by an escape: a letter, a code unit, or
the two code units of a character beyond the first 65536.  `text_of_spelled` says that a string is
read as what it spells, however it is spelled, and `spelled_escape` that the writer spells it.
-/

namespace SqlDraft.Json

/-- The letters that may follow a backslash, `u` apart, with the characters that they stand for. -/
def shortEscapes : List (Char × Char) :=
  [('"', '"'), ('\\', '\\'), ('/', '/'), ('b', '\x08'), ('f', '\x0c'), ('n', '\n'), ('r', '\r'),
   ('t', '\t')]

/-- Whether a character is the hexadecimal digit of a value, small or capital. -/
def IsHexDigit (value : Nat) (c : Char) : Prop :=
  value < 16 ∧ (c = Nat.digitChar value ∨ c = (Nat.digitChar value).toUpper)

/-- The texts of four hexadecimal digits that spell a number. -/
inductive HexText : Nat → List Char → Prop
  | digits {i j k l : Nat} {a b c d : Char} (ha : IsHexDigit i a) (hb : IsHexDigit j b)
      (hc : IsHexDigit k c) (hd : IsHexDigit l d) :
      HexText (((i * 16 + j) * 16 + k) * 16 + l) [a, b, c, d]

/-- The texts that may follow `\u`, with the characters that they stand for: the four digits of a
character, or those of its two surrogates with another `\u` between them. -/
inductive UnicodeText : Char → List Char → Prop
  | unit {c : Char} {digits : List Char} (h : HexText c.toNat digits) : UnicodeText c digits
  | pair {c : Char} {high low : Nat} {first second : List Char} (hhigh : high < 0x400)
      (hlow : low < 0x400) (hc : c.toNat = 0x10000 + high * 0x400 + low)
      (hfirst : HexText (0xD800 + high) first) (hsecond : HexText (0xDC00 + low) second) :
      UnicodeText c (first ++ '\\' :: 'u' :: second)

/-- The texts between the quotes of a string, with the characters that they spell.  The texts that
may follow `\u` are given. -/
inductive Spelled (unicode : Char → List Char → Prop) : List Char → List Char → Prop
  | nil : Spelled unicode [] []
  | plain {c : Char} {s body : List Char} (hquote : c ≠ '"') (hbackslash : c ≠ '\\')
      (hcontrol : 32 ≤ c.toNat) (h : Spelled unicode s body) : Spelled unicode (c :: s) (c :: body)
  | short {letter c : Char} {s body : List Char} (hescape : (letter, c) ∈ shortEscapes)
      (h : Spelled unicode s body) : Spelled unicode (c :: s) ('\\' :: letter :: body)
  | unicode {c : Char} {digits s body : List Char} (hdigits : unicode c digits)
      (h : Spelled unicode s body) :
      Spelled unicode (c :: s) ('\\' :: 'u' :: (digits ++ body))

/-- Whether a text between quotes makes a string, be it one of whole characters or not. -/
def IsStringBody (body : List Char) : Prop :=
  ∃ s, Spelled (fun _ digits => ∃ n, HexText n digits) s body

theorem spelled_self {unicode : Char → List Char → Prop} {s : List Char}
    (h : ∀ c ∈ s, c ≠ '"' ∧ c ≠ '\\' ∧ 32 ≤ c.toNat) : Spelled unicode s s := by
  induction s with
  | nil => exact .nil
  | cons c s ih =>
    obtain ⟨⟨hquote, hbackslash, hcontrol⟩, h⟩ := List.forall_mem_cons.1 h
    exact .plain hquote hbackslash hcontrol (ih h)

/-! ## Reading -/

theorem hexValue?_of_isHexDigit {value : Nat} {c : Char} (h : IsHexDigit value c) :
    hexValue? c = some value := by
  have hall : ∀ v < 16, hexValue? (Nat.digitChar v) = some v ∧
      hexValue? (Nat.digitChar v).toUpper = some v := by decide
  obtain ⟨hlt, rfl | rfl⟩ := h
  · exact (hall value hlt).1
  · exact (hall value hlt).2

theorem hexNumber_of_hexText {n : Nat} {digits : List Char} (h : HexText n digits)
    (rest : List Char) : hexNumber (digits ++ rest) = .ok n := by
  cases h with
  | digits ha hb hc hd =>
    simp only [List.cons_append, List.nil_append, hexNumber, hexValue?_of_isHexDigit ha,
      hexValue?_of_isHexDigit hb, hexValue?_of_isHexDigit hc, hexValue?_of_isHexDigit hd]

theorem HexText.length {n : Nat} {digits : List Char} (h : HexText n digits) :
    digits.length = 4 := by
  cases h
  rfl

/-- No character is a surrogate. -/
theorem not_surrogate (c : Char) :
    isLeadingSurrogate c.toNat = false ∧ isTrailingSurrogate c.toNat = false := by
  have hvalid : c.toNat < 0xD800 ∨ 0xDFFF < c.toNat ∧ c.toNat < 0x110000 := c.valid
  simp only [isLeadingSurrogate, isTrailingSurrogate, Bool.and_eq_false_iff,
    decide_eq_false_iff_not]
  omega

theorem unicodeEscape_of_unicodeText {c : Char} {digits : List Char} (h : UnicodeText c digits)
    (rest : List Char) : unicodeEscape (digits ++ rest) = .ok (c, digits.length) := by
  cases h with
  | unit hdigits =>
    obtain ⟨hleading, htrailing⟩ := not_surrogate c
    simp only [unicodeEscape, hexNumber_of_hexText hdigits, bind, Except.bind, hleading, htrailing,
      Bool.false_eq_true, ↓reduceIte, Char.ofNat_toNat, hdigits.length]
    rfl
  | @pair high low first second hhigh hlow hc hfirst hsecond =>
    have hleading : isLeadingSurrogate (0xD800 + high) = true := by
      simp only [isLeadingSurrogate, Bool.and_eq_true, decide_eq_true_eq]
      omega
    have hnot : isTrailingSurrogate (0xD800 + high) = false := by
      simp only [isTrailingSurrogate, Bool.and_eq_false_iff, decide_eq_false_iff_not]
      omega
    have htrailing : isTrailingSurrogate (0xDC00 + low) = true := by
      simp only [isTrailingSurrogate, Bool.and_eq_true, decide_eq_true_eq]
      omega
    have hpair : surrogatePair (0xD800 + high) (0xDC00 + low) = c := by
      rw [surrogatePair, show 0x10000 + (0xD800 + high - 0xD800) * 0x400 + (0xDC00 + low - 0xDC00) =
        c.toNat by omega, Char.ofNat_toNat]
    have hdrop : (first ++ ('\\' :: 'u' :: second ++ rest)).drop 4 =
        '\\' :: 'u' :: (second ++ rest) := by
      rw [List.drop_left' hfirst.length]
      rfl
    rw [List.append_assoc]
    simp only [unicodeEscape, hexNumber_of_hexText hfirst, hexNumber_of_hexText hsecond, bind,
      Except.bind, hnot, hleading, htrailing, hpair, hdrop, Bool.false_eq_true, ↓reduceIte,
      List.length_append, List.length_cons, hfirst.length, hsecond.length]
    rfl

/-- What belongs to an escape is passed over. -/
theorem textAfter_append (rule : UnicodeRule) (front cs : List Char) :
    textAfter rule front.length (front ++ cs) = textAfter rule 0 cs := by
  induction front with
  | nil => rfl
  | cons c front ih => exact ih

theorem textAfter_of_spelled {unicode : Char → List Char → Prop} {rule : UnicodeRule}
    (hrule : ∀ c digits rest, unicode c digits → rule (digits ++ rest) = .ok (c, digits.length))
    {s body : List Char} (h : Spelled unicode s body) (rest : List Char) :
    textAfter rule 0 (body ++ '"' :: rest) = .ok (s, rest) := by
  induction h with
  | nil => rfl
  | @plain c s body hquote hbackslash hcontrol _ ih =>
    rw [List.cons_append, textAfter, if_neg hquote, if_neg hbackslash,
      if_neg (Nat.not_lt.2 hcontrol), ih]
    rfl
  | @short letter c s body hescape _ ih =>
    have hall : ∀ e ∈ shortEscapes, e.1 ≠ 'u' ∧ shortEscape? e.1 = some e.2 := by decide
    obtain ⟨hletter, hshort⟩ := hall _ hescape
    have hescaped : escaped rule (letter :: (body ++ '"' :: rest)) = .ok (c, 1) := by
      simp only [escaped, if_neg hletter, hshort]
    have hbody : textAfter rule 1 (letter :: (body ++ '"' :: rest)) = .ok (s, rest) := ih
    rw [List.cons_append, List.cons_append, textAfter, if_neg (by decide), if_pos rfl, hescaped]
    simp only [hbody]
    rfl
  | @unicode c digits s body hdigits _ ih =>
    -- The reader counts the characters of the escape and passes over them one by one.
    have hescaped : escaped rule ('u' :: (digits ++ (body ++ '"' :: rest))) =
        .ok (c, digits.length + 1) := by
      simp only [escaped, ↓reduceIte, hrule c digits _ hdigits]
      rfl
    have hbody : textAfter rule (digits.length + 1) ('u' :: (digits ++ (body ++ '"' :: rest))) =
        .ok (s, rest) :=
      (textAfter_append rule digits _).trans ih
    rw [List.cons_append, List.cons_append, List.append_assoc, textAfter, if_neg (by decide),
      if_pos rfl, hescaped]
    simp only [hbody]
    rfl

/-- A string is read as what it spells. -/
theorem text_of_spelled {s body : List Char} (h : Spelled UnicodeText s body) (rest : List Char) :
    text (body ++ '"' :: rest) = .ok (s, rest) :=
  textAfter_of_spelled (fun _ _ rest h => unicodeEscape_of_unicodeText h rest) h rest

/-- What code units count as has no say in where a string ends. -/
theorem Spelled.exists_of_imp {unicode other : Char → List Char → Prop}
    (himp : ∀ c digits, unicode c digits → ∃ d, other d digits) {s body : List Char}
    (h : Spelled unicode s body) : ∃ s', Spelled other s' body := by
  induction h with
  | nil => exact ⟨[], .nil⟩
  | @plain c _ _ hquote hbackslash hcontrol _ ih =>
    obtain ⟨s', h'⟩ := ih
    exact ⟨c :: s', .plain hquote hbackslash hcontrol h'⟩
  | @short _ c _ _ hescape _ ih =>
    obtain ⟨s', h'⟩ := ih
    exact ⟨c :: s', .short hescape h'⟩
  | unicode hdigits _ ih =>
    obtain ⟨s', h'⟩ := ih
    obtain ⟨d, hd⟩ := himp _ _ hdigits
    exact ⟨d :: s', .unicode hd h'⟩

theorem skipText_of_isStringBody {body : List Char} (h : IsStringBody body) (rest : List Char) :
    skipText (body ++ '"' :: rest) = .ok rest := by
  obtain ⟨s, h⟩ := h
  -- The reader that skips takes every code unit for a blank.
  let rule : UnicodeRule := fun cs => (hexNumber cs).map fun _ => (' ', 4)
  let blank (c : Char) (digits : List Char) : Prop := c = ' ' ∧ ∃ n, HexText n digits
  have hrule : ∀ (c : Char) (digits rest : List Char), blank c digits →
      rule (digits ++ rest) = .ok (c, digits.length) := by
    rintro c digits rest ⟨rfl, n, hn⟩
    dsimp only [rule]
    rw [hexNumber_of_hexText hn, hn.length]
    rfl
  have himp : ∀ (c : Char) (digits : List Char), (∃ n, HexText n digits) → ∃ d, blank d digits :=
    fun _ _ hn => ⟨' ', rfl, hn⟩
  obtain ⟨s', h'⟩ := h.exists_of_imp himp
  exact congrArg (Except.map Prod.snd) (textAfter_of_spelled hrule h' rest)

/-! ## Writing -/

theorem hexText_of_control {c : Char} (h : c.toNat < 32) :
    HexText c.toNat ['0', '0', hexDigit (c.toNat / 16), hexDigit (c.toNat % 16)] := by
  have hzero : IsHexDigit 0 '0' := ⟨by decide, .inl rfl⟩
  have hdigits : HexText (((0 * 16 + 0) * 16 + c.toNat / 16) * 16 + c.toNat % 16)
      ['0', '0', hexDigit (c.toNat / 16), hexDigit (c.toNat % 16)] :=
    .digits hzero hzero ⟨by omega, .inl rfl⟩ ⟨by omega, .inl rfl⟩
  rwa [show ((0 * 16 + 0) * 16 + c.toNat / 16) * 16 + c.toNat % 16 = c.toNat by omega] at hdigits

theorem spelled_escape_append (c : Char) {s body : List Char} (h : Spelled UnicodeText s body) :
    Spelled UnicodeText (c :: s) (escape c ++ body) := by
  have short {letter : Char} (hescape : (letter, c) ∈ shortEscapes) :
      Spelled UnicodeText (c :: s) (['\\', letter] ++ body) := .short hescape h
  unfold escape
  split
  next hc => exact short (by rw [hc]; decide)
  next hquote =>
  split
  next hc => exact short (by rw [hc]; decide)
  next hbackslash =>
  split
  next hc => exact short (by rw [hc]; decide)
  split
  next hc => exact short (by rw [hc]; decide)
  split
  next hc => exact short (by rw [hc]; decide)
  split
  next hc => exact short (by rw [hc]; decide)
  split
  next hc => exact short (by rw [hc]; decide)
  split
  next hcontrol => exact .unicode (.unit (hexText_of_control hcontrol)) h
  next hcontrol => exact .plain hquote hbackslash (Nat.le_of_not_lt hcontrol) h

theorem spelled_escape (s : List Char) : Spelled UnicodeText s (s.flatMap escape) := by
  induction s with
  | nil => exact .nil
  | cons c s ih =>
    rw [List.flatMap_cons]
    exact spelled_escape_append c ih

end SqlDraft.Json
