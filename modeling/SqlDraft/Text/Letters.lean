/-!
# Case of letters

Names are equal when they differ in the case of ASCII letters only.  Words that are compared with
fixed ASCII words are capitalised or lowered first; of the letters beyond ASCII only those whose
other case is ASCII can bring about a match, so only those are mapped.
-/

namespace SqlDraft

/-- Equality of names up to the case of ASCII letters. -/
def sameName (a b : String) : Bool :=
  a.toList.map Char.toLower == b.toList.map Char.toLower

@[simp] theorem sameName_refl (a : String) : sameName a a = true := by
  simp [sameName]

theorem sameName_symm {a b : String} (h : sameName a b = true) : sameName b a = true := by
  simp only [sameName, beq_iff_eq] at h ⊢
  exact h.symm

theorem sameName_trans {a b c : String} (hab : sameName a b = true) (hbc : sameName b c = true) :
    sameName a c = true := by
  simp only [sameName, beq_iff_eq] at hab hbc ⊢
  exact hab.trans hbc

/-- The capital spelling of a character, as far as it is ASCII.  Dotless and long letters and the
typographic ligatures have ASCII capitals. -/
def capital (c : Char) : List Char :=
  match c with
  | 'ı' => ['I']
  | 'ſ' => ['S']
  | 'ß' => ['S', 'S']
  | 'ﬀ' => ['F', 'F']
  | 'ﬁ' => ['F', 'I']
  | 'ﬂ' => ['F', 'L']
  | 'ﬃ' => ['F', 'F', 'I']
  | 'ﬄ' => ['F', 'F', 'L']
  | 'ﬅ' => ['S', 'T']
  | 'ﬆ' => ['S', 'T']
  | _ => [c.toUpper]

/-- The small spelling of a character, as far as it is ASCII.  The Kelvin sign is a small `k`; a
capital `I` with a dot keeps the dot as a combining mark. -/
def small (c : Char) : List Char :=
  match c with
  | '\u212A' => ['k']
  | 'İ' => ['i', '\u0307']
  | _ => [c.toLower]

def capitals (text : List Char) : List Char :=
  text.flatMap capital

def smalls (text : List Char) : List Char :=
  text.flatMap small

theorem smalls_append (s t : List Char) : smalls (s ++ t) = smalls s ++ smalls t := by
  simp [smalls]

end SqlDraft
