import SqlDraft.Display.Classes

/-!
# Ligatures of scripts

The letters that merge with letters before them into one column, the characters that may stand
between such letters without parting them, and the vowel signs that are composed of others.
-/

namespace SqlDraft

/-- The zero-width characters that part Arabic letters: those that letters do not join across. -/
def partingRanges : CharRanges :=
  [(0x605, 0x605), (0x890, 0x891), (0x8E2, 0x8E2), (0x9BE, 0x9BE), (0x9D7, 0x9D7), (0xB3E, 0xB3E),
   (0xB57, 0xB57), (0xBBE, 0xBBE), (0xBD7, 0xBD7), (0xCC0, 0xCC0), (0xCC2, 0xCC2), (0xCC7, 0xCC8),
   (0xCCA, 0xCCB), (0xCD5, 0xCD6), (0xD3E, 0xD3E), (0xD4E, 0xD4E), (0xD57, 0xD57), (0xDCF, 0xDCF),
   (0xDDF, 0xDDF), (0x1160, 0x11FF), (0x1715, 0x1715), (0x1734, 0x1734), (0x180E, 0x180E),
   (0x1B35, 0x1B35), (0x1B3B, 0x1B3B), (0x1B3D, 0x1B3D), (0x1B43, 0x1B44), (0x1BAA, 0x1BAA),
   (0x1BF2, 0x1BF3), (0x200C, 0x200D), (0x2065, 0x2069), (0x302E, 0x302F), (0x3164, 0x3164),
   (0xA8FA, 0xA8FA), (0xA953, 0xA953), (0xA9C0, 0xA9C0), (0xD7B0, 0xD7C6), (0xD7CB, 0xD7FB),
   (0xFFA0, 0xFFA0), (0xFFF0, 0xFFF8), (0x111C0, 0x111C0), (0x111C2, 0x111C3), (0x11235, 0x11235),
   (0x1133E, 0x1133E), (0x1134D, 0x1134D), (0x11357, 0x11357), (0x113B8, 0x113B8),
   (0x113C2, 0x113C2), (0x113C5, 0x113C5), (0x113C7, 0x113C9), (0x113CF, 0x113CF),
   (0x113D1, 0x113D1), (0x114B0, 0x114B0), (0x114BD, 0x114BD), (0x115AF, 0x115AF),
   (0x116B6, 0x116B6), (0x11930, 0x11930), (0x1193D, 0x1193D), (0x1193F, 0x1193F),
   (0x11941, 0x11941), (0x11A84, 0x11A89), (0x11D46, 0x11D46), (0x11F02, 0x11F02),
   (0x11F41, 0x11F41), (0x16FF0, 0x16FF1), (0x1D165, 0x1D166), (0x1D16D, 0x1D172),
   (0x1D250, 0x1D252), (0x1D25F, 0x1D25F), (0x1D280, 0x1D281), (0xE0000, 0xE0000),
   (0xE0002, 0xE001F), (0xE0080, 0xE00FF), (0xE01F0, 0xE0FFF)]

def alefRanges : CharRanges :=
  [(0x622, 0x623), (0x625, 0x625), (0x627, 0x627), (0x671, 0x673), (0x675, 0x675),
   (0x773, 0x774), (0x870, 0x882)]

def lamRanges : CharRanges :=
  [(0x644, 0x644), (0x6B5, 0x6B8), (0x76A, 0x76A), (0x8A6, 0x8A6), (0x8C7, 0x8C7)]

def subscriptKhmerRanges : CharRanges :=
  [(0x1780, 0x1782), (0x1784, 0x1787), (0x1789, 0x178C), (0x178E, 0x1793), (0x1795, 0x1798),
   (0x179B, 0x179D), (0x17A0, 0x17A0), (0x17A2, 0x17A2), (0x17A7, 0x17A7), (0x17AB, 0x17AC),
   (0x17AF, 0x17AF)]

def tifinaghRanges : CharRanges :=
  [(0x2D31, 0x2D65), (0x2D6F, 0x2D6F)]

/-- The marks that are ignored between the letters of ligatures other than Arabic ones. -/
def ignoredMarkRanges : CharRanges :=
  [(0x34F, 0x34F), (0x17B4, 0x17B5), (0x180B, 0x180D), (0x180F, 0x180F), (0x200D, 0x200D),
   (0xFE00, 0xFE0F), (0xE0100, 0xE01EF)]

/-- A letter, or what a ligature begins with as far as it has been read from its end. -/
inductive LigatureEnd
  | alef
  | lamed
  | khmerLetter
  | ya
  /-- A Buginese vowel sign, a joiner and `ya`. -/
  | vowelYa
  | tifinaghConsonant
  | tifinaghJoiner
  | lisuTone
  | orkhonI
  deriving DecidableEq, Repr

namespace LigatureEnd

def ofChar? (c : Char) : Option LigatureEnd :=
  if alefRanges.contains c then some alef
  else if c = '\u05DC' then some lamed
  else if subscriptKhmerRanges.contains c then some khmerLetter
  else if c = '\u1A10' then some ya
  else if tifinaghRanges.contains c then some tifinaghConsonant
  else if c = '\uA4FC' ∨ c = '\uA4FD' then some lisuTone
  else if c = Char.ofNat 0x10C03 then some orkhonI
  else none

/-- Joins a character to the ligature after it, which takes `width` columns so far: what the
ligature begins with then, if it can grow further, and its columns.  `joiner` tells whether a
zero-width joiner stands between. -/
def join? (c : Char) (joiner : Bool) (width : Nat) :
    LigatureEnd → Option (Option LigatureEnd × Nat)
  | alef =>
    if lamRanges.contains c then some (none, width)
    else if zeroWidthRanges.contains c && !partingRanges.contains c then some (some alef, width)
    else none
  | lamed =>
    if joiner && c == '\u05D0' then some (none, width) else none
  | khmerLetter =>
    if c = '\u17D2' then some (none, width - 1) else none
  | ya =>
    if joiner && c == '\u1A17' then some (some vowelYa, width) else none
  | vowelYa =>
    if c = '\u1A15' then some (none, width) else none
  | tifinaghConsonant =>
    if c = '\u2D7F' then some (some tifinaghJoiner, width + 1)
    else if joiner && tifinaghRanges.contains c then some (none, width)
    else none
  | tifinaghJoiner =>
    if tifinaghRanges.contains c then some (none, width - 1) else none
  | lisuTone =>
    if '\uA4F8' ≤ c ∧ c ≤ '\uA4FB' then some (none, width) else none
  | orkhonI =>
    if joiner && c == Char.ofNat 0x10C32 then some (none, width) else none

/-- Whether a character may stand anywhere in a ligature.  In Arabic ones only the marks may that
letters join across. -/
def passes (c : Char) : LigatureEnd → Bool
  | alef => false
  | _ => ignoredMarkRanges.contains c

end LigatureEnd

/-! ## Vowel signs -/

inductive VowelEnd
  | e
  | ai
  deriving DecidableEq, Repr

namespace VowelEnd

def ofChar? (c : Char) : Option VowelEnd :=
  if c = Char.ofNat 0x16D67 then some e
  else if c = Char.ofNat 0x16D68 then some ai
  else none

/-- Joins a sign to the vowel sign after it: what the whole begins with then, if it can grow
further, and the columns that the sign adds. -/
def join? (c : Char) : VowelEnd → Option (Option VowelEnd × Nat)
  | e =>
    if c = Char.ofNat 0x16D63 ∨ c = Char.ofNat 0x16D69 then some (none, 0)
    else if c = Char.ofNat 0x16D67 then some (some ai, 0)
    else if c = Char.ofNat 0x16D68 then some (some e, 1)
    else none
  | ai =>
    if c = Char.ofNat 0x16D63 then some (none, 0) else none

end VowelEnd

end SqlDraft
