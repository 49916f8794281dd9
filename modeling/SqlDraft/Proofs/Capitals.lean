import SqlDraft.Proofs.SmallLetters

/-!
# Capitals in full

A word is put in capitals before it is compared with the keywords, and `capitals` does so only where
that can bring about a match.  The other letters beyond ASCII have capitals too, of one character or
of more, but always one that no keyword holds: `CapitalTable.ofCapitals?_capitals`.
-/

namespace SqlDraft

/-- The letters beyond ASCII whose capitals are ASCII. -/
def lettersWithAsciiCapitals : List Char :=
  ['ı', 'ſ', 'ß', 'ﬀ', 'ﬁ', 'ﬂ', 'ﬃ', 'ﬄ', 'ﬅ', 'ﬆ']

/-- The table that a word is put in capitals by. -/
structure CapitalTable where
  upper : Char → List Char
  /-- Any other letter beyond ASCII has a capital spelling that is not all ASCII. -/
  upper_foreign : ∀ c, 128 ≤ c.toNat → c ∉ lettersWithAsciiCapitals → ∃ d ∈ upper c, 128 ≤ d.toNat

/-- The table for words without letters beyond ASCII. -/
instance : Inhabited CapitalTable where
  default :=
    { upper := fun c => [c]
      upper_foreign := fun c hc _ => ⟨c, List.mem_singleton_self c, hc⟩ }

namespace CapitalTable

def spell (table : CapitalTable) (c : Char) : List Char :=
  if c.toNat < 128 ∨ c ∈ lettersWithAsciiCapitals then capital c else table.upper c

def capitals (table : CapitalTable) (word : List Char) : List Char :=
  word.flatMap table.spell

end CapitalTable

theorem capital_of_foreign {c : Char} (h : 128 ≤ c.toNat) (hc : c ∉ lettersWithAsciiCapitals) :
    capital c = [c] := by
  have hupper : c.toUpper = c := by
    have hnot : ¬ (97 ≤ c.toNat ∧ c.toNat ≤ 122) := by omega
    unfold Char.toUpper
    split
    next hlower => exact absurd hlower hnot
    next => rfl
  unfold capital
  split <;> simp_all [lettersWithAsciiCapitals]

theorem CapitalTable.exists_mem_spell_of_foreign (table : CapitalTable) {c : Char}
    (h : 128 ≤ c.toNat) (hc : c ∉ lettersWithAsciiCapitals) :
    ∃ d ∈ table.spell c, 128 ≤ d.toNat := by
  unfold CapitalTable.spell
  rw [if_neg (not_or.2 ⟨Nat.not_lt.2 h, hc⟩)]
  exact table.upper_foreign c h hc

/-- Whatever a foreign letter is spelled as, it leaves a character that an ASCII text lacks. -/
theorem flatMap_ne_of_foreign {spell : Char → List Char} {word text : List Char} {c : Char}
    (hc : c ∈ word) (hspell : ∃ d ∈ spell c, 128 ≤ d.toNat) (htext : IsAscii text) :
    word.flatMap spell ≠ text := by
  obtain ⟨d, hd, hforeign⟩ := hspell
  rintro rfl
  have hascii := htext d (List.mem_flatMap.2 ⟨c, hc, hd⟩)
  omega

theorem CapitalTable.capitals_eq_iff (table : CapitalTable) {word text : List Char}
    (htext : IsAscii text) : table.capitals word = text ↔ SqlDraft.capitals word = text := by
  by_cases hforeign : ∃ c ∈ word, 128 ≤ c.toNat ∧ c ∉ lettersWithAsciiCapitals
  · obtain ⟨c, hc, hbeyond, hnot⟩ := hforeign
    have hfull := table.exists_mem_spell_of_foreign hbeyond hnot
    have hplain : ∃ d ∈ capital c, 128 ≤ d.toNat := by
      rw [capital_of_foreign hbeyond hnot]
      exact ⟨c, List.mem_singleton_self c, hbeyond⟩
    exact iff_of_false (flatMap_ne_of_foreign hc hfull htext)
      (flatMap_ne_of_foreign hc hplain htext)
  · have hsame : table.capitals word = SqlDraft.capitals word := by
      unfold CapitalTable.capitals SqlDraft.capitals
      refine List.flatMap_congr fun c hc => ?_
      unfold CapitalTable.spell
      rw [if_pos]
      by_cases hascii : c.toNat < 128
      · exact .inl hascii
      · exact .inr (Decidable.not_not.1 fun hnot => hforeign ⟨c, hc, by omega, hnot⟩)
    rw [hsame]

/-- A word spells the same keyword whether all its letters are put in capitals or only those that
can stand in a keyword. -/
theorem CapitalTable.ofCapitals?_capitals (table : CapitalTable) (word : List Char) :
    Keyword.ofCapitals? (table.capitals word) = Keyword.ofWord? word := by
  have hall : ∀ k ∈ Keyword.all, IsAscii k.spelling.toList := by
    simp only [isAscii_iff]
    decide
  have hfits : (fun k : Keyword => k.spelling.toList == table.capitals word) =
      fun k => k.spelling.toList == SqlDraft.capitals word := by
    funext k
    rw [Bool.eq_iff_iff, beq_iff_eq, beq_iff_eq, eq_comm, eq_comm (a := k.spelling.toList)]
    exact table.capitals_eq_iff (hall k k.mem_all)
  unfold Keyword.ofWord? Keyword.ofCapitals?
  rw [hfits]

example :
    Keyword.ofCapitals? ((default : CapitalTable).capitals "inſert".toList) = some .INSERT := by
  decide

end SqlDraft
