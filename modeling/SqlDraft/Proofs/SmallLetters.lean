import SqlDraft.Proofs.LetterCase
import SqlDraft.Roadmap.Basic

/-!
# Small letters in full

A question and a type text are put in small letters before they are read, and `smalls` does so only
where that can bring about a match.  Letters beyond ASCII have small letters too, and that of a
sigma hangs on the text around it.  What is looked for is ASCII, so none of this makes a difference
to a roadmap or to a type: `LetterTables.ofQuestion_question`, `LetterTables.ofSmalls_lowerAfter`.
-/

namespace SqlDraft

/-! ## Lowering all letters -/

/-- The tables that a text is put in small letters by. -/
structure LetterTables where
  lower : Char → Char
  cased : Char → Bool
  /-- Whether a character is passed over where the end of a word is looked for. -/
  ignorable : Char → Bool
  /-- The Kelvin sign and the dotted `I` are the only ones whose small spelling holds ASCII. -/
  lower_foreign : ∀ c, 128 ≤ c.toNat → c ∉ ['\u212A', 'İ'] →
    128 ≤ (lower c).toNat ∧ isAlphanumeric (lower c) = isAlphanumeric c

/-- Tables for texts without letters beyond ASCII. -/
instance : Inhabited LetterTables where
  default :=
    { lower := id
      cased := Char.isAlpha
      ignorable := fun c => c ∈ ['\'', '.', ':', '^', '\x60']
      lower_foreign := fun _ hc _ => ⟨hc, rfl⟩ }

namespace LetterTables

/-- Whether a word ends between two texts, the first of which is given from its end on. -/
def endsWord (tables : LetterTables) (before after : List Char) : Bool :=
  (before.find? fun c => !tables.ignorable c).any tables.cased &&
    !(after.find? fun c => !tables.ignorable c).any tables.cased

/-- The small spelling of a character between two texts.  A sigma that ends a word has one of its
own. -/
def spell (tables : LetterTables) (before : List Char) (c : Char) (after : List Char) : List Char :=
  if c.toNat < 128 ∨ c ∈ ['\u212A', 'İ'] then small c
  else if c = 'Σ' then [if tables.endsWord before after then 'ς' else 'σ']
  else [tables.lower c]

/-- A text in small letters, where `before` stands in front of it and is given from its end on. -/
def lowerAfter (tables : LetterTables) (before : List Char) : List Char → List Char
  | [] => []
  | c :: cs => tables.spell before c cs ++ tables.lowerAfter (c :: before) cs

/-- The question that a text asks, with all its letters small. -/
def question (tables : LetterTables) (text : String) : Question :=
  ⟨words (tables.lowerAfter [] text.toList)⟩

end LetterTables

/-! ## Characters that no term holds -/

/-- Whether two characters are one, or both stand in the same places of words and in no term. -/
def Alike (c d : Char) : Prop :=
  c = d ∨ (128 ≤ c.toNat ∧ 128 ≤ d.toNat ∧ isAlphanumeric c = isAlphanumeric d)

theorem Alike.isAlphanumeric_eq {c d : Char} (h : Alike c d) :
    isAlphanumeric c = isAlphanumeric d := by
  rcases h with rfl | ⟨-, -, h⟩
  · rfl
  · exact h

theorem Alike.eq_iff {c d e : Char} (h : Alike c d) (he : e.toNat < 128) : c = e ↔ d = e := by
  rcases h with rfl | ⟨hc, hd, -⟩
  · rfl
  · have hne {c : Char} (hc : 128 ≤ c.toNat) : c ≠ e := by
      rintro rfl
      omega
    exact iff_of_false (hne hc) (hne hd)

theorem forall₂_alike_refl (text : List Char) : List.Forall₂ Alike text text :=
  List.forall₂_same.2 fun _ _ => .inl rfl

theorem small_of_foreign {c : Char} (h : 128 ≤ c.toNat) (hc : c ∉ ['\u212A', 'İ']) :
    small c = [c] := by
  unfold small
  split
  · exact absurd (List.mem_cons_self ..) hc
  · exact absurd (List.mem_cons_of_mem _ (List.mem_cons_self ..)) hc
  · rw [toLower_of_not_upper (by omega)]

theorem LetterTables.alike_spell (tables : LetterTables) (before : List Char) (c : Char)
    (after : List Char) : List.Forall₂ Alike (tables.spell before c after) (small c) := by
  unfold spell
  split
  next => exact forall₂_alike_refl _
  next hforeign =>
    obtain ⟨hascii, hc⟩ := not_or.1 hforeign
    have hascii : 128 ≤ c.toNat := Nat.le_of_not_lt hascii
    rw [small_of_foreign hascii hc]
    split
    next hsigma =>
      -- Either small sigma will do, so it does not matter where the word ends.
      subst hsigma
      refine .cons (.inr ?_) .nil
      split <;> decide +kernel
    next =>
      obtain ⟨hlower, hclass⟩ := tables.lower_foreign c hascii hc
      exact .cons (.inr ⟨hlower, hascii, hclass⟩) .nil

theorem LetterTables.alike_lowerAfter (tables : LetterTables) (before text : List Char) :
    List.Forall₂ Alike (tables.lowerAfter before text) (smalls text) := by
  induction text generalizing before with
  | nil => exact .nil
  | cons c cs ih => exact List.rel_append (tables.alike_spell before c cs) (ih (c :: before))

/-! ## Words and terms -/

theorem isEmpty_eq_of_forall₂ {α β : Type} {r : α → β → Prop} {xs : List α} {ys : List β}
    (h : List.Forall₂ r xs ys) : xs.isEmpty = ys.isEmpty := by
  cases h <;> rfl

theorem leadingWord_alike {s t : List Char} (h : List.Forall₂ Alike s t) :
    List.Forall₂ Alike (leadingWord s).1 (leadingWord t).1 ∧
      List.Forall₂ (List.Forall₂ Alike) (leadingWord s).2 (leadingWord t).2 := by
  induction h with
  | nil => exact ⟨.nil, .nil⟩
  | @cons c d s t hfirst _ ih =>
    obtain ⟨hword, hlater⟩ := ih
    simp only [leadingWord, hfirst.isAlphanumeric_eq, isEmpty_eq_of_forall₂ hword]
    split
    · exact ⟨.cons hfirst hword, hlater⟩
    · refine ⟨.nil, ?_⟩
      split
      · exact hlater
      · exact .cons hword hlater

theorem words_alike {s t : List Char} (h : List.Forall₂ Alike s t) :
    List.Forall₂ (List.Forall₂ Alike) (words s) (words t) := by
  obtain ⟨hword, hlater⟩ := leadingWord_alike h
  simp only [words, isEmpty_eq_of_forall₂ hword]
  split
  · exact hlater
  · exact .cons hword hlater

def IsAscii (text : List Char) : Prop :=
  ∀ c ∈ text, c.toNat < 128

theorem isAscii_iff {text : List Char} :
    IsAscii text ↔ (text.all fun c => c.toNat < 128) = true := by
  simp only [IsAscii, List.all_eq_true, decide_eq_true_eq]

theorem eq_iff_of_alike {s t text : List Char} (h : List.Forall₂ Alike s t) (htext : IsAscii text) :
    s = text ↔ t = text := by
  induction h generalizing text with
  | nil => rfl
  | cons hfirst _ ih =>
    cases text with
    | nil => simp
    | cons e text =>
      obtain ⟨he, htext⟩ := List.forall_mem_cons.1 htext
      rw [List.cons.injEq, List.cons.injEq, hfirst.eq_iff he, ih htext]

theorem afterBeginning?_eq_some_iff {beginning text rest : List Char} :
    afterBeginning? beginning text = some rest ↔ text = beginning ++ rest := by
  rw [afterBeginning?]
  split
  next h =>
    obtain ⟨later, rfl⟩ := List.isPrefixOf_iff_prefix.1 h
    rw [List.drop_left, Option.some.injEq, List.append_cancel_left_eq]
  next h =>
    refine iff_of_false nofun ?_
    rintro rfl
    exact h (List.isPrefixOf_iff_prefix.2 (List.prefix_append _ _))

theorem inflects_iff {word : List Char} {termWord : String} :
    inflects word termWord = true ↔ word = termWord.toList ∨
      4 ≤ termWord.toList.length ∧ ∃ e ∈ endings, word = stem termWord.toList ++ e.toList := by
  unfold inflects
  dsimp only
  split
  next h => exact iff_of_true rfl (.inl (beq_iff_eq.1 h))
  next hword =>
    rw [or_iff_right (mt beq_iff_eq.2 hword)]
    split
    next hshort => exact iff_of_false Bool.false_ne_true fun h => absurd h.1 (Nat.not_le.2 hshort)
    next hlong =>
      rw [and_iff_right (Nat.le_of_not_lt hlong)]
      simp only [← afterBeginning?_eq_some_iff]
      cases afterBeginning? (stem termWord.toList) word with
      | none => exact iff_of_false Bool.false_ne_true nofun
      | some ending =>
        refine List.any_eq_true.trans (exists_congr fun e => and_congr_right fun _ => ?_)
        rw [beq_iff_eq, Option.some.injEq, eq_comm]

theorem inflects_alike {s t : List Char} {termWord : String} (hascii : IsAscii termWord.toList)
    (h : List.Forall₂ Alike s t) : inflects s termWord = inflects t termWord := by
  have hstem : IsAscii (stem termWord.toList) := by
    unfold stem
    split
    · exact fun c hc => hascii c (List.dropLast_subset _ hc)
    · exact hascii
  have hending : ∀ e ∈ endings, IsAscii e.toList := by
    simp only [isAscii_iff]
    decide
  rw [Bool.eq_iff_iff, inflects_iff, inflects_iff, eq_iff_of_alike h hascii]
  refine or_congr_right (and_congr_right fun _ => exists_congr fun e =>
    and_congr_right fun he => ?_)
  apply eq_iff_of_alike h
  intro c hc
  rcases List.mem_append.1 hc with hc | hc
  · exact hstem c hc
  · exact hending e he c hc

/-- A run of ASCII characters occurs in a text or not whatever other characters stand for those that
no run holds. -/
theorem occurs_alike {s t run : List Char} (hrun : IsAscii run) (h : List.Forall₂ Alike s t) :
    occurs run s = occurs run t := by
  refine occursBy_congr (fun c hc d e hsame => ?_) h
  rw [Bool.eq_iff_iff, beq_iff_eq, beq_iff_eq]
  exact hsame.eq_iff (hrun c hc)

theorem headD_alike {s t : List (List Char)} (h : List.Forall₂ (List.Forall₂ Alike) s t) :
    List.Forall₂ Alike (s.headD []) (t.headD []) := by
  cases h with
  | nil => exact .nil
  | cons hfirst _ => exact hfirst

theorem Question.mentions_alike {q r : Question} {terms : List Term}
    (hascii : ∀ term ∈ terms, ∀ word ∈ term, IsAscii word.toList)
    (h : List.Forall₂ (List.Forall₂ Alike) q.words r.words) :
    q.mentions terms = r.mentions terms := by
  refine any_congr_of_mem fun term hterm => occursBy_congr (fun word hword s t halike => ?_) h
  exact inflects_alike (hascii term hterm word hword) halike

namespace Roadmap

def termLists : List (List Term) :=
  [createTerms, aggregateTerms, deleteTerms, selectTerms, aliasTerms, filterTerms]

theorem ofQuestion_congr {q r : Question}
    (h : ∀ terms ∈ termLists, q.mentions terms = r.mentions terms) :
    ofQuestion q = ofQuestion r := by
  simp only [termLists, List.forall_mem_cons] at h
  obtain ⟨hcreate, haggregate, hdelete, hselect, halias, hfilter, -⟩ := h
  have hcategory : categoryOf? q = categoryOf? r := by
    rw [categoryOf?, categoryOf?, hcreate, haggregate, hdelete, hselect]
  have hsteps (category : Category) : stepsFor q category = stepsFor r category := by
    cases category <;> simp only [stepsFor, halias, hfilter]
  simp only [ofQuestion, hcategory, hsteps]

end Roadmap

/-- The roadmap for a question is the same whether all its letters are put small or only those that
can stand in a term. -/
theorem LetterTables.ofQuestion_question (tables : LetterTables) (text : String) :
    Roadmap.ofQuestion (tables.question text) = Roadmap.forQuestion text := by
  have hascii : ∀ terms ∈ Roadmap.termLists, ∀ term ∈ terms, ∀ word ∈ term,
      IsAscii word.toList := by
    simp only [isAscii_iff]
    decide +kernel
  apply Roadmap.ofQuestion_congr
  intro terms hterms
  exact Question.mentions_alike (hascii terms hterms) (words_alike (tables.alike_lowerAfter [] _))

/-- A type text stands for the same type whether all its letters are put small or only those that
can stand in a number marker or in the name of a type. -/
theorem LetterTables.ofSmalls_lowerAfter (tables : LetterTables) (text : List Char) :
    ColumnType.ofSmalls (tables.lowerAfter [] text) = ColumnType.infer text := by
  have hascii : ∀ name ∈ ColumnType.textNames ++ ColumnType.numberMarkers,
      IsAscii name.toList := by
    simp only [isAscii_iff]
    decide +kernel
  have halike := tables.alike_lowerAfter [] text
  have hword := headD_alike (words_alike halike)
  have hname : (ColumnType.textNames.any fun textName =>
        textName.toList == (words (tables.lowerAfter [] text)).headD []) =
      ColumnType.textNames.any fun textName =>
        textName.toList == (words (smalls text)).headD [] := by
    refine any_congr_of_mem fun name hname => ?_
    rw [Bool.eq_iff_iff, beq_iff_eq, beq_iff_eq, eq_comm, eq_comm (a := name.toList)]
    exact eq_iff_of_alike hword (hascii name (List.mem_append_left _ hname))
  have hmarker : (ColumnType.numberMarkers.any fun marker =>
        occurs marker.toList (tables.lowerAfter [] text)) =
      ColumnType.numberMarkers.any fun marker => occurs marker.toList (smalls text) :=
    any_congr_of_mem fun marker hmarker =>
      occurs_alike (hascii marker (List.mem_append_right _ hmarker)) halike
  unfold ColumnType.infer ColumnType.ofSmalls
  simp only [hname, hmarker]

end SqlDraft
