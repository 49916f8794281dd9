import Mathlib.Data.List.Forall2
import Mathlib.Data.List.Infix
import SqlDraft.Text.Words

/-!
# Words and runs

Where a text is cut so that no word goes on across the cut, its words are those of its parts
(`words_append`).  A run occurs in a list when the list holds it in one piece (`occursBy_iff`,
`occurs_iff_isInfix`), and a run of letters occurs in a text that is cut so when it occurs in one of
the parts (`occurs_append`).
-/

namespace SqlDraft

/-! ## Words across a cut -/

/-- Whether no word goes on from the first text into the second. -/
def Apart (s t : List Char) : Prop :=
  ∀ c ∈ s.getLast?, ∀ d ∈ t.head?, isAlphanumeric c = true → isAlphanumeric d = false

theorem apart_cons {d : Char} (hd : isAlphanumeric d = false) (s t : List Char) :
    Apart s (d :: t) := by
  rintro c - e he -
  rwa [← Option.some.inj he]

theorem apart_concat {c : Char} (hc : isAlphanumeric c = false) (s t : List Char) :
    Apart (s ++ [c]) t := by
  intro d hd e _ hletter
  rw [List.getLast?_concat] at hd
  rw [← Option.some.inj hd, hc] at hletter
  exact Bool.noConfusion hletter

theorem apart_nil (s : List Char) : Apart s [] :=
  fun _ _ _ hd => nomatch hd

theorem leadingWord_eq_words {t : List Char} (ht : ∀ d ∈ t.head?, isAlphanumeric d = false) :
    leadingWord t = ([], words t) := by
  cases t with
  | nil => rfl
  | cons d t => simp [words, leadingWord, ht d rfl]

theorem leadingWord_append {c : Char} {cs t : List Char} (h : Apart (c :: cs) t) :
    leadingWord (c :: cs ++ t) =
      ((leadingWord (c :: cs)).1, (leadingWord (c :: cs)).2 ++ words t) := by
  induction cs generalizing c with
  | nil =>
    by_cases hc : isAlphanumeric c = true
    · have ht := leadingWord_eq_words fun d hd => h c rfl d hd hc
      simp [leadingWord, hc, ht]
    · have hc : isAlphanumeric c = false := Bool.eq_false_iff.2 hc
      rw [List.singleton_append, leadingWord_eq_words (t := c :: t) (by simp [hc])]
      simp [words, leadingWord, hc]
  | cons d ds ih =>
    have ih := ih (c := d) h
    rw [List.cons_append] at ih ⊢
    simp only [List.cons_append] at ih ⊢
    rw [leadingWord, ih]
    conv => rhs; rw [leadingWord]
    by_cases hc : isAlphanumeric c = true
    · simp only [hc, if_true]
    · simp only [hc]
      by_cases hword : (leadingWord (d :: ds)).1.isEmpty = true
      · simp [hword]
      · simp [hword]

theorem words_append {s t : List Char} (h : Apart s t) : words (s ++ t) = words s ++ words t := by
  cases s with
  | nil => rfl
  | cons c cs =>
    rw [words, leadingWord_append h]
    conv => rhs; rw [words]
    by_cases hword : (leadingWord (c :: cs)).1.isEmpty = true
    · simp [hword]
    · simp [hword]

/-! ## Runs -/

theorem any_congr_of_mem {α : Type} {list : List α} {p q : α → Bool}
    (h : ∀ x ∈ list, p x = q x) : list.any p = list.any q := by
  induction list with
  | nil => rfl
  | cons x list ih =>
    obtain ⟨hx, h⟩ := List.forall_mem_cons.1 h
    rw [List.any_cons, List.any_cons, hx, ih h]

theorem startsBy_iff {α β : Type} {fits : α → β → Bool} {patterns : List β} {list : List α} :
    startsBy fits patterns list = true ↔
      ∃ row, row <+: list ∧ List.Forall₂ (fun x pattern => fits x pattern = true) row patterns := by
  fun_induction startsBy fits patterns list with
  | case1 list => exact iff_of_true rfl ⟨[], List.nil_prefix, .nil⟩
  | case2 pattern patterns =>
    refine iff_of_false Bool.false_ne_true ?_
    rintro ⟨row, hrow, hfits⟩
    rw [List.prefix_nil.1 hrow] at hfits
    cases hfits
  | case3 pattern patterns x list ih =>
    rw [Bool.and_eq_true, ih]
    constructor
    · rintro ⟨hx, row, hrow, hfits⟩
      exact ⟨x :: row, List.cons_prefix_cons.2 ⟨rfl, hrow⟩, .cons hx hfits⟩
    · rintro ⟨row, hrow, hfits⟩
      obtain ⟨y, later, rfl⟩ : ∃ y later, row = y :: later := by cases hfits; exact ⟨_, _, rfl⟩
      obtain ⟨rfl, hlater⟩ := List.cons_prefix_cons.1 hrow
      obtain ⟨hx, hfits⟩ := List.forall₂_cons.1 hfits
      exact ⟨hx, later, hlater, hfits⟩

/-- Patterns occur in a list when they match members of it that stand next to each other. -/
theorem occursBy_iff {α β : Type} {fits : α → β → Bool} {patterns : List β} {list : List α} :
    occursBy fits patterns list = true ↔
      ∃ row, row <:+: list ∧
        List.Forall₂ (fun x pattern => fits x pattern = true) row patterns := by
  induction list with
  | nil =>
    rw [occursBy, startsBy_iff]
    simp only [List.prefix_nil, List.infix_nil]
  | cons x list ih =>
    rw [occursBy, Bool.or_eq_true, startsBy_iff, ih]
    simp only [List.infix_cons_iff, or_and_right, exists_or]

theorem occurs_iff_isInfix {α : Type} [BEq α] [LawfulBEq α] {run list : List α} :
    occurs run list = true ↔ run <:+: list := by
  rw [occurs, occursBy_iff]
  simp only [beq_iff_eq, List.forall₂_eq_eq_eq, exists_eq_right]

section Congruence

variable {α β : Type} {fits : α → β → Bool} {same : α → α → Prop} {patterns : List β}
  (hfits : ∀ pattern ∈ patterns, ∀ x y, same x y → fits x pattern = fits y pattern)
  {xs ys : List α}

include hfits

theorem startsBy_congr (h : List.Forall₂ same xs ys) :
    startsBy fits patterns xs = startsBy fits patterns ys := by
  induction patterns generalizing xs ys with
  | nil => rfl
  | cons pattern patterns ih =>
    obtain ⟨hpattern, hfits⟩ := List.forall_mem_cons.1 hfits
    cases h with
    | nil => rfl
    | cons hfirst h => rw [startsBy, startsBy, hpattern _ _ hfirst, ih hfits h]

/-- The same patterns occur in two lists whose members match the same ones, one by one. -/
theorem occursBy_congr (h : List.Forall₂ same xs ys) :
    occursBy fits patterns xs = occursBy fits patterns ys := by
  induction h with
  | nil => rfl
  | cons hfirst h ih => rw [occursBy, occursBy, ih, startsBy_congr hfits (.cons hfirst h)]

end Congruence

/-- A run of letters does not go across a cut, since no word does. -/
theorem occurs_append {run s t : List Char} (hrun : ∀ c ∈ run, isAlphanumeric c = true)
    (h : Apart s t) : occurs run (s ++ t) = (occurs run s || occurs run t) := by
  rw [Bool.eq_iff_iff, Bool.or_eq_true, occurs_iff_isInfix, occurs_iff_isInfix, occurs_iff_isInfix]
  constructor
  · intro hin
    rcases List.infix_append_iff_ne_nil.1 hin with
      hs | ht | ⟨front, back, hfront, hback, rfl, hs, ht⟩
    · exact .inl hs
    · exact .inr ht
    · obtain ⟨front, c, rfl⟩ := (List.eq_nil_or_concat front).resolve_left hfront
      obtain ⟨d, back, rfl⟩ := List.exists_cons_of_ne_nil hback
      obtain ⟨before, rfl⟩ := hs
      obtain ⟨after, rfl⟩ := ht
      have hstop := h c (by simp) d rfl (hrun c (by simp))
      rw [hrun d (by simp)] at hstop
      exact Bool.noConfusion hstop
  · rintro (hs | ht)
    · exact List.infix_append_of_infix_left hs
    · exact List.infix_append_of_infix_right ht

end SqlDraft
