import SqlDraft.Proofs.SmallLetters

/-!
# Longer questions

A question mentions what its parts mention.  So the roadmap for a question leads on from the
roadmaps for its parts: its category does not go down in precedence, and in the same category no
step is lost.  `forQuestion_joined` says so of two texts with a space between them.
-/

namespace SqlDraft

/-! ## Mentions -/

/-- Whether words of a question are those of a term, each as it is or with an ending. -/
def Says (row : List (List Char)) (term : Term) : Prop :=
  List.Forall₂ (fun word termWord => inflects word termWord = true) row term

theorem says_self (term : Term) : Says (term.map String.toList) term := by
  rw [Says, List.forall₂_map_left_iff, List.forall₂_same]
  exact fun word _ => inflects_iff.2 (.inl rfl)

namespace Question

theorem mentions_iff {q : Question} {terms : List Term} :
    q.mentions terms = true ↔ ∃ term ∈ terms, ∃ row, row <:+: q.words ∧ Says row term := by
  simp only [mentions, List.any_eq_true, occursBy_iff, Says]

/-- A question mentions whatever a part of it mentions. -/
theorem mentions_of_isInfix {q r : Question} (h : q.words <:+: r.words) (terms : List Term)
    (hq : q.mentions terms = true) : r.mentions terms = true := by
  rw [mentions_iff] at hq ⊢
  obtain ⟨term, hterm, row, hrow, hsays⟩ := hq
  exact ⟨term, hterm, row, hrow.trans h, hsays⟩

/-- A space parts the words on its sides. -/
theorem words_ofText_append_space (s t : String) :
    (ofText (s ++ " " ++ t)).words = (ofText s).words ++ (ofText t).words := by
  have hbefore : Apart (smalls s.toList) [' '] := apart_cons (by decide) _ _
  have hafter : Apart (smalls s.toList ++ [' ']) (smalls t.toList) :=
    apart_concat (by decide) _ _
  have hspace : smalls (" " : String).toList = [' '] := rfl
  have hnone : SqlDraft.words [' '] = [] := rfl
  rw [ofText, ofText, ofText, String.toList_append, String.toList_append, smalls_append,
    smalls_append, hspace, words_append hafter, words_append hbefore, hnone, List.append_nil]

end Question

/-! ## Precedence -/

/-- The place of a category in the order of precedence, where no category comes last. -/
def precedence : Option Category → Nat
  | none => 0
  | some .selectFilter => 1
  | some .delete => 2
  | some .aggregate => 3
  | some .createTable => 4

namespace Roadmap

/-- Whether a roadmap leads on from another: to a category that is higher in precedence, or in the
same category by the same steps and maybe further ones. -/
structure LeadsOn (before after : Roadmap) : Prop where
  precedence_le : precedence before.category ≤ precedence after.category
  steps : before.category = after.category → before.steps <+: after.steps

theorem category_ofQuestion (q : Question) : (ofQuestion q).category = categoryOf? q := by
  rw [ofQuestion]
  split
  next h => exact h.symm
  next h => exact h.symm

theorem steps_ofQuestion {q : Question} {category : Category} (h : categoryOf? q = some category) :
    (ofQuestion q).steps = stepsFor q category := by
  rw [ofQuestion, h]

theorem ofQuestion_eq_empty {q : Question} (h : categoryOf? q = none) : ofQuestion q = empty := by
  rw [ofQuestion, h]

section LongerQuestion

variable {q r : Question} (h : ∀ terms, q.mentions terms = true → r.mentions terms = true)

include h

theorem precedence_categoryOf_le : precedence (categoryOf? q) ≤ precedence (categoryOf? r) := by
  unfold categoryOf?
  -- The first list of terms that the shorter question mentions the longer one mentions too, so that
  -- it stops there or before.
  split
  next hcreate => exact Nat.le_of_eq (congrArg precedence (if_pos (h _ hcreate)).symm)
  split
  next haggregate =>
    rw [if_pos (h _ haggregate)]
    split <;> decide
  split
  next hdelete =>
    rw [if_pos (h _ hdelete)]
    repeat' split
    all_goals decide
  split
  next hselect =>
    rw [if_pos (h _ hselect)]
    repeat' split
    all_goals decide
  exact Nat.zero_le _

theorem stepsFor_isPrefix (category : Category) : stepsFor q category <+: stepsFor r category := by
  have hfurther (terms : List Term) (steps : List Step) (further : Step) :
      (if q.mentions terms = true then steps ++ [further] else steps) <+:
        if r.mentions terms = true then steps ++ [further] else steps := by
    split
    next hmentions => simp only [if_pos (h terms hmentions), List.prefix_refl]
    next =>
      split
      · exact List.prefix_append _ _
      · exact List.prefix_refl _
  cases category with
  | aggregate => exact hfurther aliasTerms aggregateSteps aliasStep
  | delete => exact List.prefix_refl _
  | selectFilter => exact hfurther filterTerms selectSteps filterStep
  | createTable => exact List.prefix_refl _

theorem leadsOn_ofQuestion : LeadsOn (ofQuestion q) (ofQuestion r) where
  precedence_le := by
    rw [category_ofQuestion, category_ofQuestion]
    exact precedence_categoryOf_le h
  steps hsame := by
    rw [category_ofQuestion, category_ofQuestion] at hsame
    cases hq : categoryOf? q with
    | none =>
      rw [ofQuestion_eq_empty hq]
      exact List.nil_prefix
    | some category =>
      rw [steps_ofQuestion hq, steps_ofQuestion (hsame ▸ hq)]
      exact stepsFor_isPrefix h category

end LongerQuestion

/-! ## Questions about new tables -/

/-- The roadmap for a question about a new table. -/
def creation : Roadmap :=
  ⟨some .createTable, createSteps⟩

theorem ofQuestion_eq_creation_iff {q : Question} :
    ofQuestion q = creation ↔ q.mentions createTerms = true := by
  constructor
  · intro h
    have hcategory : categoryOf? q = some .createTable := by
      rw [← category_ofQuestion, h]
      rfl
    by_contra hnot
    rw [categoryOf?, if_neg hnot] at hcategory
    split at hcategory
    · cases hcategory
    split at hcategory
    · cases hcategory
    split at hcategory <;> cases hcategory
  · intro h
    rw [ofQuestion, categoryOf?, if_pos h]
    rfl

theorem forQuestion_eq_creation_iff (text : String) :
    forQuestion text = creation ↔ ∃ term ∈ createTerms, ∃ before row after, Says row term ∧
      (Question.ofText text).words = before ++ row ++ after := by
  rw [forQuestion, ofQuestion_eq_creation_iff, Question.mentions_iff]
  refine exists_congr fun term => and_congr_right fun _ => ?_
  constructor
  · rintro ⟨row, ⟨before, after, hsplit⟩, hsays⟩
    exact ⟨before, row, after, hsays, hsplit.symm⟩
  · rintro ⟨before, row, after, hsays, hsplit⟩
    exact ⟨row, ⟨before, after, hsplit.symm⟩, hsays⟩

theorem words_ofText_createTerm {term : Term} (h : term ∈ createTerms) :
    (Question.ofText (" ".intercalate term)).words = term.map String.toList := by
  have hall : ∀ term ∈ createTerms,
      (Question.ofText (" ".intercalate term)).words = term.map String.toList := by
    decide +kernel
  exact hall term h

/-- The roadmap for two texts with a space between them leads on from the roadmaps for each.  Among
whatever other words, those of a term for new tables make it the roadmap for a new table, and no
others do.  It makes no difference which letters beyond ASCII are put small. -/
theorem forQuestion_joined (q r : String) :
    LeadsOn (forQuestion q) (forQuestion (q ++ " " ++ r)) ∧
    LeadsOn (forQuestion r) (forQuestion (q ++ " " ++ r)) ∧
    (∀ term ∈ createTerms,
      forQuestion (q ++ " " ++ " ".intercalate term ++ " " ++ r) = creation) ∧
    (∀ text, forQuestion text = creation ↔ ∃ term ∈ createTerms, ∃ before row after,
      Says row term ∧ (Question.ofText text).words = before ++ row ++ after) ∧
    ∀ (tables : LetterTables) (text : String),
      ofQuestion (tables.question text) = forQuestion text := by
  have hwords := Question.words_ofText_append_space q r
  refine ⟨?_, ?_, fun term hterm => ?_, forQuestion_eq_creation_iff,
    LetterTables.ofQuestion_question⟩
  · have hpart : (Question.ofText q).words <:+: (Question.ofText (q ++ " " ++ r)).words :=
      hwords ▸ (List.prefix_append _ _).isInfix
    exact leadsOn_ofQuestion (Question.mentions_of_isInfix hpart)
  · have hpart : (Question.ofText r).words <:+: (Question.ofText (q ++ " " ++ r)).words :=
      hwords ▸ (List.suffix_append _ _).isInfix
    exact leadsOn_ofQuestion (Question.mentions_of_isInfix hpart)
  · refine (forQuestion_eq_creation_iff _).2 ⟨term, hterm, (Question.ofText q).words, _,
      (Question.ofText r).words, says_self term, ?_⟩
    rw [Question.words_ofText_append_space, Question.words_ofText_append_space,
      words_ofText_createTerm hterm]

theorem forQuestion_joined_score :
    ["new", "table"] ∈ createTerms ∧
      (forQuestion "show the max score").category =
        (forQuestion "show the max score as best").category ∧
      (forQuestion "show the max score").steps <+:
        (forQuestion "show the max score as best").steps ∧
      forQuestion "show the max score new table as best" = creation ∧
      ofQuestion ((default : LetterTables).question "show the max score") =
        forQuestion "show the max score" := by
  have hjoined : "show the max score" ++ " " ++ "as best" = "show the max score as best" := by
    decide
  have hcreated : "show the max score" ++ " " ++ " ".intercalate ["new", "table"] ++ " " ++
      "as best" = "show the max score new table as best" := by decide
  have hterm : ["new", "table"] ∈ createTerms := by decide
  have hsame : (forQuestion "show the max score").category =
      (forQuestion "show the max score as best").category := by decide +kernel
  obtain ⟨hfront, -, hcreate, -, htables⟩ := forQuestion_joined "show the max score" "as best"
  rw [hjoined] at hfront
  exact ⟨hterm, hsame, hfront.steps hsame, hcreated ▸ hcreate _ hterm, htables default _⟩

end Roadmap

end SqlDraft
