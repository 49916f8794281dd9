import SqlDraft.Layout.Grid
import SqlDraft.Proofs.TextWidth

/-!
# Clipping

A text that is too wide is cut to the longest front part that leaves a column for the ellipsis.
What is cut is chosen by the columns that characters take alone, so the clipped text is within its
limit unless its characters take more columns in a text.  `Grid.clip_within` says how much wider it
can be, when it is too wide, and when clipping leaves a text as it is.
-/

namespace SqlDraft.Grid

/-- The longest front part of a text whose characters take less than `max` columns when each of them
is as wide as alone. -/
structure IsFitting (max : Nat) (text front : List Char) : Prop where
  isPrefix : front <+: text
  room : loneWidth front < max
  longest : ∀ longer, longer <+: text → loneWidth longer < max → longer <+: front

theorem fitting_isPrefix (max used : Nat) (text : List Char) : fitting max used text <+: text := by
  induction text generalizing used with
  | nil => exact List.prefix_rfl
  | cons c cs ih =>
    rw [fitting]
    split
    case isTrue => exact List.nil_prefix
    case isFalse => exact List.prefix_cons_inj c |>.2 (ih _)

theorem loneWidth_fitting {max used : Nat} (hused : used < max) (text : List Char) :
    used + loneWidth (fitting max used text) < max := by
  induction text generalizing used with
  | nil => exact hused
  | cons c cs ih =>
    rw [fitting]
    split
    case isTrue => exact hused
    case isFalse hroom =>
      have hrest := ih (show used + charWidth c < max by omega)
      rw [loneWidth_cons]
      omega

theorem isPrefix_fitting {max used : Nat} {text longer : List Char} (hlonger : longer <+: text)
    (hroom : used + loneWidth longer < max) : longer <+: fitting max used text := by
  induction text generalizing used longer with
  | nil => exact hlonger
  | cons c cs ih =>
    cases longer with
    | nil => exact List.nil_prefix
    | cons d ds =>
      obtain ⟨rfl, hds⟩ := List.cons_prefix_cons.1 hlonger
      rw [loneWidth_cons] at hroom
      rw [fitting, if_neg (by omega)]
      exact List.prefix_cons_inj d |>.2 (ih hds (by omega))

/-- The front that clipping keeps is the longest one that fits. -/
theorem isFitting_fitting {max : Nat} (hmax : 0 < max) (text : List Char) :
    IsFitting max text (fitting max 0 text) where
  isPrefix := fitting_isPrefix max 0 text
  room := by
    have h := loneWidth_fitting hmax text
    rwa [Nat.zero_add] at h
  longest := fun longer hlonger hroom => isPrefix_fitting hlonger (by rwa [Nat.zero_add])

theorem textWidth_ellipsis (text : List Char) :
    textWidth (text ++ [ellipsis]) = textWidth text + 1 :=
  textWidth_concat (by decide +kernel) text

theorem IsFitting.textWidth_lt {max : Nat} {text front : List Char} (h : IsFitting max text front) :
    textWidth front < max + widenings front := by
  have hroom := h.room
  have hwidth := SqlDraft.textWidth_le front
  omega

theorem clip_of_le {max : Nat} {text : List Char} (h : textWidth text ≤ max) :
    clip max text = text :=
  if_pos (.inl h)

theorem clip_of_lt {max : Nat} (hmax : 0 < max) {text : List Char} (h : max < textWidth text) :
    clip max text = fitting max 0 text ++ [ellipsis] :=
  if_neg (by omega)

/-- A text that fits is left as it is.  Of any other one the longest fitting front is kept and an
ellipsis put behind it.  The outcome takes at most one column over the limit for each character of
the front that widens a text, and none if there is no such character.  It is over the limit if the
front takes so many more columns as a text than its characters do alone that it reaches the limit,
and only then; and a text that does not fit comes out as it was only if it ends with the ellipsis
that is put there. -/
theorem clip_within {max : Nat} (hmax : 0 < max) (text : List Char) :
    ∃ front, IsFitting max text front ∧
      clip max text = (if textWidth text ≤ max then text else front ++ [ellipsis]) ∧
      textWidth (clip max text) ≤ max + widenings front ∧
      (textWidth (clip max text) ≤ max ↔ textWidth text ≤ max ∨ textWidth front < max) ∧
      (clip max text = text ↔ textWidth text ≤ max ∨ text = front ++ [ellipsis]) ∧
      (widenings front = 0 →
        textWidth (clip max text) ≤ max ∧ (clip max text = text ↔ textWidth text ≤ max)) := by
  have hfitting := isFitting_fitting hmax text
  have hbound := hfitting.textWidth_lt
  refine ⟨fitting max 0 text, hfitting, ?_⟩
  by_cases hfits : textWidth text ≤ max
  case pos =>
    rw [clip_of_le hfits, if_pos hfits]
    exact ⟨rfl, Nat.le_add_right_of_le hfits, iff_of_true hfits (.inl hfits),
      iff_of_true rfl (.inl hfits), fun _ => ⟨hfits, iff_of_true rfl hfits⟩⟩
  case neg =>
    have hcut := clip_of_lt hmax (Nat.lt_of_not_le hfits)
    rw [hcut, if_neg hfits]
    generalize fitting max 0 text = front at hbound
    have hellipsis := textWidth_ellipsis front
    refine ⟨rfl, by omega, by omega, ?same, fun hnone => ⟨by omega, iff_of_false ?_ hfits⟩⟩
    case same =>
      rw [or_iff_right hfits]
      exact eq_comm
    -- What clipping gives back although it is too wide has something in its front that widens it.
    intro hsame
    rw [← hsame] at hfits
    omega

/-- The bound and the condition for a text with tabs, which widen it. -/
theorem clip_within_tabs :
    0 < 5 ∧ ∃ front, IsFitting 5 "a\tb\tc\td\te".toList front ∧
      textWidth (clip 5 "a\tb\tc\td\te".toList) ≤ 5 + widenings front ∧
      (textWidth (clip 5 "a\tb\tc\td\te".toList) ≤ 5 ↔
        textWidth "a\tb\tc\td\te".toList ≤ 5 ∨ textWidth front < 5) := by
  obtain ⟨front, hfitting, -, hbound, hiff, -⟩ :=
    clip_within (show 0 < 5 by decide) "a\tb\tc\td\te".toList
  exact ⟨by decide, front, hfitting, hbound, hiff⟩

/-- Tabs take no column while a text is cut and a column each when it is measured, so that a clipped
text can exceed its limit, and a text that does can come out as it was. -/
theorem tabs_exceed_limit :
    textWidth (clip 5 "a\tb\tc\td\te".toList) = 9 ∧
      clip 1 "\t…".toList = "\t…".toList ∧ textWidth "\t…".toList = 2 := by
  decide +kernel

/-- A keycap takes two columns, and the digit in it one. -/
example : textWidth (clip 2 "1\uFE0F\u20E31\uFE0F\u20E3".toList) = 3 := by decide +kernel

end SqlDraft.Grid
