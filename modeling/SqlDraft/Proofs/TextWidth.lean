import Mathlib.Algebra.GroupWithZero.Nat
import Mathlib.Data.List.Induction
import SqlDraft.Display.Width
import SqlDraft.Proofs.Lexing

/-!
# Widths of texts

Characters that merge take fewer columns than they do one by one, but for a few: a control character
takes a column in a text and none alone, and a selector can make the character before it wider.
`textWidth_le` says that a text takes no more columns than its characters do alone and one more for
each of these.  Plain characters part clusters, so that widths add up round them.
-/

namespace SqlDraft

/-! ## Characters alone -/

/-- The columns that the characters of a text take alone. -/
def loneWidth (text : List Char) : Nat :=
  (text.map charWidth).sum

/-- Whether `c` can make a text wider than its characters are alone: a control character, or a
selector that asks for an emoji or for a wide quotation mark. -/
def widens (c : Char) : Bool :=
  isControl c || c == '\uFE0F' || c == '\uFE01'

/-- The columns that a text may take beyond those of its characters alone. -/
def widenings (text : List Char) : Nat :=
  text.countP widens

@[simp] theorem loneWidth_cons (c : Char) (cs : List Char) :
    loneWidth (c :: cs) = charWidth c + loneWidth cs := by
  rw [loneWidth, List.map_cons, List.sum_cons, loneWidth]

@[simp] theorem widenings_cons (c : Char) (cs : List Char) :
    widenings (c :: cs) = (widens c).toNat + widenings cs := by
  rw [widenings, List.countP_cons, widenings, Nat.add_comm]
  cases widens c <;> rfl

/-- A character takes a column unless it is one of those that take none. -/
theorem charWidth_pos {c : Char} (hcontrol : isControl c = false)
    (hzero : zeroWidthRanges.contains c = false) : 0 < charWidth c := by
  rw [charWidth, hcontrol, hzero]
  simp only [Bool.or_false, Bool.false_eq_true, if_false]
  repeat' split
  all_goals decide

theorem charWidth_pos_of_apart {ranges : CharRanges}
    (hapart : (ranges.all fun r => zeroWidthRanges.all fun s =>
      Nat.blt r.2 s.1 || Nat.blt s.2 r.1) = true)
    (hprinted : ∀ r ∈ ranges, 0x20 ≤ r.1 ∧ (r.2 < 0x7F ∨ 0xA0 ≤ r.1)) {c : Char}
    (hc : ranges.contains c = true) : 0 < charWidth c := by
  apply charWidth_pos _ (CharRanges.contains_eq_false_of_apart hapart hc)
  obtain ⟨r, hr, hlow, hhigh⟩ := CharRanges.contains_iff.1 hc
  have h := hprinted r hr
  simp only [isControl, Bool.or_eq_false_iff, Bool.and_eq_false_iff, decide_eq_false_iff_not]
  omega

theorem charWidth_pos_of_hasEmojiStyle {c : Char} (h : hasEmojiStyle c = true) :
    0 < charWidth c :=
  charWidth_pos_of_apart (by decide +kernel) (by decide +kernel) h

theorem charWidth_pos_of_isRegional {c : Char} (h : Cluster.isRegional c = true) :
    0 < charWidth c := by
  rw [Cluster.isRegional, Bool.and_eq_true, decide_eq_true_eq, decide_eq_true_eq] at h
  have hc : CharRanges.contains [(0x1F1E6, 0x1F1FF)] c = true :=
    CharRanges.contains_iff.2 ⟨_, List.mem_singleton_self _, h⟩
  exact charWidth_pos_of_apart (by decide +kernel) (by decide +kernel) hc

theorem charWidth_pos_of_isQuotationMark {c : Char} (h : Cluster.isQuotationMark c = true) :
    0 < charWidth c := by
  simp only [Cluster.isQuotationMark, Bool.or_eq_true, beq_iff_eq] at h
  rcases h with ((rfl | rfl) | rfl) | rfl <;> decide +kernel

/-! ## Clusters and what they keep -/

/-- The column that is kept for a character if a form is asked of it that can make it wider. -/
def Forms.reserve (forms : Forms) : Nat :=
  (forms.emoji || forms.wide).toNat

@[simp] theorem Forms.reserve_nothing : Forms.nothing.reserve = 0 := rfl

theorem Form.ofSelector?_cases {c : Char} {form : Form} (h : ofSelector? c = some form) :
    c = '\uFE0F' ∧ form = .emoji ∨ c = '\uFE0E' ∧ form = .text ∨ c = '\uFE01' ∧ form = .wide := by
  unfold ofSelector? at h
  split at h
  case isTrue hc => exact .inl ⟨hc, by cases h; rfl⟩
  case isFalse =>
    split at h
    case isTrue hc => exact .inr (.inl ⟨hc, by cases h; rfl⟩)
    case isFalse =>
      split at h
      case isTrue hc => exact .inr (.inr ⟨hc, by cases h; rfl⟩)
      case isFalse => contradiction

theorem Forms.reserve_add_le (forms : Forms) {c : Char} {form : Form}
    (h : Form.ofSelector? c = some form) :
    (forms.add form).reserve ≤ forms.reserve + (widens c).toNat := by
  obtain ⟨emoji, text, wide⟩ := forms
  rcases Form.ofSelector?_cases h with ⟨rfl, rfl⟩ | ⟨rfl, rfl⟩ | ⟨rfl, rfl⟩ <;>
    cases emoji <;> cases wide <;> cases text <;> decide

namespace Cluster

/-- The columns that the start of a cluster keeps: two after an even number of joined regional
indicators, since the next one takes back the column that the last one gave up. -/
def startReserve (start : ClusterStart) (width : Nat) : Nat :=
  match start with
  | .joined .evenRegionals => 2
  | .joined .oneRegional | .joined .oddRegionals => 1 - width
  | _ => 0

/-- The columns that a cluster keeps for characters in front of it. -/
def reserve (k : Cluster) : Nat :=
  k.asked.reserve + startReserve k.start k.width

/-- The columns that a cluster takes or keeps. -/
def held (k : Cluster) : Nat :=
  k.width + k.reserve

@[simp] theorem held_plain (width : Nat) : (plain width).held = width := rfl

@[simp] theorem held_emoji (width : Nat) : (emoji width).held = width := rfl

theorem held_joinEmoji {c : Char} {k joined : Cluster} (h : k.joinEmoji? c = some joined) :
    joined.held ≤ k.held + charWidth c := by
  unfold joinEmoji? at h
  split at h
  case isFalse => contradiction
  case isTrue hasked =>
    rw [Bool.and_eq_true] at hasked
    -- The selector has kept a column for the one that the emoji form adds.
    have hreserve : 1 ≤ k.reserve := by
      rw [reserve, Forms.reserve, hasked.1]
      exact Nat.le_add_right 1 _
    have hc := charWidth_pos_of_hasEmojiStyle hasked.2
    split at h <;> (cases h; rw [held_emoji, held]; omega)

theorem held_withoutEmoji (k : Cluster) : k.withoutEmoji.held ≤ k.held := by
  unfold withoutEmoji
  split
  case isFalse => exact Nat.le_refl _
  case isTrue =>
    split
    next hstart =>
      simp only [held, reserve, Forms.reserve, hstart]
      cases k.asked.wide <;> simp
    next =>
      rw [held_plain, held]
      omega

theorem held_joinForm {c : Char} {k joined : Cluster} (h : k.joinForm? c = some joined) :
    joined.held ≤ k.held + charWidth c := by
  unfold joinForm? at h
  split at h
  case isTrue htext =>
    rw [Bool.and_eq_true, hasNarrowTextStyle, Bool.and_eq_true, Bool.and_eq_true] at htext
    have hc := charWidth_pos_of_hasEmojiStyle htext.2.1.2
    cases h
    rw [held_plain, held]
    omega
  case isFalse =>
    split at h
    case isFalse => contradiction
    case isTrue hwide =>
      rw [Bool.and_eq_true] at hwide
      have hreserve : 1 ≤ k.reserve := by
        rw [reserve, Forms.reserve, hwide.1, Bool.or_true]
        exact Nat.le_add_right 1 _
      have hc := charWidth_pos_of_isQuotationMark hwide.2
      cases h
      rw [held_plain, held]
      omega

theorem held_withoutForm (k : Cluster) : k.withoutForm.held ≤ k.held := by
  simp only [held, reserve, withoutForm, Forms.reserve_nothing]
  omega

theorem held_joinSelector {c : Char} {form : Form} {k joined : Cluster}
    (hc : Form.ofSelector? c = some form) (h : k.joinSelector? form = some joined) :
    joined.held ≤ k.held + (widens c).toNat := by
  unfold joinSelector? at h
  split at h
  case isFalse => contradiction
  case isTrue =>
    cases h
    have hadd := Forms.reserve_add_le k.asked hc
    simp only [held, reserve]
    omega

theorem le_of_join_ligature {c : Char} {start : LigatureEnd} {parted : Bool} {width longer : Nat}
    {next : Option LigatureEnd} (h : start.join? c parted width = some (next, longer)) :
    longer ≤ width + charWidth c := by
  cases start
  case tifinaghConsonant =>
    rw [LigatureEnd.join?] at h
    split at h
    case isTrue hc =>
      -- The joiner of Tifinagh letters is the one letter that widens its ligature.
      cases h
      rw [hc]
      exact Nat.add_le_add_left (by decide +kernel) width
    case isFalse => split at h <;> cases h; exact Nat.le_add_right _ _
  all_goals
    rw [LigatureEnd.join?] at h
    repeat' split at h
    all_goals cases h <;> omega

theorem le_of_join_vowel {c : Char} {start : VowelEnd} {added : Nat} {next : Option VowelEnd}
    (h : start.join? c = some (next, added)) : added ≤ charWidth c := by
  cases start
  case e =>
    rw [VowelEnd.join?] at h
    split at h
    case isTrue => cases h; exact Nat.zero_le _
    case isFalse =>
      split at h
      case isTrue => cases h; exact Nat.zero_le _
      case isFalse =>
        split at h
        case isTrue hc =>
          cases h
          rw [hc]
          decide +kernel
        case isFalse => contradiction
  case ai =>
    rw [VowelEnd.join?] at h
    split at h <;> cases h
    exact Nat.zero_le _

theorem held_joinSequence {c : Char} {start : JoinedEnd} {width : Nat} {joined : Cluster}
    (h : joinSequence? c start width = some joined) :
    joined.held ≤ width + startReserve (.joined start) width + charWidth c := by
  unfold joinSequence? at h
  by_cases hc : isRegional c = true
  · -- An indicator adds a column of its own, and two more if they were kept for it.
    have hpos := charWidth_pos_of_isRegional hc
    cases start <;> dsimp only at h <;> repeat' split at h
    all_goals
      cases h <;> simp only [held, reserve, startReserve, emoji, Forms.reserve_nothing] <;> omega
  · rw [Bool.not_eq_true] at hc
    cases start <;> simp only [hc, Bool.false_eq_true, if_false] at h <;> repeat' split at h
    all_goals
      cases h <;> simp only [held, reserve, startReserve, emoji, Forms.reserve_nothing] <;> omega

theorem held_joinLigature {c : Char} {start : LigatureEnd} {parted : Bool} {k joined : Cluster}
    (hasked : k.asked = .nothing) (hstart : k.start = .ligature start parted)
    (h : joinLigature? c start parted k = some joined) :
    joined.held ≤ k.held + charWidth c := by
  have hheld : k.held = k.width := by
    rw [held, reserve, hasked, hstart]
    rfl
  rw [hheld]
  unfold joinLigature? at h
  split at h
  case isTrue =>
    -- A mark that passes leaves the ligature as wide as it is.
    split at h <;> cases h
    · rw [held, reserve, hasked]
      exact Nat.le_add_right _ _
    · rw [hheld]
      exact Nat.le_add_right _ _
  case isFalse =>
    split at h <;> cases h
    next hjoin => exact le_of_join_ligature hjoin
    next hjoin => exact le_of_join_ligature hjoin

theorem held_joinWide {c : Char} {k joined : Cluster} (hasked : k.asked = .nothing)
    (h : joinWide? c k = some joined) : joined.held ≤ k.held + charWidth c := by
  have hheld : k.held = k.width + startReserve k.start k.width := by
    rw [held, reserve, hasked, Forms.reserve_nothing, Nat.zero_add]
  cases hstart : k.start with
  | plain | lineFeed =>
    rw [joinWide?, hstart] at h
    contradiction
  | emoji | skinTone =>
    simp only [joinWide?, hstart] at h
    repeat' split at h
    all_goals
      cases h <;> simp only [held, reserve, startReserve, emoji, Forms.reserve_nothing] <;> omega
  | regional | regionals =>
    simp only [joinWide?, hstart] at h
    split at h
    case isTrue hc =>
      have hpos := charWidth_pos_of_isRegional hc
      cases h
      simp only [held, reserve, startReserve, Forms.reserve_nothing]
      omega
    case isFalse =>
      repeat' split at h
      all_goals
        cases h <;> simp only [held, reserve, startReserve, Forms.reserve_nothing] <;> omega
  | joined start =>
    rw [joinWide?, hstart] at h
    rw [hheld, hstart]
    exact held_joinSequence h
  | vowel start =>
    simp only [joinWide?, hstart] at h
    split at h <;> cases h
    next hjoin =>
      have hadded := le_of_join_vowel hjoin
      simp only [held, reserve, startReserve, Forms.reserve_nothing]
      omega
    next hjoin =>
      have hadded := le_of_join_vowel hjoin
      rw [held_plain, hheld]
      omega
  | ligature start parted =>
    rw [joinWide?, hstart] at h
    exact held_joinLigature hasked hstart h

/-- What a character adds to the cluster in front of which it joins. -/
theorem held_join {c : Char} {k joined : Cluster} (h : k.join? c = some joined) :
    joined.held ≤ k.held + charWidth c + (widens c).toNat := by
  have hbefore := held_withoutEmoji k
  unfold join? at h
  split at h
  next hemoji =>
    cases h
    have hadded := held_joinEmoji hemoji
    omega
  next =>
    dsimp only at h
    split at h
    case isTrue =>
      split at h <;> cases h
      have hwidth : k.withoutEmoji.width ≤ k.withoutEmoji.held := Nat.le_add_right _ _
      rw [held_plain]
      omega
    case isFalse =>
      split at h
      next hform =>
        have hadded := held_joinSelector hform h
        omega
      next =>
        split at h
        next hjoin =>
          cases h
          have hadded := held_joinForm hjoin
          omega
        next =>
          have hplain := held_withoutForm k.withoutEmoji
          have hadded := held_joinWide rfl h
          omega

theorem startReserve_startOf (c : Char) (width : Nat) : startReserve (startOf c) width = 0 := by
  unfold startOf
  repeat' split
  all_goals rfl

/-- What a character takes that starts a cluster. -/
theorem held_ofChar (c : Char) : (ofChar c).held ≤ charWidth c + (widens c).toNat := by
  unfold ofChar
  split
  case isTrue hc =>
    rw [hc]
    decide
  case isFalse =>
    split
    case isTrue hlow =>
      -- A control character takes a column only here, the other ones take one alone as well.
      rw [held_plain]
      by_cases hcontrol : isControl c = true
      · rw [widens, hcontrol]
        exact Nat.le_add_left 1 _
      · have hzero : zeroWidthRanges.contains c = false := by
          rw [Bool.eq_false_iff]
          intro hc
          obtain ⟨r, hr, hfirst, _⟩ := CharRanges.contains_iff.1 hc
          have hranges : ∀ r ∈ zeroWidthRanges, 0xA0 < r.1 := by decide +kernel
          have hr := hranges r hr
          omega
        have hpos := charWidth_pos (Bool.eq_false_iff.2 hcontrol) hzero
        omega
    case isFalse =>
      split
      next hform =>
        have hadded := Forms.reserve_add_le .nothing hform
        rw [Forms.reserve_nothing] at hadded
        simp only [held, reserve, startReserve, Forms.only]
        omega
      next =>
        rw [held, reserve, startReserve_startOf]
        exact Nat.le_add_right _ _

end Cluster

/-! ## Texts -/

theorem Measure.held_push (c : Char) (m : Measure) :
    (m.push c).settled + (m.push c).cluster.held ≤
      m.settled + m.cluster.held + (charWidth c + (widens c).toNat) := by
  unfold push
  split
  next hjoin =>
    have hadded := Cluster.held_join hjoin
    dsimp only
    omega
  next =>
    have hstart := Cluster.held_ofChar c
    have hwidth : m.cluster.width ≤ m.cluster.held := Nat.le_add_right _ _
    dsimp only
    omega

theorem held_measure (text : List Char) :
    (measure text).settled + (measure text).cluster.held ≤ loneWidth text + widenings text := by
  induction text with
  | nil => exact Nat.le_refl 0
  | cons c cs ih =>
    have hpush := (measure cs).held_push c
    have hmeasure : measure (c :: cs) = (measure cs).push c := rfl
    rw [hmeasure, loneWidth_cons, widenings_cons]
    omega

/-- A text takes no more columns than its characters alone and one for each that widens it. -/
theorem textWidth_le (text : List Char) : textWidth text ≤ loneWidth text + widenings text := by
  have hheld := held_measure text
  have hwidth : (measure text).cluster.width ≤ (measure text).cluster.held := Nat.le_add_right _ _
  rw [textWidth, Measure.total]
  omega

/-! ## Plain characters -/

/-- A plain character at the end of a text adds its own columns. -/
theorem textWidth_concat {c : Char} {width : Nat} (hc : Cluster.ofChar c = .plain width)
    (text : List Char) : textWidth (text ++ [c]) = textWidth text + width := by
  have hpush : Measure.push c .empty = ⟨0, .plain width⟩ := by
    rw [Measure.push, Measure.empty, Cluster.join?_plain, hc]
    rfl
  have hmeasure : measure (text ++ [c]) = text.foldr Measure.push ⟨0, .plain width⟩ := by
    rw [measure, List.foldr_append, List.foldr_cons, List.foldr_nil, hpush]
  rw [textWidth, hmeasure, foldr_push_plain, Nat.add_zero]

/-- A text of plain characters is as wide as it is long. -/
theorem textWidth_eq_length {text : List Char} (h : ∀ c ∈ text, Cluster.ofChar c = .plain 1) :
    textWidth text = text.length := by
  induction text using List.reverseRecOn with
  | nil => rfl
  | append_singleton front c ih =>
    rw [textWidth_concat (h c (List.mem_append_right _ (List.mem_singleton_self c))),
      ih fun d hd => h d (List.mem_append_left _ hd), List.length_append, List.length_singleton]

/-- Spaces at the end of a text add their columns. -/
theorem textWidth_append_spaces (text : List Char) (n : Nat) :
    textWidth (text ++ List.replicate n ' ') = textWidth text + n := by
  induction n with
  | zero => rw [List.replicate_zero, List.append_nil, Nat.add_zero]
  | succ n ih =>
    have hspace : Cluster.ofChar ' ' = .plain 1 := by decide
    rw [List.replicate_succ', ← List.append_assoc, textWidth_concat hspace, ih, Nat.add_assoc]

end SqlDraft
