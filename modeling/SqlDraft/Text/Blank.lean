import SqlDraft.Text.CharRanges

/-!
# White space

The characters with the Unicode property White_Space, and trimming them off the ends of a text.
-/

namespace SqlDraft

def blankRanges : CharRanges :=
  [(0x9, 0xD), (0x20, 0x20), (0x85, 0x85), (0xA0, 0xA0), (0x1680, 0x1680), (0x2000, 0x200A),
   (0x2028, 0x2029), (0x202F, 0x202F), (0x205F, 0x205F), (0x3000, 0x3000)]

def isBlank (c : Char) : Bool :=
  blankRanges.contains c

def trimStart (text : List Char) : List Char :=
  text.dropWhile isBlank

def trimEnd (text : List Char) : List Char :=
  (text.reverse.dropWhile isBlank).reverse

def trim (text : List Char) : List Char :=
  trimEnd (trimStart text)

theorem trimStart_append_of_blank {ws : List Char} (hws : ∀ c ∈ ws, isBlank c = true)
    (text : List Char) : trimStart (ws ++ text) = trimStart text :=
  List.dropWhile_append_of_pos hws

theorem trimStart_of_not_blank {c : Char} (h : isBlank c = false) (cs : List Char) :
    trimStart (c :: cs) = c :: cs :=
  List.dropWhile_cons_of_neg (by rw [h]; exact Bool.false_ne_true)

/-- Trimming stops in the back part of a text unless that part is all white space. -/
theorem trimEnd_append (front back : List Char) :
    trimEnd (front ++ back) =
      if trimEnd back = [] then trimEnd front else front ++ trimEnd back := by
  rw [trimEnd, List.reverse_append, List.dropWhile_append]
  simp only [trimEnd, List.reverse_eq_nil_iff, List.isEmpty_iff]
  split
  · rfl
  · rw [List.reverse_append, List.reverse_reverse]

theorem trimEnd_append_of_blank {ws : List Char} (hws : ∀ c ∈ ws, isBlank c = true)
    (text : List Char) : trimEnd (text ++ ws) = trimEnd text := by
  rw [trimEnd, List.reverse_append,
    List.dropWhile_append_of_pos fun c hc => hws c (List.mem_reverse.1 hc)]
  rfl

theorem trimEnd_append_of_ne_nil {text : List Char} (h : trimEnd text ≠ []) (front : List Char) :
    trimEnd (front ++ text) = front ++ trimEnd text := by
  rw [trimEnd_append, if_neg h]

theorem exists_trimStart (text : List Char) :
    ∃ front, text = front ++ trimStart text ∧ ∀ c ∈ front, isBlank c = true :=
  ⟨text.takeWhile isBlank, List.takeWhile_append_dropWhile.symm,
    List.all_eq_true.1 List.all_takeWhile⟩

theorem exists_trimEnd (text : List Char) :
    ∃ back, text = trimEnd text ++ back ∧ ∀ c ∈ back, isBlank c = true := by
  obtain ⟨front, hsplit, hblank⟩ := exists_trimStart text.reverse
  refine ⟨front.reverse, ?_, fun c hc => hblank c (List.mem_reverse.1 hc)⟩
  rw [trimEnd, ← List.reverse_append, ← trimStart, ← hsplit, List.reverse_reverse]

/-- Only white space is taken off. -/
theorem exists_trim (text : List Char) :
    ∃ front back, text = front ++ (trim text ++ back) ∧ (∀ c ∈ front, isBlank c = true) ∧
      ∀ c ∈ back, isBlank c = true := by
  obtain ⟨front, hfront, hfrontBlank⟩ := exists_trimStart text
  obtain ⟨back, hback, hbackBlank⟩ := exists_trimEnd (trimStart text)
  exact ⟨front, back, by rw [trim, ← hback, ← hfront], hfrontBlank, hbackBlank⟩

end SqlDraft
