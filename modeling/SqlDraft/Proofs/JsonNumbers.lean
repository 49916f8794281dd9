import Mathlib.Data.Bool.AllAny
import SqlDraft.Json.Number

/-!
# Numbers as JSON spells them

A number is read up to what follows a value: white space, a comma, a closing bracket or the end of
the text.  `literal_of_numberText` says that every well-formed number is read to its end, and
`number_toString` that a whole number of 64 bits is read as itself.
-/

namespace SqlDraft.Json

/-- Whether what follows a value sets it off. -/
def Delimited (rest : List Char) : Prop :=
  ∀ c cs, rest = c :: cs → c ∈ [' ', '\n', '\t', '\r', ',', ']', '\x7d']

def IsDigits (ds : List Char) : Prop :=
  ds ≠ [] ∧ ∀ c ∈ ds, c.isDigit = true

/-- Whether a text is the digits in front of the point: none is superfluous. -/
def IsWholeDigits (ds : List Char) : Prop :=
  IsDigits ds ∧ (ds.head? = some '0' → ds = ['0'])

/-- Whether a text is the point and the digits after it, or nothing. -/
def IsFraction (text : List Char) : Prop :=
  text = [] ∨ ∃ ds, IsDigits ds ∧ text = '.' :: ds

/-- Whether a text is an exponent, or nothing. -/
def IsExponent (text : List Char) : Prop :=
  text = [] ∨ ∃ mark signText ds, mark ∈ ['e', 'E'] ∧ signText ∈ [[], ['+'], ['-']] ∧ IsDigits ds ∧
    text = mark :: (signText ++ ds)

inductive NumberText : List Char → Prop
  | parts {minus whole fraction exponent : List Char} (hminus : minus ∈ [[], ['-']])
      (hwhole : IsWholeDigits whole) (hfraction : IsFraction fraction)
      (hexponent : IsExponent exponent) :
      NumberText (minus ++ (whole ++ (fraction ++ exponent)))

/-! ## Reading digits -/

/-- Whether a text does not go on with another digit. -/
def NoDigit (rest : List Char) : Prop :=
  ∀ c cs, rest = c :: cs → c.isDigit = false

theorem Delimited.noDigit {rest : List Char} (h : Delimited rest) : NoDigit rest := by
  intro c cs heq
  have hall : ∀ c ∈ [' ', '\n', '\t', '\r', ',', ']', '\x7d'], c.isDigit = false :=
    List.all_iff_forall_prop.1 (by decide)
  exact hall c (h c cs heq)

theorem Delimited.ne {rest : List Char} (h : Delimited rest) {d : Char}
    (hd : d ∉ [' ', '\n', '\t', '\r', ',', ']', '\x7d']) {cs : List Char} : rest ≠ d :: cs :=
  fun heq => hd (h d cs heq)

theorem NoDigit.cons {c : Char} (h : c.isDigit = false) (cs : List Char) : NoDigit (c :: cs) := by
  intro d ds heq
  rw [← (List.cons.inj heq).1]
  exact h

theorem digits_append (short : Fault) {ds rest : List Char} (hds : IsDigits ds)
    (hrest : NoDigit rest) : digits short (ds ++ rest) = .ok (ds, rest) := by
  obtain ⟨hne, hall⟩ := hds
  have hstop : rest.takeWhile Char.isDigit = [] ∧ rest.dropWhile Char.isDigit = rest := by
    cases rest with
    | nil => exact ⟨rfl, rfl⟩
    | cons c cs =>
      have hc : ¬ c.isDigit = true := by
        rw [hrest c cs rfl]
        exact Bool.false_ne_true
      exact ⟨List.takeWhile_cons_of_neg hc, List.dropWhile_cons_of_neg hc⟩
  obtain ⟨d, ds, rfl⟩ := List.exists_cons_of_ne_nil hne
  rw [List.cons_append, digits, if_pos (hall d (List.mem_cons_self ..)), ← List.cons_append,
    List.takeWhile_append_of_pos hall, List.dropWhile_append_of_pos hall, hstop.1, hstop.2,
    List.append_nil]

theorem wholeDigits_append (short : Fault) {ds rest : List Char} (hds : IsWholeDigits ds)
    (hrest : NoDigit rest) : wholeDigits short (ds ++ rest) = .ok (ds, rest) := by
  obtain ⟨hdigits, hzero⟩ := hds
  simp only [wholeDigits, digits_append short hdigits hrest, bind, Except.bind]
  split
  next d ds => exact absurd (hzero rfl) (by simp)
  next => rfl

/-! ## Reading numbers -/

theorem fraction_append (short : Fault) {text rest : List Char} (h : IsFraction text)
    (hdigit : NoDigit rest) (hpoint : ∀ cs, rest ≠ '.' :: cs) :
    ∃ ds, fraction short (text ++ rest) = .ok (ds, rest) ∧ (text = [] → ds = none) := by
  rcases h with rfl | ⟨ds, hds, rfl⟩
  · refine ⟨none, ?_, fun _ => rfl⟩
    rw [List.nil_append]
    unfold fraction
    split
    next cs => exact absurd rfl (hpoint cs)
    next => rfl
  · refine ⟨some ds, ?_, fun h => absurd h (List.cons_ne_nil _ _)⟩
    simp only [List.cons_append, fraction, digits_append short hds hdigit]
    rfl

theorem sign_append {signText ds : List Char} (hsign : signText ∈ [[], ['+'], ['-']])
    (hds : IsDigits ds) (rest : List Char) :
    ∃ negative, sign (signText ++ (ds ++ rest)) = (negative, ds ++ rest) := by
  obtain ⟨hne, hall⟩ := hds
  simp only [List.mem_cons, List.not_mem_nil, or_false] at hsign
  rcases hsign with rfl | rfl | rfl
  · obtain ⟨d, ds, rfl⟩ := List.exists_cons_of_ne_nil hne
    have hd := hall d (List.mem_cons_self ..)
    refine ⟨false, ?_⟩
    rw [List.nil_append, List.cons_append]
    unfold sign
    split
    next heq => exact absurd ((List.cons.inj heq).1 ▸ hd) (by decide)
    next heq => exact absurd ((List.cons.inj heq).1 ▸ hd) (by decide)
    next => rfl
  · exact ⟨false, rfl⟩
  · exact ⟨true, rfl⟩

theorem exponent_append (short : Fault) {text rest : List Char} (h : IsExponent text)
    (hrest : Delimited rest) :
    ∃ size, exponent short (text ++ rest) = .ok (size, rest) ∧ (text = [] → size = none) := by
  rcases h with rfl | ⟨mark, signText, ds, hmark, hsign, hds, rfl⟩
  · refine ⟨none, ?_, fun _ => rfl⟩
    rw [List.nil_append]
    cases rest with
    | nil => rfl
    | cons c cs =>
      have hc : ¬ (c = 'e' ∨ c = 'E') := by
        rintro (rfl | rfl)
        · exact hrest.ne (by decide) rfl
        · exact hrest.ne (by decide) rfl
      rw [exponent, if_neg hc]
  · obtain ⟨negative, hread⟩ := sign_append hsign hds rest
    have hmark : mark = 'e' ∨ mark = 'E' := by simpa using hmark
    refine ⟨some (if negative then -(digitsValue ds : Int) else digitsValue ds), ?_,
      fun h => absurd h (List.cons_ne_nil _ _)⟩
    rw [List.cons_append, exponent, if_pos hmark, List.append_assoc]
    simp only [hread, digits_append short hds hrest.noDigit, bind, Except.bind]
    rfl

/-- What comes after the digits in front of the point does not go on with them. -/
theorem noDigit_fraction_append {fraction exponent rest : List Char}
    (hfraction : IsFraction fraction) (hexponent : IsExponent exponent) (hrest : Delimited rest) :
    NoDigit (exponent ++ rest) ∧ (∀ cs, exponent ++ rest ≠ '.' :: cs) ∧
      NoDigit (fraction ++ (exponent ++ rest)) := by
  have hexponent : NoDigit (exponent ++ rest) ∧ ∀ cs, exponent ++ rest ≠ '.' :: cs := by
    rcases hexponent with rfl | ⟨mark, signText, ds, hmark, -, -, rfl⟩
    · exact ⟨hrest.noDigit, fun cs => hrest.ne (by decide)⟩
    · have hall : ∀ c ∈ ['e', 'E'], c.isDigit = false ∧ c ≠ '.' :=
        List.all_iff_forall_prop.1 (by decide)
      obtain ⟨hdigit, hpoint⟩ := hall mark hmark
      exact ⟨NoDigit.cons hdigit _, fun cs heq => hpoint (List.cons.inj heq).1⟩
  refine ⟨hexponent.1, hexponent.2, ?_⟩
  rcases hfraction with rfl | ⟨ds, -, rfl⟩
  · exact hexponent.1
  · exact NoDigit.cons (by decide) _

/-- What is read of a literal after its sign. -/
def unsignedLiteral (short : Fault) (negative : Bool) : Reader Literal := fun cs => do
  let (whole, cs) ← wholeDigits short cs
  let (fraction, cs) ← fraction short cs
  let (exponent, cs) ← exponent short cs
  return (⟨negative, whole, fraction, exponent⟩, cs)

theorem literal_minus (short : Fault) (cs : List Char) :
    literal short ('-' :: cs) = unsignedLiteral short true cs := rfl

theorem literal_of_isDigit (short : Fault) {d : Char} (h : d.isDigit = true) (cs : List Char) :
    literal short (d :: cs) = unsignedLiteral short false (d :: cs) := by
  unfold literal
  split
  next negative rest heq =>
    split at heq
    next hminus => exact absurd ((List.cons.inj hminus).1 ▸ h) (by decide)
    next =>
      obtain ⟨rfl, rfl⟩ := Prod.mk.inj heq
      rfl

/-- A well-formed number is read to its end, and a part that is left out as none. -/
theorem literal_append (short : Fault) {minus whole fraction exponent rest : List Char}
    (hminus : minus ∈ [[], ['-']]) (hwhole : IsWholeDigits whole) (hfraction : IsFraction fraction)
    (hexponent : IsExponent exponent) (hrest : Delimited rest) :
    ∃ l, literal short (minus ++ (whole ++ (fraction ++ exponent)) ++ rest) = .ok (l, rest) ∧
      l.negative = !minus.isEmpty ∧ l.whole = whole ∧ (fraction = [] → l.fraction = none) ∧
      (exponent = [] → l.exponent = none) := by
  obtain ⟨hdigit, hpoint, hlater⟩ := noDigit_fraction_append hfraction hexponent hrest
  obtain ⟨places, hplaces, hnoPlaces⟩ := fraction_append short hfraction hdigit hpoint
  obtain ⟨size, hsize, hnoSize⟩ := exponent_append short hexponent hrest
  have hread (negative : Bool) :
      unsignedLiteral short negative (whole ++ (fraction ++ (exponent ++ rest))) =
        .ok (⟨negative, whole, places, size⟩, rest) := by
    simp only [unsignedLiteral, wholeDigits_append short hwhole hlater, hplaces, hsize, bind,
      Except.bind]
    rfl
  simp only [List.append_assoc]
  simp only [List.mem_cons, List.not_mem_nil, or_false] at hminus
  rcases hminus with rfl | rfl
  · refine ⟨⟨false, whole, places, size⟩, ?_, rfl, rfl, hnoPlaces, hnoSize⟩
    obtain ⟨⟨hne, hall⟩, -⟩ := hwhole
    obtain ⟨d, ds, rfl⟩ := List.exists_cons_of_ne_nil hne
    exact (literal_of_isDigit short (hall d (List.mem_cons_self ..)) _).trans (hread false)
  · refine ⟨⟨true, whole, places, size⟩, ?_, rfl, rfl, hnoPlaces, hnoSize⟩
    exact (literal_minus short _).trans (hread true)

theorem literal_of_numberText (short : Fault) {text rest : List Char} (h : NumberText text)
    (hrest : Delimited rest) : ∃ l, literal short (text ++ rest) = .ok (l, rest) := by
  cases h with
  | parts hminus hwhole hfraction hexponent =>
    obtain ⟨l, hl, -⟩ := literal_append short hminus hwhole hfraction hexponent hrest
    exact ⟨l, hl⟩

theorem NumberText.exists_cons {text : List Char} (h : NumberText text) :
    ∃ c cs, text = c :: cs ∧ (c = '-' ∨ c.isDigit = true) := by
  cases h with
  | @parts minus whole fraction exponent hminus hwhole =>
    simp only [List.mem_cons, List.not_mem_nil, or_false] at hminus
    rcases hminus with rfl | rfl
    · obtain ⟨⟨hne, hall⟩, -⟩ := hwhole
      obtain ⟨d, ds, rfl⟩ := List.exists_cons_of_ne_nil hne
      exact ⟨d, _, rfl, .inr (hall d (List.mem_cons_self ..))⟩
    · exact ⟨'-', _, rfl, .inl rfl⟩

/-! ## Whole numbers -/

theorem digitsValue_toDigits (n : Nat) : digitsValue (Nat.toDigits 10 n) = n := by
  have hvalue : Nat.ofDigitChars 10 (Nat.toDigits 10 n) 0 = n := Nat.ofDigitChars_ten_toDigits
  have hstep : (fun (m : Nat) (c : Char) => m * 10 + (c.toNat - '0'.toNat)) =
      fun m c => 10 * m + (c.toNat - '0'.toNat) := by
    funext m c
    rw [Nat.mul_comm]
  rw [digitsValue, hstep]
  exact hvalue

theorem isWholeDigits_toDigits (n : Nat) : IsWholeDigits (Nat.toDigits 10 n) := by
  refine ⟨⟨Nat.toDigits_ne_nil, fun c hc => Nat.isDigit_of_mem_toDigits (by decide) (by decide) hc⟩,
    ?_⟩
  -- A number from ten on starts with the digits of its tenth part, which is not zero.
  induction n using Nat.strongRecOn with
  | ind n ih =>
    intro hzero
    by_cases hn : n < 10
    · rw [Nat.toDigits_of_lt_base hn] at hzero ⊢
      rw [List.head?_cons] at hzero
      rw [Option.some.inj hzero]
    · have hge : 10 ≤ n := Nat.le_of_not_lt hn
      have htenth := ih (n / 10) (by omega)
      obtain ⟨d, ds, hds⟩ := List.exists_cons_of_ne_nil (@Nat.toDigits_ne_nil (n / 10) 10)
      rw [Nat.toDigits_of_base_le (by decide) hge, hds] at hzero
      rw [hds] at htenth
      have htenth := congrArg digitsValue (hds.trans (htenth hzero))
      rw [digitsValue_toDigits, show digitsValue ['0'] = 0 from rfl] at htenth
      omega

theorem toList_toString_nat (n : Nat) : (toString n).toList = Nat.toDigits 10 n := by
  rw [Nat.toString_eq_ofList_toDigits, String.toList_ofList]

theorem toList_toString_int (n : Int) :
    (toString n).toList = (if n < 0 then ['-'] else []) ++ Nat.toDigits 10 n.natAbs := by
  rw [Int.toString_eq_repr]
  cases n with
  | ofNat m =>
    rw [if_neg (by simp)]
    exact toList_toString_nat m
  | negSucc m =>
    rw [if_pos (Int.negSucc_lt_zero m)]
    change ("-" ++ toString (m + 1)).toList = _
    rw [String.toList_append, toList_toString_nat]
    rfl

/-- A whole number of 64 bits is read as itself. -/
theorem number_toString {n : Int} (hlow : -0x8000000000000000 ≤ n) (hhigh : n ≤ 0xFFFFFFFFFFFFFFFF)
    {rest : List Char} (hrest : Delimited rest) :
    number ((toString n).toList ++ rest) = .ok (.whole n, rest) := by
  have hminus : (if n < 0 then ['-'] else []) ∈ [[], ['-']] := by
    split <;> simp
  have hsign : (!(if n < 0 then ['-'] else []).isEmpty) = decide (n < 0) := by
    by_cases hn : n < 0
    · simp only [if_pos hn, decide_eq_true hn, List.isEmpty_cons, Bool.not_false]
    · simp only [if_neg hn, decide_eq_false hn, List.isEmpty_nil, Bool.not_true]
  obtain ⟨⟨negative, whole, places, size⟩, hl, hnegative, rfl, hplaces, hsize⟩ :=
    literal_append .ended hminus (isWholeDigits_toDigits n.natAbs) (.inl rfl) (.inl rfl) hrest
  obtain rfl : negative = decide (n < 0) := hnegative.trans hsign
  obtain rfl : places = none := hplaces rfl
  obtain rfl : size = none := hsize rfl
  have hvalue : (if n < 0 then -(n.natAbs : Int) else n.natAbs) = n := by
    split <;> omega
  -- Zero is never written with a minus, which would be read as a zero of its own.
  have hzero : (decide (n < 0) && n.natAbs == 0) = false := by
    rw [Bool.and_eq_false_iff, decide_eq_false_iff_not, beq_eq_false_iff_ne]
    omega
  have hnumber : (⟨decide (n < 0), Nat.toDigits 10 n.natAbs, none, none⟩ : Literal).number? =
      some (.whole n) := by
    simp only [Literal.number?, Option.getD_none, List.append_nil, digitsValue_toDigits, hvalue,
      hzero, wholeRange, Option.isNone_none, Bool.not_false, Bool.and_self, Bool.true_and,
      Bool.and_eq_true, decide_eq_true_eq]
    rw [if_pos ⟨hlow, hhigh⟩]
  rw [List.append_nil, List.append_nil] at hl
  rw [toList_toString_int, number]
  simp only [hl, hnumber, bind, Except.bind]
  rfl

end SqlDraft.Json
