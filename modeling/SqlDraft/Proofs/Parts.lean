import SqlDraft.Proofs.Lexemes
import SqlDraft.Proofs.Nesting

/-!
# Parts of a group

A group is cut at the commas that stand between none of the parentheses inside it.  Its parts with
those commas between them make up its body, which ends at the matching parenthesis or with the
draft: `Group.exists_extends`.
-/

namespace SqlDraft

/-! ## Levels -/

/-- How many parentheses some lexemes open and leave open, which is below zero where they close
more than they open. -/
def rise (ls : List Lexeme) : Int :=
  (ls.countP fun l => l.token = .symbol .openParen : Int) -
    ls.countP fun l => l.token = .symbol .closeParen

section Rise

variable {l : Lexeme}

@[simp] theorem rise_nil : rise [] = 0 := rfl

theorem rise_append (ls ms : List Lexeme) : rise (ls ++ ms) = rise ls + rise ms := by
  simp only [rise, List.countP_append]
  omega

theorem rise_cons (l : Lexeme) (ls : List Lexeme) : rise (l :: ls) = rise [l] + rise ls :=
  rise_append [l] ls

theorem rise_openParen (h : l.token = .symbol .openParen) : rise [l] = 1 := by
  simp [rise, h]

theorem rise_closeParen (h : l.token = .symbol .closeParen) : rise [l] = -1 := by
  simp [rise, h]

theorem rise_plain (hopen : l.token ≠ .symbol .openParen) (hclose : l.token ≠ .symbol .closeParen) :
    rise [l] = 0 := by
  simp [rise, hopen, hclose]

theorem rise_comma (h : l.token = .symbol .comma) : rise [l] = 0 :=
  rise_plain (by rw [h]; decide) (by rw [h]; decide)

end Rise

/-- Whether no front of some lexemes closes more parentheses than it opens, where `depth` are open
before. -/
def StaysInside (depth : Nat) (ls : List Lexeme) : Prop :=
  ∀ front, front <+: ls → 0 ≤ depth + rise front

theorem staysInside_nil (depth : Nat) : StaysInside depth [] := by
  intro front hfront
  obtain rfl := List.prefix_nil.1 hfront
  exact Int.natCast_nonneg depth

theorem StaysInside.cons {depth depth' : Nat} {l : Lexeme} {ls : List Lexeme}
    (h : StaysInside depth' ls) (hdepth : (depth' : Int) = depth + rise [l]) :
    StaysInside depth (l :: ls) := by
  intro front hfront
  rcases List.prefix_cons_iff.1 hfront with rfl | ⟨later, rfl, hlater⟩
  · exact Int.natCast_nonneg depth
  · have hinside := h later hlater
    rw [rise_cons]
    omega

theorem StaysInside.append {depth depth' : Nat} {ls ms : List Lexeme} (hls : StaysInside depth ls)
    (hms : StaysInside depth' ms) (hdepth : (depth' : Int) = depth + rise ls) :
    StaysInside depth (ls ++ ms) := by
  rintro front ⟨rest, hsplit⟩
  rcases List.append_eq_append_iff.1 hsplit with ⟨later, hfront, -⟩ | ⟨later, rfl, hlater⟩
  · exact hls front ⟨later, hfront.symm⟩
  · have hinside := hms later ⟨rest, hlater.symm⟩
    rw [rise_append]
    omega

/-! ## Commas -/

/-- Whether every comma among some lexemes stands between parentheses, where `depth` are open
before. -/
def NoOwnComma (depth : Nat) (ls : List Lexeme) : Prop :=
  ∀ front comma, front ++ [comma] <+: ls → comma.token = .symbol .comma → 0 < depth + rise front

theorem noOwnComma_nil (depth : Nat) : NoOwnComma depth [] := by
  intro front comma hfront
  simp at hfront

theorem NoOwnComma.cons {depth depth' : Nat} {l : Lexeme} {ls : List Lexeme}
    (h : NoOwnComma depth' ls) (hdepth : (depth' : Int) = depth + rise [l])
    (hl : l.token = .symbol .comma → depth ≠ 0) : NoOwnComma depth (l :: ls) := by
  intro front comma hfront hcomma
  cases front with
  | nil =>
    obtain ⟨rfl, -⟩ := List.cons_prefix_cons.1 hfront
    have hpos := Nat.pos_of_ne_zero (hl hcomma)
    rw [rise_nil]
    omega
  | cons m front =>
    obtain ⟨rfl, hlater⟩ := List.cons_prefix_cons.1 hfront
    have hpos := h front comma hlater hcomma
    rw [rise_cons]
    omega

/-- How many commas among some lexemes stand between no parentheses, where `depth` are open
before. -/
def ownCommas (depth : Nat) (ls : List Lexeme) : Nat :=
  (List.range ls.length).countP fun i =>
    ls[i]?.any (fun l => l.token = .symbol .comma) && decide (depth + rise (ls.take i) = 0)

theorem ownCommas_append {depth depth' : Nat} {ls ms : List Lexeme}
    (hdepth : (depth' : Int) = depth + rise ls) :
    ownCommas depth (ls ++ ms) = ownCommas depth ls + ownCommas depth' ms := by
  rw [ownCommas, List.length_append, List.range_add, List.countP_append, List.countP_map]
  congr 1
  · refine List.countP_congr fun i hi => ?_
    have hi : i < ls.length := List.mem_range.1 hi
    rw [List.getElem?_append_left hi, List.take_append_of_le_length (Nat.le_of_lt hi)]
  · -- In the second part the places count on, and so do the parentheses that are open.
    refine List.countP_congr fun i _ => ?_
    have hrise : depth + rise ((ls ++ ms).take (ls.length + i)) = depth' + rise (ms.take i) := by
      rw [List.take_length_add_append, rise_append]
      omega
    rw [Function.comp_apply, List.getElem?_append_right (Nat.le_add_right _ _),
      Nat.add_sub_cancel_left, hrise]

theorem ownCommas_eq_zero {depth : Nat} {ls : List Lexeme} (h : NoOwnComma depth ls) :
    ownCommas depth ls = 0 := by
  refine List.countP_eq_zero.2 fun i _ hown => ?_
  rw [Bool.and_eq_true, decide_eq_true_eq] at hown
  obtain ⟨hcomma, hrise⟩ := hown
  obtain ⟨l, hl, hcomma⟩ := (Option.any_eq_true ..).1 hcomma
  have hfront : ls.take i ++ [l] <+: ls := by
    have htake : ls.take (i + 1) = ls.take i ++ [l] := by
      rw [List.take_add_one, hl, Option.toList_some]
    exact htake ▸ List.take_prefix _ _
  have hpos := h _ l hfront (of_decide_eq_true hcomma)
  omega

theorem ownCommas_comma {comma : Lexeme} (h : comma.token = .symbol .comma) (ls : List Lexeme) :
    ownCommas 0 (comma :: ls) = ownCommas 0 ls + 1 := by
  have hlevel : ((0 : Nat) : Int) = ((0 : Nat) : Int) + rise [comma] := by
    rw [rise_comma h]
    rfl
  have hone : ownCommas 0 [comma] = 1 := by
    simp [ownCommas, h, List.range_succ]
  rw [← List.singleton_append, ownCommas_append hlevel, hone, Nat.add_comm]

/-! ## Parts with commas between them -/

/-- Whether parts divide the body of a group at its own commas, and nowhere else.  The last part may
be one that the draft ends in. -/
structure Divides (parts : List (List Lexeme)) (body : List Lexeme) : Prop where
  joined : Separated parts body
  count : parts.length = ownCommas 0 body + 1
  inside : ∀ part ∈ parts, StaysInside 0 part
  commas : ∀ part ∈ parts, NoOwnComma 0 part
  balanced : ∀ part ∈ parts.dropLast, rise part = 0

/-- Whether parts with commas between them make up some lexemes, where `depth` parentheses are open
before and `left` behind.  No comma of a part and no parenthesis closed in it is the group's. -/
inductive PartsOf : Nat → List (List Lexeme) → List Lexeme → Nat → Prop
  | last {depth left : Nat} {part : List Lexeme} (hinside : StaysInside depth part)
      (hcommas : NoOwnComma depth part) (hleft : (left : Int) = depth + rise part) :
      PartsOf depth [part] part left
  | comma {depth left : Nat} {part ls : List Lexeme} {parts : List (List Lexeme)} {comma : Lexeme}
      (hinside : StaysInside depth part) (hcommas : NoOwnComma depth part)
      (hlevel : depth + rise part = 0) (hcomma : comma.token = .symbol .comma)
      (h : PartsOf 0 parts ls left) : PartsOf depth (part :: parts) (part ++ comma :: ls) left

namespace PartsOf

variable {depth left : Nat} {parts : List (List Lexeme)} {ls : List Lexeme}

theorem nil (depth : Nat) : PartsOf depth [[]] [] depth :=
  .last (staysInside_nil depth) (noOwnComma_nil depth) (by rw [rise_nil, Int.add_zero])

/-- A lexeme that is no comma of the group goes into the first part. -/
theorem push {depth' : Nat} {l : Lexeme} {first : List Lexeme} {others : List (List Lexeme)}
    (h : PartsOf depth' (first :: others) ls left) (hdepth : (depth' : Int) = depth + rise [l])
    (hl : l.token = .symbol .comma → depth ≠ 0) :
    PartsOf depth ((l :: first) :: others) (l :: ls) left := by
  cases h with
  | last hinside hcommas hleft =>
    refine .last (hinside.cons hdepth) (hcommas.cons hdepth hl) ?_
    rw [rise_cons]
    omega
  | comma hinside hcommas hlevel hcomma h =>
    refine .comma (hinside.cons hdepth) (hcommas.cons hdepth hl) ?_ hcomma h
    rw [rise_cons]
    omega

theorem separated (h : PartsOf depth parts ls left) : Separated parts ls := by
  induction h with
  | last => exact .one
  | @comma _ _ _ _ parts _ _ _ _ hcomma h ih =>
    cases parts with
    | nil => cases h
    | cons next parts => exact .more hcomma ih

theorem left_eq (h : PartsOf depth parts ls left) : (left : Int) = depth + rise ls := by
  induction h with
  | last _ _ hleft => exact hleft
  | comma _ _ hlevel hcomma _ ih =>
    rw [rise_append, rise_cons, rise_comma hcomma]
    omega

theorem staysInside (h : PartsOf depth parts ls left) : StaysInside depth ls := by
  induction h with
  | last hinside => exact hinside
  | @comma _ _ _ ls _ comma hinside _ hlevel hcomma _ ih =>
    have hlater : StaysInside 0 (comma :: ls) := ih.cons (by rw [rise_comma hcomma]; rfl)
    exact hinside.append hlater hlevel.symm

theorem length_eq (h : PartsOf depth parts ls left) : parts.length = ownCommas depth ls + 1 := by
  induction h with
  | last _ hcommas => rw [ownCommas_eq_zero hcommas, List.length_singleton]
  | comma _ hcommas hlevel hcomma _ ih =>
    rw [ownCommas_append hlevel.symm, ownCommas_eq_zero hcommas, ownCommas_comma hcomma,
      List.length_cons, ih, Nat.zero_add]

theorem of_mem (h : PartsOf 0 parts ls left) {part : List Lexeme} (hpart : part ∈ parts) :
    StaysInside 0 part ∧ NoOwnComma 0 part := by
  -- The first part begins where no parenthesis is open, and so does every part behind a comma.
  generalize hdepth : 0 = depth at h
  induction h with
  | last hinside hcommas =>
    subst hdepth
    obtain rfl := List.mem_singleton.1 hpart
    exact ⟨hinside, hcommas⟩
  | comma hinside hcommas _ _ _ ih =>
    subst hdepth
    rcases List.mem_cons.1 hpart with rfl | hpart
    · exact ⟨hinside, hcommas⟩
    · exact ih hpart rfl

/-- All parts but the last one close what they open. -/
theorem exists_concat (h : PartsOf 0 parts ls left) :
    ∃ closed last, parts = closed ++ [last] ∧ (∀ part ∈ closed, rise part = 0) ∧
      rise last = left := by
  generalize hdepth : 0 = depth at h
  induction h with
  | last _ _ hleft =>
    subst hdepth
    refine ⟨[], _, rfl, nofun, ?_⟩
    omega
  | @comma _ _ part _ _ _ _ _ hlevel _ _ ih =>
    subst hdepth
    obtain ⟨closed, last, rfl, hclosed, hlast⟩ := ih rfl
    refine ⟨part :: closed, last, rfl, List.forall_mem_cons.2 ⟨?_, hclosed⟩, hlast⟩
    omega

theorem divides (h : PartsOf 0 parts ls left) : Divides parts ls where
  joined := h.separated
  count := h.length_eq
  inside _ hpart := (h.of_mem hpart).1
  commas _ hpart := (h.of_mem hpart).2
  balanced := by
    obtain ⟨closed, last, rfl, hclosed, -⟩ := h.exists_concat
    rwa [List.dropLast_concat]

/-- In a group that is closed the last part closes what it opens, too. -/
theorem rise_eq_zero (h : PartsOf 0 parts ls 0) : ∀ part ∈ parts, rise part = 0 := by
  obtain ⟨closed, last, rfl, hclosed, hlast⟩ := h.exists_concat
  exact List.forall_mem_append.2 ⟨hclosed, List.forall_mem_singleton.2 hlast⟩

end PartsOf

/-! ## Groups and their parts -/

/-- Whether two parentheses match, with `body` between them. -/
structure Pair (paren : Lexeme) (body : List Lexeme) (close : Lexeme) : Prop where
  opens : paren.token = .symbol .openParen
  closes : close.token = .symbol .closeParen
  inside : StaysInside 0 body
  level : rise body = 0

theorem PartsOf.pair {paren close : Lexeme} {parts : List (List Lexeme)} {body : List Lexeme}
    (h : PartsOf 0 parts body 0) (hparen : paren.token = .symbol .openParen)
    (hclose : close.token = .symbol .closeParen) : Pair paren body close where
  opens := hparen
  closes := hclose
  inside := h.staysInside
  level := by
    have hleft := h.left_eq
    omega

/-- No parenthesis closes what stays open up to the end. -/
theorem not_pair_of_staysInside {paren close last : Lexeme} {body body' rest : List Lexeme}
    (h : StaysInside 0 body) (hlast : last.token = .eof)
    (hsplit : body ++ [last] = body' ++ close :: rest) : ¬ Pair paren body' close := by
  intro hpair
  -- It would stand in front of the end, and close one more than is open there.
  have hbody : body' ++ [close] <+: body := by
    rcases List.eq_nil_or_concat rest with rfl | ⟨more, end', rfl⟩
    · obtain ⟨-, heq⟩ := List.append_inj' hsplit rfl
      rw [List.singleton_inj.1 heq, hpair.closes] at hlast
      cases hlast
    · rw [List.concat_eq_append, ← List.cons_append, ← List.append_assoc] at hsplit
      obtain ⟨rfl, -⟩ := List.append_inj' hsplit rfl
      exact ⟨more, List.append_assoc ..⟩
  have hrise := h _ hbody
  rw [rise_append, hpair.level, rise_closeParen hpair.closes] at hrise
  exact absurd hrise (by decide)

namespace Group

/-- How a group ends, with `body` in front of its end. -/
inductive Extends (depth : Nat) (ls : List Lexeme) (g : Group) (body : List Lexeme) : Prop
  | closed {close : Lexeme} (hls : ls = body ++ close :: g.rest)
      (hclose : close.token = .symbol .closeParen) (hparts : PartsOf depth g.fragments body 0)
  | unclosed {last : Lexeme} {more : List Lexeme} {left : Nat} (hls : ls = body ++ last :: more)
      (hrest : g.rest = last :: more) (hlast : last.token = .eof)
      (hparts : PartsOf depth g.fragments body left)

theorem Extends.push {depth depth' : Nat} {l : Lexeme} {ls body : List Lexeme} {g : Group}
    (h : Extends depth' ls g body) (hdepth : (depth' : Int) = depth + rise [l])
    (hl : l.token = .symbol .comma → depth ≠ 0) :
    Extends depth (l :: ls) (push l g) (l :: body) := by
  cases h with
  | closed hls hclose hparts =>
    exact .closed (by rw [hls]; rfl) hclose (hparts.push hdepth hl)
  | unclosed hls hrest hlast hparts =>
    exact .unclosed (by rw [hls]; rfl) hrest hlast (hparts.push hdepth hl)

theorem Extends.comma {l : Lexeme} {ls body : List Lexeme} {g : Group} (h : Extends 0 ls g body)
    (hl : l.token = .symbol .comma) : Extends 0 (l :: ls) (pushComma g) (l :: body) := by
  have hempty {left : Nat} (hparts : PartsOf 0 g.fragments body left) :
      PartsOf 0 ([] :: g.fragments) ([] ++ l :: body) left :=
    .comma (staysInside_nil 0) (noOwnComma_nil 0) rfl hl hparts
  cases h with
  | closed hls hclose hparts => exact .closed (by rw [hls]; rfl) hclose (hempty hparts)
  | unclosed hls hrest hlast hparts =>
    exact .unclosed (by rw [hls]; rfl) hrest hlast (hempty hparts)

theorem exists_extends (depth : Nat) {ls : List Lexeme} (hend : ∃ l ∈ ls, l.token = .eof) :
    ∃ body, Extends depth ls (readAt depth ls) body := by
  have hlater {l : Lexeme} {ls : List Lexeme} (hne : l.token ≠ .eof)
      (hend : ∃ m ∈ l :: ls, m.token = .eof) : ∃ m ∈ ls, m.token = .eof := by
    simpa [hne] using hend
  -- What is read goes in front of the body of what is left, in the part that it stands in.
  fun_induction readAt depth ls with
  | case1 =>
    obtain ⟨l, hl, -⟩ := hend
    cases hl
  | case2 depth l ls hl => exact ⟨[], .unclosed rfl rfl hl (.nil depth)⟩
  | case3 depth l ls hl ih =>
    obtain ⟨body, hbody⟩ := ih (hlater (by rw [hl]; decide) hend)
    refine ⟨l :: body, hbody.push ?_ fun h => absurd (hl.symm.trans h) (by decide)⟩
    rw [rise_openParen hl]
    rfl
  | case4 l ls hl => exact ⟨[], .closed rfl hl (.nil 0)⟩
  | case5 l ls hl outer ih =>
    obtain ⟨body, hbody⟩ := ih (hlater (by rw [hl]; decide) hend)
    refine ⟨l :: body, hbody.push ?_ fun _ => Nat.succ_ne_zero outer⟩
    rw [rise_closeParen hl]
    omega
  | case6 l ls hl ih =>
    obtain ⟨body, hbody⟩ := ih (hlater (by rw [hl]; decide) hend)
    exact ⟨l :: body, hbody.comma hl⟩
  | case7 l ls hl outer ih =>
    obtain ⟨body, hbody⟩ := ih (hlater (by rw [hl]; decide) hend)
    refine ⟨l :: body, hbody.push ?_ fun _ => Nat.succ_ne_zero outer⟩
    rw [rise_comma hl]
    omega
  | case8 depth l ls heof hopen hclose hcomma ih =>
    obtain ⟨body, hbody⟩ := ih (hlater heof hend)
    refine ⟨l :: body, hbody.push ?_ fun h => absurd h hcomma⟩
    rw [rise_plain hopen hclose, Int.add_zero]

end Group

end SqlDraft
