import Mathlib.Data.List.Induction
import SqlDraft.Proofs.Desk

/-!
# Tickets

Tickets and submissions share one counter, so the newest number tells whether anything has happened
that makes a ticket stale.  `Desk.deliver_guard` says so for a whole run: an answer is taken exactly
when nothing did and its table is still the one that is shown.
-/

namespace SqlDraft

namespace Session

/-- A ticket carries the next number and the table that is shown. -/
theorem requestSnapshot_cases (s : Session) :
    (s.preview.table? = none ∧ s.requestSnapshot = (none, s)) ∨
    ∃ table, s.preview.table? = some table ∧
      s.requestSnapshot = (some ⟨s.issued + 1, table⟩, { s with issued := s.issued + 1 }) := by
  unfold requestSnapshot
  cases h : s.preview.table? with
  | none => exact .inl ⟨rfl, rfl⟩
  | some table => exact .inr ⟨table, rfl, rfl⟩

@[simp] theorem refresh_issued (s : Session) : s.refresh.issued = s.issued := rfl

theorem deliver_of_not_wants {s : Session} {ticket : Ticket} (answer : Answer)
    (h : s.wants ticket = false) : s.deliver ticket answer = (false, s) := by
  rw [deliver, h]
  rfl

@[simp] theorem deliver_fst (s : Session) (ticket : Ticket) (answer : Answer) :
    (s.deliver ticket answer).1 = s.wants ticket := by
  unfold deliver
  split <;> simp_all

@[simp] theorem deliver_issued (s : Session) (ticket : Ticket) (answer : Answer) :
    (s.deliver ticket answer).2.issued = s.issued := by
  unfold deliver
  split <;> rfl

/-- An answer is wanted when its ticket is the newest and its table is shown. -/
theorem wants_iff {s : Session} {ticket : Ticket} :
    s.wants ticket = true ↔ ticket.request = s.issued ∧
      ∃ table, s.preview.table? = some table ∧ sameName table ticket.table = true := by
  rw [wants, Bool.and_eq_true, beq_iff_eq, Option.any_eq_true]

theorem endRun_issued (s : Session) (run : Run) :
    (s.endRun run).2.issued = if run.query = "" then s.issued else s.issued + 1 := by
  unfold endRun
  by_cases h : run.query = ""
  · simp only [if_pos h]
  · simp only [if_neg h, refresh_issued]

def deliverAll (s : Session) (answers : List (Ticket × Answer)) : Session :=
  answers.foldl (fun s a => (s.deliver a.1 a.2).2) s

theorem deliverAll_append (s : Session) (as bs : List (Ticket × Answer)) :
    s.deliverAll (as ++ bs) = (s.deliverAll as).deliverAll bs :=
  List.foldl_append

theorem deliverAll_of_stale {s : Session} {answers : List (Ticket × Answer)}
    (h : ∀ a ∈ answers, a.1.request ≠ s.issued) : s.deliverAll answers = s := by
  induction answers with
  | nil => rfl
  | cons a as ih =>
    have hwants : s.wants a.1 = false := by
      rw [Bool.eq_false_iff]
      intro hw
      exact h a (List.mem_cons_self ..) (wants_iff.1 hw).1
    rw [deliverAll, List.foldl_cons, deliver_of_not_wants a.2 hwants]
    exact ih fun b hb => h b (List.mem_cons_of_mem a hb)

/-- Of several answers only one to the newest ticket matters, whatever stands before and after. -/
theorem deliverAll_around {s : Session} {before later : List (Ticket × Answer)}
    (newest : Ticket × Answer)
    (h : ∀ a ∈ before ++ later, a.1.request ≠ s.issued) :
    s.deliverAll (before ++ newest :: later) = (s.deliver newest.1 newest.2).2 := by
  rw [deliverAll_append, deliverAll_of_stale fun a ha => h a (List.mem_append_left later ha)]
  rw [deliverAll, List.foldl_cons]
  apply deliverAll_of_stale
  intro a ha
  rw [deliver_issued]
  exact h a (List.mem_append_right before ha)

end Session

namespace Desk.Moment

def ticket? (m : Moment) : Option Ticket :=
  match m.event with
  | .requestSnapshot => m.desk.session.requestSnapshot.1
  | _ => none

/-- Whether a submission with a statement in it ends at a moment. -/
def endsStatement (m : Moment) : Bool :=
  match m.event with
  | .endRun number => m.desk.runs[number]?.any fun run => run.query != ""
  | _ => false

/-- Whether a number is taken at a moment, by a ticket or by a submission. -/
def takesNumber (m : Moment) : Bool :=
  m.ticket?.isSome || m.endsStatement

end Desk.Moment

namespace Desk

def numbersTaken (d : Desk) (events : List Event) : Nat :=
  (d.moments events).countP Moment.takesNumber

theorem numbersTaken_append (d : Desk) (es fs : List Event) :
    d.numbersTaken (es ++ fs) = d.numbersTaken es + (d.after es).numbersTaken fs := by
  rw [numbersTaken, moments_append, List.countP_append]
  rfl

theorem numbersTaken_cons (d : Desk) (e : Event) (es : List Event) :
    d.numbersTaken (e :: es) =
      (if (Moment.mk d e).takesNumber then 1 else 0) + (d.step e).numbersTaken es := by
  rw [numbersTaken, moments, List.countP_cons, Nat.add_comm]
  rfl

/-- The counter moves with the numbers that are taken, and with nothing else. -/
theorem issued_step (d : Desk) (e : Event) :
    (d.step e).session.issued =
      d.session.issued + if (Moment.mk d e).takesNumber then 1 else 0 := by
  cases e with
  | requestSnapshot =>
    rw [show (Moment.mk d .requestSnapshot).takesNumber = d.session.requestSnapshot.1.isSome by
      simp [Moment.takesNumber, Moment.ticket?, Moment.endsStatement]]
    obtain ⟨_, hreq⟩ | ⟨table, _, hreq⟩ := d.session.requestSnapshot_cases
    · simp [step, hreq]
    · simp [step, hreq]
  | endRun number =>
    rw [show (Moment.mk d (.endRun number)).takesNumber =
      d.runs[number]?.any fun run => run.query != "" from rfl]
    cases hrun : d.runs[number]? with
    | none => simp [step, hrun]
    | some run =>
      by_cases hq : run.query = ""
      · simp [step, hrun, Session.endRun_issued, hq]
      · simp [step, hrun, Session.endRun_issued, hq]
  | deliver ticket answer =>
    rw [step, Session.deliver_issued]
    exact (UInt64.add_zero _).symm
  | setDraft text => exact (UInt64.add_zero _).symm
  | ask text => exact (UInt64.add_zero _).symm
  | beginRun => exact (UInt64.add_zero _).symm
  | accept number answer => exact (UInt64.add_zero _).symm

theorem issued_after (d : Desk) (events : List Event) :
    (d.after events).session.issued = d.session.issued + .ofNat (d.numbersTaken events) := by
  induction events generalizing d with
  | nil => simp [numbersTaken, moments]
  | cons e es ih =>
    rw [after_cons, ih, issued_step, numbersTaken_cons, UInt64.ofNat_add, UInt64.add_assoc]
    congr 2
    split <;> rfl

/-- As long as the counter has not come round, it counts the numbers taken. -/
theorem toNat_issued {events : List Event} (h : new.numbersTaken events < UInt64.size) :
    (new.after events).session.issued.toNat = new.numbersTaken events := by
  have hnew : new.session.issued = 0 := rfl
  rw [issued_after, hnew, UInt64.zero_add]
  exact UInt64.toNat_ofNat_of_lt' h

theorem issued_after_eq_iff {d : Desk} {events : List Event}
    (h : d.numbersTaken events < UInt64.size) :
    d.session.issued = (d.after events).session.issued ↔ d.numbersTaken events = 0 := by
  have hmod : (UInt64.ofNat (d.numbersTaken events)).toNat = d.numbersTaken events :=
    UInt64.toNat_ofNat_of_lt' h
  rw [issued_after]
  constructor
  · intro heq
    have hzero : UInt64.ofNat (d.numbersTaken events) = 0 := by grind
    rw [hzero] at hmod
    exact hmod.symm
  · intro hzero
    rw [hzero]
    exact (UInt64.add_zero _).symm

/-- The tickets that have been handed out carry growing numbers, none beyond the counter. -/
structure Numbered (d : Desk) : Prop where
  growing : d.tickets.Pairwise fun a b => a.request.toNat < b.request.toNat
  issued : ∀ t ∈ d.tickets, t.request.toNat ≤ d.session.issued.toNat

theorem numbered_new : Numbered new :=
  ⟨.nil, fun _ ht => by cases ht⟩

theorem request_of_ticket? {m : Moment} {ticket : Ticket} (h : m.ticket? = some ticket) :
    ticket.request = m.desk.session.issued + 1 := by
  obtain ⟨d, e⟩ := m
  cases e <;> try contradiction
  obtain ⟨_, hreq⟩ | ⟨table, _, hreq⟩ := d.session.requestSnapshot_cases <;>
    simp only [Moment.ticket?, hreq] at h <;> cases h
  rfl

theorem tickets_step (d : Desk) (e : Event) :
    (d.step e).tickets = d.tickets ++ (Moment.mk d e).ticket?.toList := by
  cases e <;> simp [step, Moment.ticket?]

theorem toNat_issued_step {d : Desk} {e : Event}
    (hroom : d.session.issued.toNat + d.numbersTaken [e] < UInt64.size) :
    (d.step e).session.issued.toNat = d.session.issued.toNat + d.numbersTaken [e] := by
  have htaken : d.numbersTaken [e] < UInt64.size := by omega
  have hstep : d.step e = d.after [e] := rfl
  rw [hstep, issued_after, UInt64.toNat_add, UInt64.toNat_ofNat_of_lt' htaken]
  exact Nat.mod_eq_of_lt hroom

theorem numbered_step {d : Desk} {e : Event} (hd : Numbered d)
    (hroom : d.session.issued.toNat + d.numbersTaken [e] < UInt64.size) : Numbered (d.step e) := by
  have hissued := toNat_issued_step hroom
  cases ht : (Moment.mk d e).ticket? with
  | none =>
    have htickets : (d.step e).tickets = d.tickets := by
      rw [tickets_step, ht]
      exact List.append_nil _
    refine ⟨?_, fun t hmem => ?_⟩
    · rw [htickets]
      exact hd.growing
    · rw [htickets] at hmem
      have hle := hd.issued t hmem
      omega
  | some ticket =>
    have htaken : d.numbersTaken [e] = 1 := by
      rw [numbersTaken_cons, Moment.takesNumber, ht]
      rfl
    have htickets : (d.step e).tickets = d.tickets ++ [ticket] := by
      rw [tickets_step, ht]
      rfl
    have hnumber : ticket.request.toNat = d.session.issued.toNat + 1 := by
      rw [htaken] at hroom
      rw [request_of_ticket? ht, UInt64.toNat_add]
      exact Nat.mod_eq_of_lt hroom
    -- The new number is beyond the old counter, below which all earlier tickets stay.
    refine ⟨?_, fun t hmem => ?_⟩
    · rw [htickets, List.pairwise_append]
      refine ⟨hd.growing, List.pairwise_singleton .., fun a ha b hb => ?_⟩
      rw [List.mem_singleton.1 hb, hnumber]
      exact Nat.lt_succ_of_le (hd.issued a ha)
    · rw [htickets, List.mem_append, List.mem_singleton] at hmem
      rw [hissued, htaken]
      rcases hmem with hmem | rfl
      · exact Nat.le_succ_of_le (hd.issued t hmem)
      · exact Nat.le_of_eq hnumber

theorem numbered_after (events : List Event) (h : new.numbersTaken events < UInt64.size) :
    Numbered (new.after events) := by
  -- From the last event backwards: that the counter has room at the end is known, and room before
  -- every earlier event follows from it.
  induction events using List.reverseRecOn with
  | nil => exact numbered_new
  | append_singleton es e ih =>
    rw [numbersTaken_append] at h
    have hes : new.numbersTaken es < UInt64.size := by omega
    rw [after_append]
    apply numbered_step (ih hes)
    rw [toNat_issued hes]
    exact h

theorem newest_of_sublist {d : Desk} (hd : Numbered d) {older : List (Ticket × Answer)}
    {newest : Ticket × Answer} (h : ((older ++ [newest]).map Prod.fst).Sublist d.tickets) :
    ∀ a ∈ older, a.1.request ≠ d.session.issued := by
  intro a ha heq
  have hgrowing := hd.growing.sublist h
  rw [List.map_append, List.pairwise_append] at hgrowing
  have hlt : a.1.request.toNat < newest.1.request.toNat :=
    hgrowing.2.2 a.1 (List.mem_map_of_mem ha) newest.1 (List.mem_singleton.2 rfl)
  have hle : newest.1.request.toNat ≤ d.session.issued.toNat := by
    apply hd.issued
    apply h.subset
    rw [List.map_append]
    exact List.mem_append_right _ (List.mem_singleton.2 rfl)
  rw [heq] at hlt
  omega

theorem deliverAll_perm {d : Desk} (hd : Numbered d) {older order : List (Ticket × Answer)}
    {newest : Ticket × Answer} (h : ((older ++ [newest]).map Prod.fst).Sublist d.tickets)
    (hperm : order.Perm (older ++ [newest])) :
    d.session.deliverAll order = (d.session.deliver newest.1 newest.2).2 := by
  -- Whatever comes before the newest ticket or after it is refused, so its place does not matter.
  have hmem : newest ∈ order := hperm.mem_iff.2 (List.mem_append_right _ (List.mem_singleton.2 rfl))
  obtain ⟨before, later, rfl⟩ := List.append_of_mem hmem
  have hrest : (before ++ later).Perm older := by
    apply List.Perm.cons_inv (a := newest)
    exact List.perm_middle.symm.trans (hperm.trans (List.perm_append_singleton newest older))
  exact Session.deliverAll_around newest fun a ha =>
    newest_of_sublist hd h a (hrest.mem_iff.1 ha)

/-- In any run with fewer than 2 ^ 64 numbers taken, the answer to a ticket is accepted if and only
if since the ticket no other one was handed out, no submission of a statement ended, and the table
that is shown is the ticket's.  An answer that is refused changes nothing, so answers that arrive in
any order leave what the one to the newest ticket leaves. -/
theorem deliver_guard (earlier since : List Event) (ticket : Ticket) (answer : Answer)
    (hissued : (new.after earlier).session.requestSnapshot.1 = some ticket)
    (hcount : new.numbersTaken (earlier ++ .requestSnapshot :: since) < UInt64.size) :
    let asked := (new.after earlier).step .requestSnapshot
    let now := asked.after since
    ((now.session.deliver ticket answer).1 = true ↔
      (∀ m ∈ asked.moments since, m.ticket? = none) ∧
      (∀ m ∈ asked.moments since, m.endsStatement = false) ∧
      ∃ table, now.session.preview.table? = some table ∧ sameName table ticket.table = true) ∧
    ((now.session.deliver ticket answer).1 = false →
      (now.session.deliver ticket answer).2 = now.session) ∧
    ∀ (older order : List (Ticket × Answer)) (newest : Ticket × Answer),
      ((older ++ [newest]).map Prod.fst).Sublist now.tickets → order.Perm (older ++ [newest]) →
      now.session.deliverAll order = (now.session.deliver newest.1 newest.2).2 := by
  intro asked now
  have hrun : now = new.after (earlier ++ .requestSnapshot :: since) := by
    rw [after_append, after_cons]
  have hsince : asked.numbersTaken since < UInt64.size := by
    rw [numbersTaken_append, numbersTaken_cons] at hcount
    change _ + (_ + asked.numbersTaken since) < _ at hcount
    omega
  have hrequest : ticket.request = asked.session.issued := by
    have hticket : (Moment.mk (new.after earlier) .requestSnapshot).ticket? = some ticket := hissued
    rw [request_of_ticket? hticket, issued_step, Moment.takesNumber, hticket]
    rfl
  have hnone : asked.numbersTaken since = 0 ↔
      (∀ m ∈ asked.moments since, m.ticket? = none) ∧
        ∀ m ∈ asked.moments since, m.endsStatement = false := by
    rw [numbersTaken, List.countP_eq_zero]
    simp only [Moment.takesNumber, Bool.or_eq_true, not_or, Bool.not_eq_true,
      Option.isSome_eq_false_iff, Option.isNone_iff_eq_none]
    exact ⟨fun h => ⟨fun m hm => (h m hm).1, fun m hm => (h m hm).2⟩,
      fun h m hm => ⟨h.1 m hm, h.2 m hm⟩⟩
  refine ⟨?_, fun hrefused => ?_, fun older order newest hsub hperm => ?_⟩
  · rw [Session.deliver_fst, Session.wants_iff, hrequest, issued_after_eq_iff hsince, hnone,
      and_assoc]
  · rw [Session.deliver_fst] at hrefused
    rw [Session.deliver_of_not_wants answer hrefused]
  · have hnumbered : Numbered now := by
      rw [hrun]
      exact numbered_after _ hcount
    exact deliverAll_perm hnumbered hsub hperm

/-- A second ticket outlives an edit that spells the table otherwise, a submission that has only
begun, and the late answer to the first ticket. -/
theorem deliver_guard_second_ticket :
    (new.after [.setDraft "SELECT * FROM students", .requestSnapshot]).session.requestSnapshot.1 =
      some ⟨2, "students"⟩ ∧
    new.numbersTaken ([.setDraft "SELECT * FROM students", .requestSnapshot] ++ .requestSnapshot ::
      [.setDraft "DELETE FROM Students", .beginRun, .deliver ⟨1, "students"⟩ (.failed "late")]) <
        UInt64.size ∧
    ((((new.after [.setDraft "SELECT * FROM students", .requestSnapshot]).step
      .requestSnapshot).after [.setDraft "DELETE FROM Students", .beginRun,
        .deliver ⟨1, "students"⟩ (.failed "late")]).session.deliver ⟨2, "students"⟩
          (.failed "offline")).1 = true := by
  have hissued : (new.after [.setDraft "SELECT * FROM students",
      .requestSnapshot]).session.requestSnapshot.1 = some ⟨2, "students"⟩ := by
    decide +kernel
  have hcount : new.numbersTaken ([.setDraft "SELECT * FROM students", .requestSnapshot] ++
      .requestSnapshot :: [.setDraft "DELETE FROM Students", .beginRun,
        .deliver ⟨1, "students"⟩ (.failed "late")]) < UInt64.size := by
    decide +kernel
  refine ⟨hissued, hcount, ?_⟩
  apply (deliver_guard _ _ _ _ hissued hcount).1.2
  exact ⟨by decide +kernel, by decide +kernel, "students", by decide +kernel, by decide +kernel⟩

end Desk

end SqlDraft
