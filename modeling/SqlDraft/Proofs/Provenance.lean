import SqlDraft.Proofs.Plan
import SqlDraft.Proofs.Shown
import SqlDraft.Proofs.Tickets

/-!
# Where fetched rows come from

A session keeps one place for fetched rows, and two kinds of events write to it.  `Merges` says
which answer such an event takes over, told from the events alone and not from the session.
`Desk.existingRows_from_latest` says that the rows that are shown as fetched are always those of the
answer that was taken over last.
-/

namespace SqlDraft

/-- Whether an event, after earlier ones, takes over an answer to a fetch of a table.  It may be the
answer to a ticket, if it is still wanted.  It may also be the answer to the last request of a
submission that was put between two fetches; that one is taken over when the submission ends. -/
inductive Merges (earlier : List Event) : Event → String → Answer → Prop
  | delivered {ticket : Ticket} {answer : Answer}
      (haccepted : ((Desk.new.after earlier).session.deliver ticket answer).1 = true) :
      Merges earlier (.deliver ticket answer) ticket.table answer
  | refreshed {before since : List Event} {query table : String} {answer : Answer}
      (hbegun : earlier = before ++ .beginRun :: since)
      (hplan : Plan.ofDraft (Desk.new.after before).session.draft = .bracketed query table)
      (hanswer : (Desk.answersTo (Desk.new.after before).runs.length since)[2]? = some answer) :
      Merges earlier (.endRun (Desk.new.after before).runs.length) table answer

/-- Whether an answer to a fetch of a table is the one that was taken over last. -/
def LatestMerge (events : List Event) (table : String) (answer : Answer) : Prop :=
  ∃ earlier e later, events = earlier ++ e :: later ∧ Merges earlier e table answer ∧
    ∀ mid f rest, later = mid ++ f :: rest → ∀ t a, ¬ Merges (earlier ++ e :: mid) f t a

theorem latestMerge_concat {events : List Event} {e : Event} {table : String} {answer : Answer} :
    LatestMerge (events ++ [e]) table answer ↔
      Merges events e table answer ∨
        LatestMerge events table answer ∧ ∀ t a, ¬ Merges events e t a := by
  constructor
  · rintro ⟨earlier, f, later, hsplit, hmerge, hlast⟩
    rcases List.eq_nil_or_concat later with rfl | ⟨later, g, rfl⟩
    · -- The last event of all is the one that merges.
      obtain ⟨rfl, hf⟩ := List.append_inj' hsplit rfl
      obtain rfl := List.singleton_inj.1 hf
      exact .inl hmerge
    · rw [List.concat_eq_append, ← List.cons_append, ← List.append_assoc] at hsplit
      obtain ⟨rfl, hg⟩ := List.append_inj' hsplit rfl
      obtain rfl := List.singleton_inj.1 hg
      refine .inr ⟨⟨earlier, f, later, rfl, hmerge, fun mid h rest hmid => ?_⟩, ?_⟩
      · apply hlast mid h (rest ++ [e])
        rw [hmid, List.concat_eq_append, List.append_assoc, List.cons_append]
      · exact hlast later e [] List.concat_eq_append
  · rintro (hmerge | ⟨⟨earlier, f, later, rfl, hmerge, hlast⟩, hnone⟩)
    · refine ⟨events, e, [], rfl, hmerge, fun mid f rest hmid => ?_⟩
      exact absurd hmid.symm (List.append_ne_nil_of_right_ne_nil mid (List.cons_ne_nil f rest))
    · refine ⟨earlier, f, later ++ [e], by rw [List.append_assoc, List.cons_append], hmerge, ?_⟩
      intro mid g rest hmid
      rcases List.eq_nil_or_concat rest with rfl | ⟨rest, g', rfl⟩
      · obtain ⟨rfl, hg⟩ := List.append_inj' hmid rfl
        obtain rfl := List.singleton_inj.1 hg
        exact hnone
      · rw [List.concat_eq_append, ← List.cons_append, ← List.append_assoc] at hmid
        obtain ⟨rfl, _⟩ := List.append_inj' hmid rfl
        exact hlast mid g rest rfl

theorem not_latestMerge_nil {table : String} {answer : Answer} :
    ¬ LatestMerge [] table answer := by
  rintro ⟨earlier, e, later, hsplit, _⟩
  exact absurd hsplit.symm (List.append_ne_nil_of_right_ne_nil earlier (List.cons_ne_nil e later))

/-! ## Submissions and when they began -/

namespace Desk

/-- A submission on the desk is where its plan has it, given the answers to it since it began. -/
theorem runs_begun (d : Desk) (since : List Event) :
    ((d.step .beginRun).after since).runs[d.runs.length]? =
      some ((Plan.ofDraft d.session.draft).run (answersTo d.runs.length since)) := by
  have hbegun : (d.step .beginRun).runs[d.runs.length]? =
      some ((Plan.ofDraft d.session.draft).run []) := by
    simp only [step, List.getElem?_concat_length, Session.beginRun, Plan.start_eq_run]
  rw [runs_after since hbegun, Plan.foldl_accept_run, List.nil_append]

theorem runs_length_step (d : Desk) (e : Event) :
    (d.step e).runs.length = d.runs.length + if e matches .beginRun then 1 else 0 := by
  cases e <;> simp [step]

/-- Every submission on the desk has begun at some time, and has gone by its plan since. -/
theorem exists_begun {events : List Event} {number : Nat} {run : Run}
    (h : (new.after events).runs[number]? = some run) :
    ∃ before since, events = before ++ .beginRun :: since ∧
      (new.after before).runs.length = number ∧
      run = (Plan.ofDraft (new.after before).session.draft).run (answersTo number since) := by
  -- When it began is enough: where it is by now follows from that.
  suffices hbegun : ∃ before since, events = before ++ .beginRun :: since ∧
      (new.after before).runs.length = number by
    obtain ⟨before, since, rfl, rfl⟩ := hbegun
    have hrun := runs_begun (new.after before) since
    rw [← after_cons, ← after_append, h] at hrun
    exact ⟨before, since, rfl, rfl, Option.some.inj hrun⟩
  have hnumber : number < (new.after events).runs.length := (List.getElem?_eq_some_iff.1 h).1
  clear h
  induction events using List.reverseRecOn with
  | nil => exact absurd hnumber (Nat.not_lt_zero number)
  | append_singleton es e ih =>
    by_cases hearlier : number < (new.after es).runs.length
    · obtain ⟨before, since, rfl, hbefore⟩ := ih hearlier
      refine ⟨before, since ++ [e], ?_, hbefore⟩
      rw [List.append_assoc, List.cons_append]
    · -- The submission is newer than the events before `e`, so it is `e` that begins it.
      rw [after_append, after_cons, after_nil, runs_length_step] at hnumber
      cases e with
      | beginRun => exact ⟨es, [], rfl, by simp at hnumber; omega⟩
      | _ => simp at hnumber; omega

theorem runs_length_le_after (d : Desk) (events : List Event) :
    d.runs.length ≤ (d.after events).runs.length := by
  induction events generalizing d with
  | nil => exact Nat.le_refl _
  | cons e es ih =>
    have hstep : d.runs.length ≤ (d.step e).runs.length := by
      rw [runs_length_step]
      exact Nat.le_add_right _ _
    exact Nat.le_trans hstep (ih (d.step e))

/-- Two submissions with the same number have nothing between their beginnings. -/
theorem eq_nil_of_begun {before mid since since' : List Event}
    (hsince : Event.beginRun :: since = mid ++ .beginRun :: since')
    (hnumber : (new.after before).runs.length = (new.after (before ++ mid)).runs.length) :
    mid = [] := by
  cases mid with
  | nil => rfl
  | cons e mid =>
    obtain ⟨rfl, _⟩ := List.cons.inj hsince
    have hle := runs_length_le_after ((new.after before).step .beginRun) mid
    rw [runs_length_step, ← after_cons, ← after_append, ← hnumber] at hle
    exact absurd hle (Nat.not_succ_le_self _)

theorem begun_unique {before before' since since' : List Event}
    (h : before ++ .beginRun :: since = before' ++ .beginRun :: since')
    (hnumber : (new.after before).runs.length = (new.after before').runs.length) :
    before = before' ∧ since = since' := by
  rcases List.append_eq_append_iff.1 h with ⟨mid, rfl, hsince⟩ | ⟨mid, rfl, hsince⟩
  · obtain rfl := eq_nil_of_begun hsince hnumber
    exact ⟨(List.append_nil before).symm, (List.cons.inj hsince).2⟩
  · obtain rfl := eq_nil_of_begun hsince hnumber.symm
    exact ⟨List.append_nil before', (List.cons.inj hsince).2.symm⟩

end Desk

theorem Merges.unique {earlier : List Event} {e : Event} {table table' : String}
    {answer answer' : Answer} (h : Merges earlier e table answer)
    (h' : Merges earlier e table' answer') : table = table' ∧ answer = answer' := by
  cases h with
  | delivered => cases h'; exact ⟨rfl, rfl⟩
  | @refreshed before since query _ _ hbegun hplan hanswer =>
    generalize hnumber : (Desk.new.after before).runs.length = number at h'
    cases h' with
    | @refreshed before' since' query' _ _ hbegun' hplan' hanswer' =>
      obtain ⟨rfl, rfl⟩ := Desk.begun_unique (hbegun.symm.trans hbegun') hnumber
      rw [hplan] at hplan'
      rw [hanswer] at hanswer'
      exact ⟨(Plan.bracketed.inj hplan').2, Option.some.inj hanswer'⟩

theorem LatestMerge.unique {events : List Event} {table table' : String}
    {answer answer' : Answer} (h : LatestMerge events table answer)
    (h' : LatestMerge events table' answer') : table = table' ∧ answer = answer' := by
  induction events using List.reverseRecOn with
  | nil => exact absurd h not_latestMerge_nil
  | append_singleton es e ih =>
    rcases latestMerge_concat.1 h with hmerge | ⟨hlatest, hnone⟩ <;>
      rcases latestMerge_concat.1 h' with hmerge' | ⟨hlatest', hnone'⟩
    · exact hmerge.unique hmerge'
    · exact absurd hmerge (hnone' _ _)
    · exact absurd hmerge' (hnone _ _)
    · exact ih hlatest hlatest'

/-! ## The rows that were last fetched -/

theorem Plan.query_ne_empty_of_bracketed {draft query table : String}
    (h : Plan.ofDraft draft = .bracketed query table) : query ≠ "" := by
  unfold Plan.ofDraft at h
  generalize String.ofList (trim draft.toList) = text at h
  by_cases hempty : text = ""
  · simp [hempty] at h
  · simp only [if_neg hempty] at h
    split at h
    · split at h
      · obtain ⟨rfl, rfl⟩ := Plan.bracketed.inj h
        exact hempty
      · cases h
    · cases h

namespace Session

theorem remote_deliver (s : Session) (ticket : Ticket) (answer : Answer) :
    (s.deliver ticket answer).2.remote =
      if (s.deliver ticket answer).1 then some (.ofAnswer ticket.table answer) else s.remote := by
  rw [deliver_fst]
  unfold deliver
  split <;> simp_all [refresh]

theorem remote_endRun (s : Session) (run : Run) :
    (s.endRun run).2.remote = if run.query = "" then s.remote else run.after.or s.remote := by
  unfold endRun
  by_cases h : run.query = ""
  · simp only [if_pos h]
  · simp only [if_neg h, refresh]

end Session

namespace Desk

theorem remote_of_merges {events : List Event} {e : Event} {table : String} {answer : Answer}
    (h : Merges events e table answer) :
    ((new.after events).step e).session.remote = some (.ofAnswer table answer) := by
  cases h with
  | delivered haccepted =>
    rw [step, Session.remote_deliver, if_pos haccepted]
  | @refreshed before since query table answer hbegun hplan hanswer =>
    have hrun := runs_begun (new.after before) since
    rw [hplan, ← after_cons, ← after_append, ← hbegun] at hrun
    have hquery : query ≠ "" := Plan.query_ne_empty_of_bracketed hplan
    rw [session_step_endRun hrun, Session.remote_endRun]
    simp only [Plan.run, if_neg hquery, hanswer, Option.map_some, Option.some_or]

theorem remote_of_not_merges {events : List Event} {e : Event}
    (h : ∀ table answer, ¬ Merges events e table answer) :
    ((new.after events).step e).session.remote = (new.after events).session.remote := by
  cases e with
  | setDraft text => rfl
  | ask text => rfl
  | beginRun => rfl
  | accept number answer => rfl
  | requestSnapshot =>
    rw [step]
    obtain ⟨_, hreq⟩ | ⟨table, _, hreq⟩ := (new.after events).session.requestSnapshot_cases <;>
      rw [hreq]
  | deliver ticket answer =>
    have hrefused : ¬ ((new.after events).session.deliver ticket answer).1 = true :=
      fun haccepted => h _ _ (.delivered haccepted)
    rw [step, Session.remote_deliver, if_neg hrefused]
  | endRun number =>
    cases hrun : (new.after events).runs[number]? with
    | none => rw [step, hrun]
    | some run =>
      obtain ⟨before, since, hbegun, rfl, rfl⟩ := exists_begun hrun
      rw [session_step_endRun hrun, Session.remote_endRun]
      -- Only a bracketed submission has a refresh, and an answered one would have been merged.
      cases hkind : Plan.ofDraft (new.after before).session.draft with
      | nothing => rfl
      | plain query => exact ite_self _
      | bracketed query table =>
        cases hanswer : (answersTo (new.after before).runs.length since)[2]? with
        | none =>
          rw [Plan.run, hanswer]
          exact ite_self _
        | some answer => exact absurd (.refreshed hbegun hkind hanswer) (h table answer)

theorem remote_of_latestMerge {events : List Event} {table : String} {answer : Answer}
    (h : LatestMerge events table answer) :
    (new.after events).session.remote = some (.ofAnswer table answer) := by
  induction events using List.reverseRecOn with
  | nil => exact absurd h not_latestMerge_nil
  | append_singleton es e ih =>
    rw [after_append, after_cons, after_nil]
    rcases latestMerge_concat.1 h with hmerge | ⟨hlatest, hnone⟩
    · exact remote_of_merges hmerge
    · rw [remote_of_not_merges hnone]
      exact ih hlatest

theorem exists_latestMerge_of_remote {events : List Event} {snapshot : Snapshot}
    (h : (new.after events).session.remote = some snapshot) :
    ∃ table answer, LatestMerge events table answer ∧ snapshot = .ofAnswer table answer := by
  induction events using List.reverseRecOn with
  | nil => cases h
  | append_singleton es e ih =>
    rw [after_append, after_cons, after_nil] at h
    by_cases hmerge : ∃ table answer, Merges es e table answer
    · obtain ⟨table, answer, hmerge⟩ := hmerge
      rw [remote_of_merges hmerge] at h
      exact ⟨table, answer, latestMerge_concat.2 (.inl hmerge), (Option.some.inj h).symm⟩
    · have hnone : ∀ table answer, ¬ Merges es e table answer :=
        fun table answer hm => hmerge ⟨table, answer, hm⟩
      rw [remote_of_not_merges hnone] at h
      obtain ⟨table, answer, hlatest, hsnapshot⟩ := ih h
      exact ⟨table, answer, latestMerge_concat.2 (.inr ⟨hlatest, hnone⟩), hsnapshot⟩

end Desk

namespace Snapshot

@[simp] theorem table_ofAnswer (table : String) (answer : Answer) :
    (ofAnswer table answer).table = table := by
  unfold ofAnswer
  split
  · split <;> rfl
  · rfl

theorem rows_ofAnswer_of_failed {table : String} {answer : Answer}
    (h : ∀ r, answer = .ok r → r.status ≠ .success) : (ofAnswer table answer).rows = [] := by
  unfold ofAnswer
  split
  next r =>
    have hstatus : ¬ r.isSuccess = true := by
      rw [Response.isSuccess, beq_iff_eq]
      exact h r rfl
    rw [if_neg hstatus]
    rfl
  next => rfl

theorem ofAnswer_of_success {table : String} {r : Response} (h : r.status = .success) :
    ofAnswer table (.ok r) = ⟨table, r.data⟩ := by
  have hstatus : r.isSuccess = true := by
    rw [Response.isSuccess, h]
    rfl
  rw [ofAnswer, if_pos hstatus]

end Snapshot

namespace Desk

theorem existingRows_of_remote_nil {events : List Event}
    (h : ∀ snapshot, (new.after events).session.remote = some snapshot → snapshot.rows = []) :
    (new.after events).session.preview.existingRows = [] := by
  rw [(Session.settled_after events).existingRows]
  cases (new.after events).session.preview.schema with
  | none => rfl
  | some schema =>
    rw [Preview.fittedFetched]
    cases hremote : (new.after events).session.remote with
    | none => rfl
    | some snapshot =>
      have hrows := h snapshot hremote
      rw [Preview.fetchedRows, hrows, ite_self]
      rfl

/-- Rows are shown as fetched only if they are, fitted to the columns, those of the answer that was
taken over last, and that one was a success and answered a fetch of the table that is shown.  After
a failure there are none.  An event that takes over no answer leaves what was fetched. -/
theorem existingRows_from_latest (events : List Event) :
    let shown := (new.after events).session.preview
    (shown.existingRows ≠ [] → ∃ schema table r, shown.schema = some schema ∧
      LatestMerge events table (.ok r) ∧
      (∀ t a, LatestMerge events t a → t = table ∧ a = .ok r) ∧
      r.status = .success ∧ sameName schema.table table = true ∧
      Row.ShowAll .existing schema.columns.length r.data shown.existingRows) ∧
    (∀ table answer, LatestMerge events table answer →
      (∀ r, answer = .ok r → r.status ≠ .success) → shown.existingRows = []) ∧
    ∀ e, (∀ table answer, ¬ Merges events e table answer) →
      ((new.after events).step e).session.remote = (new.after events).session.remote := by
  intro shown
  refine ⟨fun hshown => ?_, fun table answer hlatest hfailed => ?_, fun e => remote_of_not_merges⟩
  · obtain ⟨schema, snapshot, hschema, hremote, hname, hall⟩ :=
      (Session.settled_after events).consistent.exists_fetched hshown
    obtain ⟨table, answer, hlatest, rfl⟩ := exists_latestMerge_of_remote hremote
    have hsuccess : ∃ r, answer = .ok r ∧ r.status = .success := by
      by_contra hfailed
      apply hshown
      apply existingRows_of_remote_nil
      intro snapshot hsnapshot
      rw [hremote] at hsnapshot
      obtain rfl := Option.some.inj hsnapshot
      exact Snapshot.rows_ofAnswer_of_failed fun r hr hs => hfailed ⟨r, hr, hs⟩
    obtain ⟨r, rfl, hr⟩ := hsuccess
    rw [Snapshot.ofAnswer_of_success hr] at hall
    rw [Snapshot.table_ofAnswer] at hname
    exact ⟨schema, table, r, hschema, hlatest, fun t a h => h.unique hlatest, hr, hname, hall⟩
  · apply existingRows_of_remote_nil
    intro snapshot hremote
    rw [remote_of_latestMerge hlatest] at hremote
    rw [← Option.some.inj hremote]
    exact Snapshot.rows_ofAnswer_of_failed hfailed

end Desk

end SqlDraft
