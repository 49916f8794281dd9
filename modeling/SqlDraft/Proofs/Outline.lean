import Mathlib.Data.List.Induction
import SqlDraft.Proofs.Derivation
import SqlDraft.Proofs.Desk

/-!
# Outlines

The outline of a session is what its edits and questions alone make of it.  Answers, tickets and
submissions derive the preview anew, as often as they like, and `Desk.outline_after` says that the
outline never notices.
-/

namespace SqlDraft

namespace Session

/-- Whether deriving the preview once more would leave it as it is. -/
def Settled (s : Session) : Prop :=
  s.preview = .derive s.draft s.preview s.remote

theorem settled_new : new.Settled := by
  unfold Settled
  decide +kernel

theorem settled_refresh (s : Session) : s.refresh.Settled := by
  unfold Settled refresh
  dsimp only
  -- What is shown depends on the preview before through its schema only, and that one is stable.
  exact (Preview.derive_congr (Preview.schemaAfter_schema_derive s.draft s.preview s.remote) _).symm

theorem settled_deliver {s : Session} (hs : s.Settled) (ticket : Ticket) (answer : Answer) :
    (s.deliver ticket answer).2.Settled := by
  unfold deliver
  split
  · exact settled_refresh _
  · exact hs

theorem settled_requestSnapshot {s : Session} (hs : s.Settled) : s.requestSnapshot.2.Settled := by
  unfold requestSnapshot
  split <;> exact hs

theorem settled_endRun {s : Session} (hs : s.Settled) (run : Run) : (s.endRun run).2.Settled := by
  unfold endRun
  by_cases hquery : run.query = ""
  · simp only [if_pos hquery]
    exact hs
  · simp only [if_neg hquery]
    exact settled_refresh _

theorem settled_after (events : List Event) : (Desk.new.after events).session.Settled := by
  apply Desk.session_after (P := Settled)
  · exact settled_new
  · exact fun s text _ => settled_refresh _
  · exact fun s text hs => hs
  · exact fun s hs => settled_requestSnapshot hs
  · exact fun s ticket answer hs => settled_deliver hs ticket answer
  · exact fun s run hs => settled_endRun hs run

theorem Settled.schema {s : Session} (hs : s.Settled) :
    Preview.schemaAfter (lexemes s.draft) s.preview.schema = s.preview.schema := by
  rw [← Preview.schema_derive s.draft s.preview s.remote]
  exact (congrArg Preview.schema hs).symm

/-- The rows of the draft that are shown depend on the draft and on the schema alone. -/
theorem Settled.draftedRows {s : Session} (hs : s.Settled) :
    s.preview.draftedRows = Preview.fittedRows s.preview.schema (draftRows s.draft) := by
  have h := congrArg Preview.draftedRows hs
  rw [Preview.derive_eq_show?, Preview.draftedRows_show?, hs.schema] at h
  exact h

end Session

/-- What edits and questions alone make of a session. -/
structure Outline where
  draft : String
  question : String
  roadmap : Roadmap
  schema : Option Schema

def Session.outline (s : Session) : Outline :=
  ⟨s.draft, s.question, s.roadmap, s.preview.schema⟩

namespace Event

/-- Whether an event is the learner's own: an edit or a question. -/
def isLearners : Event → Bool
  | setDraft _ | ask _ => true
  | _ => false

end Event

namespace Outline

def step (o : Outline) : Event → Outline
  | .setDraft text =>
    { o with draft := text, schema := Preview.schemaAfter (lexemes text) o.schema }
  | .ask text => { o with question := text, roadmap := .forQuestion text }
  | _ => o

theorem step_of_not_isLearners {e : Event} (o : Outline) (h : e.isLearners = false) :
    o.step e = o := by
  cases e <;> first | rfl | contradiction

theorem foldl_step_filter (o : Outline) (events : List Event) :
    (events.filter Event.isLearners).foldl step o = events.foldl step o := by
  induction events generalizing o with
  | nil => rfl
  | cons e es ih =>
    by_cases h : e.isLearners = true
    · rw [List.filter_cons_of_pos h, List.foldl_cons, List.foldl_cons, ih]
    · rw [List.filter_cons_of_neg h, List.foldl_cons, ih,
        step_of_not_isLearners o (Bool.eq_false_iff.2 h)]

end Outline

namespace Session

theorem outline_refresh (s : Session) :
    s.refresh.outline =
      { s.outline with schema := Preview.schemaAfter (lexemes s.draft) s.preview.schema } := by
  simp only [outline, refresh, Preview.schema_derive]

/-- A settled session keeps its outline however often its preview is derived anew, from whatever
rows. -/
theorem Settled.outline_refresh {s t : Session} (hs : s.Settled) (h : t.outline = s.outline) :
    t.refresh.outline = s.outline := by
  have hdraft : t.draft = s.draft := congrArg Outline.draft h
  have hschema : t.preview.schema = s.preview.schema := congrArg Outline.schema h
  rw [Session.outline_refresh, h, hdraft, hschema, hs.schema]
  rfl

end Session

namespace Desk

theorem outline_step {d : Desk} (hd : d.session.Settled) (e : Event) :
    (d.step e).session.outline = d.session.outline.step e := by
  cases e with
  | setDraft text => exact Session.outline_refresh { d.session with draft := text }
  | ask text => rfl
  -- The other events are no step of the outline, and a settled session does not feel them.
  | requestSnapshot =>
    change d.session.requestSnapshot.2.outline = d.session.outline
    unfold Session.requestSnapshot
    split <;> rfl
  | deliver ticket answer =>
    change (d.session.deliver ticket answer).2.outline = d.session.outline
    unfold Session.deliver
    split
    · exact hd.outline_refresh rfl
    · rfl
  | beginRun => rfl
  | accept number answer => rfl
  | endRun number =>
    simp only [step, Outline.step]
    split
    · unfold Session.endRun
      dsimp only
      split
      · rfl
      · exact hd.outline_refresh rfl
    · rfl

/-- The outline of a session is what the learner's own events make of it. -/
theorem outline_after (events : List Event) :
    (new.after events).session.outline =
      (events.filter Event.isLearners).foldl Outline.step new.session.outline := by
  rw [Outline.foldl_step_filter]
  induction events using List.reverseRecOn with
  | nil => rfl
  | append_singleton es e ih =>
    rw [after_append, List.foldl_append, ← ih]
    exact outline_step (Session.settled_after es) e

/-- Two runs in which the learner does the same show the same schema, the same rows of the draft,
the same roadmap and the same progress, whatever is fetched, submitted and answered in between. -/
theorem answers_leave_outline (es fs : List Event)
    (h : es.filter Event.isLearners = fs.filter Event.isLearners) :
    (new.after es).session.preview.schema = (new.after fs).session.preview.schema ∧
    (new.after es).session.preview.draftedRows = (new.after fs).session.preview.draftedRows ∧
    (new.after es).session.roadmap = (new.after fs).session.roadmap ∧
    (new.after es).session.progress = (new.after fs).session.progress := by
  have houtline : (new.after es).session.outline = (new.after fs).session.outline := by
    rw [outline_after, outline_after, h]
  have hdraft := congrArg Outline.draft houtline
  have hroadmap := congrArg Outline.roadmap houtline
  have hschema := congrArg Outline.schema houtline
  dsimp only [Session.outline] at hdraft hroadmap hschema
  refine ⟨hschema, ?_, hroadmap, ?_⟩
  · rw [(Session.settled_after es).draftedRows, (Session.settled_after fs).draftedRows, hschema,
      hdraft]
  · rw [Session.progress, Session.progress, hroadmap, hdraft]

/-- A fetch between two edits and a submission after them make no difference. -/
theorem answers_leave_outline_pets :
    [Event.setDraft "CREATE TABLE pets (id INT)", .requestSnapshot,
      .deliver ⟨1, "pets"⟩ (.ok ⟨.success, none, [], [["1"]]⟩),
      .setDraft "INSERT INTO pets VALUES (2)"].filter Event.isLearners =
    [Event.setDraft "CREATE TABLE pets (id INT)", .setDraft "INSERT INTO pets VALUES (2)",
      .beginRun, .accept 0 (.failed "offline"), .endRun 0].filter Event.isLearners ∧
    (new.after [.setDraft "CREATE TABLE pets (id INT)", .requestSnapshot,
      .deliver ⟨1, "pets"⟩ (.ok ⟨.success, none, [], [["1"]]⟩),
      .setDraft "INSERT INTO pets VALUES (2)"]).session.preview.draftedRows =
    (new.after [.setDraft "CREATE TABLE pets (id INT)", .setDraft "INSERT INTO pets VALUES (2)",
      .beginRun, .accept 0 (.failed "offline"), .endRun 0]).session.preview.draftedRows := by
  have hlearner : [Event.setDraft "CREATE TABLE pets (id INT)", .requestSnapshot,
      .deliver ⟨1, "pets"⟩ (.ok ⟨.success, none, [], [["1"]]⟩),
      .setDraft "INSERT INTO pets VALUES (2)"].filter Event.isLearners =
    [Event.setDraft "CREATE TABLE pets (id INT)", .setDraft "INSERT INTO pets VALUES (2)",
      .beginRun, .accept 0 (.failed "offline"), .endRun 0].filter Event.isLearners := rfl
  exact ⟨hlearner, (answers_leave_outline _ _ hlearner).2.1⟩

end Desk

end SqlDraft
