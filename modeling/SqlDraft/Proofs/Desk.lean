import SqlDraft.Session.Basic

/-!
# A session and what it has handed out

A session meets events in any order: edits, questions, fetches, submissions, and answers that come
late or never.  The desk keeps the session together with every ticket and every submission that it
has handed out, so that a run of a session is a list of events.
-/

namespace SqlDraft

/-- Something that happens to a session. -/
inductive Event
  | setDraft (text : String)
  | ask (text : String)
  | requestSnapshot
  | deliver (ticket : Ticket) (answer : Answer)
  | beginRun
  /-- An answer to the submission that was begun as the one with this number. -/
  | accept (number : Nat) (answer : Answer)
  /-- The end of the submission with this number, finished or not. -/
  | endRun (number : Nat)

/-- A session with the tickets and the submissions that it has handed out, the oldest first. -/
structure Desk where
  session : Session
  tickets : List Ticket
  runs : List Run

namespace Desk

def new : Desk :=
  ⟨.new, [], []⟩

/-- What one event makes of a desk.  A submission that has ended stays on the desk, so that nothing
depends on its being forgotten. -/
def step (d : Desk) : Event → Desk
  | .setDraft text => { d with session := d.session.setDraft text }
  | .ask text => { d with session := d.session.ask text }
  | .requestSnapshot =>
    { d with
      session := d.session.requestSnapshot.2
      tickets := d.tickets ++ d.session.requestSnapshot.1.toList }
  | .deliver ticket answer => { d with session := (d.session.deliver ticket answer).2 }
  | .beginRun => { d with runs := d.runs ++ [d.session.beginRun] }
  | .accept number answer => { d with runs := d.runs.modify number fun run => run.accept answer }
  | .endRun number =>
    { d with
      session :=
        match d.runs[number]? with
        | some run => (d.session.endRun run).2
        | none => d.session }

/-- What events make of a desk, one after the other. -/
def after (d : Desk) (events : List Event) : Desk :=
  events.foldl step d

@[simp] theorem after_nil (d : Desk) : d.after [] = d := rfl

@[simp] theorem after_cons (d : Desk) (e : Event) (es : List Event) :
    d.after (e :: es) = (d.step e).after es := rfl

theorem after_append (d : Desk) (es fs : List Event) :
    d.after (es ++ fs) = (d.after es).after fs :=
  List.foldl_append

theorem session_step_endRun {d : Desk} {number : Nat} {run : Run}
    (h : d.runs[number]? = some run) :
    (d.step (.endRun number)).session = (d.session.endRun run).2 := by
  simp only [step, h]

/-! ## What holds of every session -/

/-- What a new session has and every operation keeps holds after any events. -/
theorem session_after {P : Session → Prop} (new : P .new)
    (setDraft : ∀ s text, P s → P (s.setDraft text)) (ask : ∀ s text, P s → P (s.ask text))
    (requestSnapshot : ∀ s : Session, P s → P s.requestSnapshot.2)
    (deliver : ∀ s ticket answer, P s → P (s.deliver ticket answer).2)
    (endRun : ∀ s run, P s → P (s.endRun run).2) (events : List Event) :
    P (Desk.new.after events).session := by
  suffices h : ∀ d : Desk, P d.session → P (d.after events).session from h Desk.new new
  induction events with
  | nil => exact fun d hd => hd
  | cons e es ih =>
    intro d hd
    apply ih
    cases e with
    | setDraft text => exact setDraft _ text hd
    | ask text => exact ask _ text hd
    | requestSnapshot => exact requestSnapshot _ hd
    | deliver ticket answer => exact deliver _ ticket answer hd
    | beginRun => exact hd
    | accept number answer => exact hd
    | endRun number =>
      simp only [step]
      split
      · exact endRun _ _ hd
      · exact hd

/-! ## Moments -/

structure Moment where
  desk : Desk
  event : Event

def moments : Desk → List Event → List Moment
  | _, [] => []
  | d, e :: es => ⟨d, e⟩ :: moments (d.step e) es

theorem moments_append (d : Desk) (es fs : List Event) :
    d.moments (es ++ fs) = d.moments es ++ (d.after es).moments fs := by
  induction es generalizing d with
  | nil => rfl
  | cons e es ih => simp only [List.cons_append, moments, after_cons, ih]

end Desk

end SqlDraft
