import SqlDraft.Proofs.Desk

/-!
# Plans

Which requests running a draft takes is known before the first of them is sent: nothing for an empty
draft, the statement alone, or the statement between two fetches of the table that it changes.  A
submission in progress keeps no such list and no count of its answers.  `Desk.run_follows_plan` says
that it sends the requests of the plan all the same, and comes to what the answers to them say.
Run through a service, a draft takes one pass over the plan (`Plan.submit_eq`).
-/

namespace SqlDraft

/-- The requests that running a draft takes. -/
inductive Plan
  | nothing
  | plain (query : String)
  | bracketed (query table : String)
  deriving DecidableEq, Repr

namespace Plan

/-- The plan for a draft, of which white space around it is no part. -/
def ofDraft (draft : String) : Plan :=
  let query := String.ofList (trim draft.toList)
  if query = "" then nothing
  else if changesData (tokens query) then
    match referencedTable? query with
    | some table => bracketed query table
    | none => plain query
  else plain query

def requests : Plan → List Request
  | nothing => []
  | plain query => [⟨query⟩]
  | bracketed query table => [.selectAll table, ⟨query⟩, .selectAll table]

/-- The outcome of a statement with the answer to it, if there is one. -/
def outcomeOf (answer : Option Answer) : Outcome :=
  match answer with
  | some answer => .ofAnswer answer
  | none => .failed Run.unansweredMessage

/-- What a plan comes to when its requests are answered from the first on.  Answers beyond the plan
are not looked at. -/
def submission (plan : Plan) (answers : List Answer) : Submission :=
  match plan with
  | nothing => ⟨none, .failed Run.emptyMessage, none⟩
  | plain _ => ⟨none, outcomeOf answers[0]?, none⟩
  | bracketed _ table =>
    ⟨answers[0]?.map (Snapshot.ofAnswer table), outcomeOf answers[1]?,
      answers[2]?.map (Snapshot.ofAnswer table)⟩

/-- The submission in progress whose requests have been answered from the first on. -/
def run (plan : Plan) (answers : List Answer) : Run :=
  match plan with
  | nothing => ⟨"", none, none, some (.failed Run.emptyMessage), none⟩
  | plain query => ⟨query, none, none, answers[0]?.map Outcome.ofAnswer, none⟩
  | bracketed query table =>
    ⟨query, some table, answers[0]?.map (Snapshot.ofAnswer table),
      answers[1]?.map Outcome.ofAnswer, answers[2]?.map (Snapshot.ofAnswer table)⟩

theorem start_eq_run (draft : String) : Run.start draft = (ofDraft draft).run [] := by
  unfold Run.start ofDraft
  generalize String.ofList (trim draft.toList) = query
  by_cases hempty : query = ""
  · subst hempty
    rw [if_pos rfl, if_pos rfl]
    rfl
  · simp only [if_neg hempty]
    change Run.mk query (if changesData (tokens query) = true then referencedTable? query else none)
      none none none = _
    by_cases hchange : changesData (tokens query) = true
    · rw [if_pos hchange, if_pos hchange]
      cases referencedTable? query <;> rfl
    · rw [if_neg hchange, if_neg hchange]
      rfl

/-- One more answer is one more answered request, or too many. -/
theorem accept_run (plan : Plan) (answers : List Answer) (answer : Answer) :
    (plan.run answers).accept answer = plan.run (answers ++ [answer]) := by
  cases plan with
  | nothing => rfl
  | plain query => cases answers <;> rfl
  | bracketed query table =>
    -- The phases of a bracketed statement: before, during, after, and past the refresh.
    match answers with
    | [] => rfl
    | [_] => rfl
    | [_, _] => rfl
    | _ :: _ :: _ :: _ => rfl

theorem foldl_accept_run (plan : Plan) (given answers : List Answer) :
    answers.foldl Run.accept (plan.run given) = plan.run (given ++ answers) := by
  induction answers generalizing given with
  | nil => rw [List.append_nil]; rfl
  | cons answer answers ih =>
    rw [List.foldl_cons, accept_run, ih, List.append_assoc, List.singleton_append]

theorem next?_run (plan : Plan) (answers : List Answer) :
    (plan.run answers).next? = plan.requests[answers.length]? := by
  cases plan with
  | nothing => rfl
  | plain query => cases answers <;> rfl
  | bracketed query table =>
    match answers with
    | [] => rfl
    | [_] => rfl
    | [_, _] => rfl
    | _ :: _ :: _ :: _ => rfl

theorem submission_run (plan : Plan) (answers : List Answer) :
    (plan.run answers).submission = plan.submission answers := by
  cases plan with
  | nothing => rfl
  | plain query => cases answers <;> rfl
  | bracketed query table =>
    match answers with
    | [] => rfl
    | [_] => rfl
    | _ :: _ :: _ => rfl

section
variable {m : Type → Type} [Monad m] (execute : Request → m Answer)

theorem complete_of_next?_eq_none {run : Run} (h : run.next? = none) :
    run.complete execute = pure run := by
  unfold Run.complete
  split
  next => rfl
  next heq => rw [h] at heq; cases heq

theorem complete_of_next?_eq_some {run : Run} {request : Request} (h : run.next? = some request) :
    run.complete execute =
      execute request >>= fun answer => (run.accept answer).complete execute := by
  rw [Run.complete]
  split
  next heq => rw [h] at heq; cases heq
  next heq => rw [h] at heq; obtain rfl := Option.some.inj heq; rfl

variable [LawfulMonad m]

theorem complete_run (plan : Plan) (given : List Answer) :
    (plan.run given).complete execute =
      (fun answers => plan.run (given ++ answers)) <$>
        (plan.requests.drop given.length).mapM execute := by
  induction hrest : plan.requests.drop given.length generalizing given with
  | nil =>
    have hnext : (plan.run given).next? = none := by
      rw [next?_run, ← List.head?_drop, hrest, List.head?_nil]
    rw [complete_of_next?_eq_none execute hnext, List.mapM_nil, map_pure, List.append_nil]
  | cons request later ih =>
    have hnext : (plan.run given).next? = some request := by
      rw [next?_run, ← List.head?_drop, hrest, List.head?_cons]
    have hlater : ∀ answer, plan.requests.drop (given ++ [answer]).length = later := by
      intro answer
      rw [List.length_append, List.length_singleton, ← List.tail_drop, hrest, List.tail_cons]
    rw [complete_of_next?_eq_some execute hnext, List.mapM_cons]
    simp only [accept_run, ih _ (hlater _), map_bind, bind_pure_comp, Functor.map_map,
      List.append_assoc, List.singleton_append]

/-- Running a draft through a service sends the requests of its plan, each one once and in order,
whatever the answers are, and takes them all. -/
theorem submit_eq (s : Session) :
    s.submit execute =
      (fun answers => s.endRun (answers.foldl Run.accept s.beginRun)) <$>
        (ofDraft s.draft).requests.mapM execute := by
  have hstart : s.beginRun = (ofDraft s.draft).run [] := start_eq_run s.draft
  rw [Session.submit, hstart, complete_run]
  simp only [foldl_accept_run, List.length_nil, List.drop_zero, map_eq_pure_bind, bind_assoc,
    pure_bind]

end

end Plan

namespace Event

def answerTo? (number : Nat) : Event → Option Answer
  | accept n answer => if n = number then some answer else none
  | _ => none

end Event

namespace Desk

/-- The answers that events give to the submission with a number. -/
def answersTo (number : Nat) (events : List Event) : List Answer :=
  events.filterMap (Event.answerTo? number)

theorem runs_step {d : Desk} {number : Nat} {run : Run} (e : Event)
    (h : d.runs[number]? = some run) :
    (d.step e).runs[number]? = some ((e.answerTo? number).toList.foldl Run.accept run) := by
  cases e with
  | accept n answer =>
    simp only [step, Event.answerTo?, List.getElem?_modify, h]
    by_cases hn : n = number
    · simp only [hn, ↓reduceIte]; rfl
    · simp only [hn, ↓reduceIte]; rfl
  | beginRun =>
    -- A later submission is put after this one and leaves its number alone.
    have hlt : number < d.runs.length := (List.getElem?_eq_some_iff.1 h).1
    simp only [step, Event.answerTo?, List.getElem?_append_left hlt]
    exact h
  | endRun n => exact h
  | setDraft text => exact h
  | ask text => exact h
  | requestSnapshot => exact h
  | deliver ticket answer => exact h

theorem runs_after {d : Desk} {number : Nat} {run : Run} (events : List Event)
    (h : d.runs[number]? = some run) :
    (d.after events).runs[number]? = some ((answersTo number events).foldl Run.accept run) := by
  induction events generalizing d run with
  | nil => exact h
  | cons e es ih =>
    rw [after_cons, ih (runs_step e h), ← List.foldl_append]
    cases ha : e.answerTo? number <;> simp [answersTo, ha]

theorem session_after_accepts (d : Desk) (number : Nat) (answers : List Answer) :
    (d.after (answers.map (.accept number))).session = d.session := by
  induction answers generalizing d with
  | nil => rfl
  | cons answer answers ih =>
    rw [List.map_cons, after_cons, ih]
    rfl

theorem answersTo_accepts (number : Nat) (answers : List Answer) :
    answersTo number (answers.map (.accept number)) = answers := by
  have hanswer : Event.answerTo? number ∘ Event.accept number = some := by
    funext answer
    simp only [Function.comp_apply, Event.answerTo?, ↓reduceIte]
  rw [answersTo, List.filterMap_map, hanswer, List.filterMap_some]

/-- Ending a submission that these answers were given to is a run of events like any other, and with
`Plan.submit_eq` so is running a draft through a service. -/
theorem session_after_submission (d : Desk) (answers : List Answer) :
    ((d.step .beginRun).after
        (answers.map (.accept d.runs.length) ++ [.endRun d.runs.length])).session =
      (d.session.endRun (answers.foldl Run.accept d.session.beginRun)).2 := by
  have hbegun : (d.step .beginRun).runs[d.runs.length]? = some d.session.beginRun := by
    simp only [step, List.getElem?_concat_length]
  have hrun := runs_after (answers.map (.accept d.runs.length)) hbegun
  rw [answersTo_accepts] at hrun
  rw [after_append, after_cons, after_nil, session_step_endRun hrun, session_after_accepts]
  rfl

end Desk

end SqlDraft
