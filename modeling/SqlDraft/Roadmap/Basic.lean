import SqlDraft.Roadmap.Check
import SqlDraft.Roadmap.Question

/-!
# Roadmaps

A roadmap is the checklist for one question.  The question belongs to the first category whose
terms it mentions; a question about creating a table belongs to that category whatever else it
mentions.
-/

namespace SqlDraft

inductive Category
  | aggregate
  | delete
  | selectFilter
  | createTable
  deriving DecidableEq, Repr

structure Step where
  id : String
  description : String
  check : Check
  deriving DecidableEq, Repr

def Step.isComplete (s : Step) (draft : String) : Bool :=
  s.check.holds draft

structure Roadmap where
  category : Option Category
  steps : List Step
  deriving DecidableEq, Repr

namespace Roadmap

/-! ## Terms -/

def aggregateTerms : List Term :=
  [["minimum"], ["maximum"], ["max"], ["min"], ["avg"], ["average"], ["count"], ["sum"]]

def aliasTerms : List Term :=
  [["rename"], ["as"], ["title"]]

def deleteTerms : List Term :=
  [["delete"], ["remove"], ["clear"]]

def selectTerms : List Term :=
  [["list"], ["show"], ["find"], ["select"], ["who"]]

def filterTerms : List Term :=
  [["where"], ["scoring"], ["more", "than"], ["greater"], ["less"], ["whose"]]

def createTerms : List Term :=
  [["create"], ["new", "table"], ["make", "table"]]

/-! ## Steps -/

def aggregateSteps : List Step :=
  [⟨"aggregate", "Use an aggregate function (MAX, MIN, AVG, COUNT or SUM)", .aggregateCall⟩,
   ⟨"source", "Specify the source table with FROM", .fromClause⟩]

def aliasStep : Step :=
  ⟨"alias", "Rename the result column with AS", .asAlias⟩

def deleteSteps : List Step :=
  [⟨"delete", "Start with DELETE FROM <table>", .deleteFrom⟩,
   ⟨"filter", "Filter rows with a WHERE condition", .whereClause⟩]

def selectSteps : List Step :=
  [⟨"columns", "Choose the columns with SELECT", .selectKeyword⟩,
   ⟨"source", "Identify the source table with FROM", .fromClause⟩]

def filterStep : Step :=
  ⟨"filter", "Filter rows with a WHERE condition", .whereClause⟩

def createSteps : List Step :=
  [⟨"create", "Use CREATE TABLE <name>", .createTable⟩,
   ⟨"if-not-exists", "Recommended: add IF NOT EXISTS", .ifNotExists⟩,
   ⟨"columns", "Define the columns inside parentheses", .parenGroup⟩]

/-! ## The roadmap for a question -/

def empty : Roadmap :=
  ⟨none, []⟩

def categoryOf? (q : Question) : Option Category :=
  if q.mentions createTerms then some .createTable
  else if q.mentions aggregateTerms then some .aggregate
  else if q.mentions deleteTerms then some .delete
  else if q.mentions selectTerms then some .selectFilter
  else none

/-- The steps towards an answer to a question of a category.  Two categories have a further step
for a further term in the question. -/
def stepsFor (q : Question) : Category → List Step
  | .aggregate => if q.mentions aliasTerms then aggregateSteps ++ [aliasStep] else aggregateSteps
  | .delete => deleteSteps
  | .selectFilter => if q.mentions filterTerms then selectSteps ++ [filterStep] else selectSteps
  | .createTable => createSteps

def ofQuestion (q : Question) : Roadmap :=
  match categoryOf? q with
  | some category => ⟨some category, stepsFor q category⟩
  | none => empty

def forQuestion (text : String) : Roadmap :=
  ofQuestion (.ofText text)

/-! ## Progress -/

def isEmpty (r : Roadmap) : Bool :=
  r.steps.isEmpty

def progress (r : Roadmap) (draft : String) : List Bool :=
  let ts := tokens draft
  r.steps.map fun s => s.check.holdsIn ts

theorem progress_eq (r : Roadmap) (draft : String) :
    r.progress draft = r.steps.map fun s => s.isComplete draft := rfl

/-- Whether there are steps and a draft has taken all of them. -/
def isFinished (r : Roadmap) (draft : String) : Bool :=
  !r.isEmpty && (r.progress draft).all id

end Roadmap

end SqlDraft
