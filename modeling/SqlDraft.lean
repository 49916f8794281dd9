import SqlDraft.Editor
import SqlDraft.Main
import SqlDraft.Proofs.Desk
import SqlDraft.Proofs.Plan
import SqlDraft.Proofs.Tickets
import SqlDraft.Proofs.Derivation
import SqlDraft.Proofs.Outline
import SqlDraft.Proofs.Fetch
import SqlDraft.Proofs.Shown
import SqlDraft.Proofs.Provenance
import SqlDraft.Proofs.LateRun
import SqlDraft.Proofs.Bracket
import SqlDraft.Proofs.Appending
import SqlDraft.Proofs.EditHistory
import SqlDraft.Proofs.Quoting
import SqlDraft.Proofs.Insertion
import SqlDraft.Proofs.Agreement
import SqlDraft.Proofs.JsonStrings
import SqlDraft.Proofs.JsonNumbers
import SqlDraft.Proofs.JsonValues
import SqlDraft.Proofs.ResponseText
import SqlDraft.Proofs.Writing
import SqlDraft.Proofs.Nesting
import SqlDraft.Proofs.DefinitionText
import SqlDraft.Proofs.TypingOn
import SqlDraft.Proofs.Spans
import SqlDraft.Proofs.Printing
import SqlDraft.Proofs.Respelling
import SqlDraft.Proofs.LetterCase
import SqlDraft.Proofs.Literals
import SqlDraft.Proofs.Gaps
import SqlDraft.Proofs.Extents
import SqlDraft.Proofs.TypeText
import SqlDraft.Proofs.Comments
import SqlDraft.Proofs.Cells
import SqlDraft.Proofs.Unclosed
import SqlDraft.Proofs.CellText
import SqlDraft.Proofs.QuotedCells
import SqlDraft.Proofs.Alignment
import SqlDraft.Proofs.Questions
import SqlDraft.Proofs.Progress
import SqlDraft.Proofs.Places
import SqlDraft.Proofs.Capitals
