import WriteXorExecute.Report
import WriteXorExecute.Thread.Nesting
import WriteXorExecute.Thread.Law
import WriteXorExecute.Proofs.Locality
import WriteXorExecute.Proofs.ProgramLaw
import WriteXorExecute.Proofs.OperationLaw
import WriteXorExecute.Proofs.Position
import WriteXorExecute.Proofs.Throughout
import WriteXorExecute.Proofs.ThreadHistory
import WriteXorExecute.Proofs.Bookkeeping
import WriteXorExecute.Proofs.Switching
import WriteXorExecute.Proofs.Restoration
import WriteXorExecute.Proofs.Lexical
import WriteXorExecute.Proofs.Discipline
import WriteXorExecute.Proofs.Brackets
import WriteXorExecute.Proofs.Replacement
import WriteXorExecute.Proofs.Access
import WriteXorExecute.Proofs.Objects
import WriteXorExecute.Proofs.Unwinding
import WriteXorExecute.Proofs.Success
import WriteXorExecute.Proofs.Hazards
import WriteXorExecute.Proofs.Edits
import WriteXorExecute.Proofs.Contents
import WriteXorExecute.Proofs.Correspondence
import WriteXorExecute.Proofs.Simulation
import WriteXorExecute.Proofs.Agreement
import WriteXorExecute.Proofs.PlainCell
import WriteXorExecute.Proofs.Portability
import WriteXorExecute.Proofs.Isolation
import WriteXorExecute.Proofs.Publishing
import WriteXorExecute.Proofs.Alternation
import WriteXorExecute.Proofs.Excuse
import WriteXorExecute.Proofs.Backends
import WriteXorExecute.Proofs.Checks
import WriteXorExecute.Proofs.Detachment
import WriteXorExecute.Proofs.Transitions
import WriteXorExecute.Proofs.Acceptance
import WriteXorExecute.Proofs.Refusals
import WriteXorExecute.Proofs.Interruption
import WriteXorExecute.Proofs.Disorder
import WriteXorExecute.Proofs.Accounting
import WriteXorExecute.Proofs.Lateness
import WriteXorExecute.Proofs.Forms
import WriteXorExecute.Proofs.CodeChanges
import WriteXorExecute.Proofs.Pieces
import WriteXorExecute.Proofs.Piecewise
import WriteXorExecute.Proofs.Reading
import WriteXorExecute.Proofs.TraceLaw
import WriteXorExecute.Proofs.Announcements
import WriteXorExecute.Proofs.CodeLog
import WriteXorExecute.Proofs.AuditTrail
