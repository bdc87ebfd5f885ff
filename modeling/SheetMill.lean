import SheetMill.Console
import SheetMill.Deployment.Root
import SheetMill.Main
import SheetMill.Proofs.CachedProfiles
import SheetMill.Proofs.CellConversion
import SheetMill.Proofs.Channels
import SheetMill.Proofs.Cooldown
import SheetMill.Proofs.Creation
import SheetMill.Proofs.Findings
import SheetMill.Proofs.Formats
import SheetMill.Proofs.FormulaValue
import SheetMill.Proofs.HandedIn
import SheetMill.Proofs.Listings
import SheetMill.Proofs.Logins
import SheetMill.Proofs.Publication
import SheetMill.Proofs.Rectangles
import SheetMill.Proofs.ReplacedReplicas
import SheetMill.Proofs.SchemaConstraints
import SheetMill.Proofs.SchemaRaces
import SheetMill.Proofs.SchemaUpdates
import SheetMill.Proofs.SeparatedText
import SheetMill.Proofs.Sessions
import SheetMill.Proofs.Statements
import SheetMill.Proofs.TaskFailures
import SheetMill.Proofs.TaskFrames
import SheetMill.Proofs.TaskListings
import SheetMill.Proofs.TextLiterals
import SheetMill.Proofs.ThreadConnections
import SheetMill.Proofs.ValidationRequests
import SheetMill.Schema.Violation
