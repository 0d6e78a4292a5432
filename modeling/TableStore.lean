import TableStore.Arguments
import TableStore.Connection
import TableStore.Shell
import TableStore.Main
import TableStore.Proofs.Rounding
import TableStore.Proofs.NumberText
import TableStore.Proofs.Numeral
import TableStore.Proofs.JsonText
import TableStore.Proofs.Outcome
import TableStore.Proofs.DataModel
import TableStore.Proofs.Query
import TableStore.Proofs.CatalogChange
import TableStore.Proofs.Loading
import TableStore.Proofs.StatementError
import TableStore.Proofs.Run
import TableStore.Proofs.Atomicity
import TableStore.Proofs.DocumentRoundTrip
import TableStore.Proofs.StoreContents
import TableStore.Proofs.Durability
import TableStore.Proofs.Grammar
import TableStore.Proofs.Scanning
import TableStore.Proofs.Reading
import TableStore.Proofs.Parsing
import TableStore.Proofs.FaultIsolation
import TableStore.Proofs.Containment
import TableStore.Proofs.FloatText
import TableStore.Proofs.Frame
import TableStore.Proofs.Mirror
import TableStore.Proofs.Literals
import TableStore.Proofs.Invariant
import TableStore.Proofs.Expressible
import TableStore.Proofs.Restating
import TableStore.Proofs.Reopening
import TableStore.Proofs.Overwriting
import TableStore.Proofs.Commuting
import TableStore.Proofs.Bytes
import TableStore.Proofs.History
import TableStore.Proofs.Listing
import TableStore.Proofs.Conversation
import TableStore.Proofs.NamedColumns
import TableStore.Proofs.Condition
import TableStore.Proofs.Performing
import TableStore.Proofs.Assignment
import TableStore.Proofs.Reassigning
import TableStore.Proofs.Selection
import TableStore.Proofs.Insertion
import TableStore.Proofs.BareLiteral
import TableStore.Proofs.Padding
import TableStore.Proofs.StatementLine
import TableStore.Proofs.Normalisation
import TableStore.Proofs.AcceptedValues
import TableStore.Proofs.Magnitude
import TableStore.Proofs.Truncation
import TableStore.Proofs.Widening
import TableStore.Proofs.Conversion
import TableStore.Proofs.ShownValues
import TableStore.Proofs.Flushing
import TableStore.Proofs.Opening
import TableStore.Proofs.TableText
import TableStore.Proofs.Respelling
import TableStore.Proofs.Recasing
