import RefundEngine.OverRefund
import RefundEngine.SeparationOfDuties
import RefundEngine.Fate
import RefundEngine.Recovery
import RefundEngine.Cancellation
import RefundEngine.DeliveryOrder
import RefundEngine.CleanReport
import RefundEngine.PanFree
import RefundEngine.AuditTrail
import RefundEngine.AllOrNothing
import RefundEngine.TerminalRows
import RefundEngine.SignedContent
import RefundEngine.Settlement
import RefundEngine.Overlap
import RefundEngine.ApprovedOnce
import RefundEngine.LockedGateway
import RefundEngine.Linearizable
import RefundEngine.CharBoundaries
import RefundEngine.LastFour
import RefundEngine.Discrepancies
import RefundEngine.FileOrder
import RefundEngine.FalseAlarm
import RefundEngine.RecoverTwice
import RefundEngine.GatewayBooks
import RefundEngine.Acknowledged
import RefundEngine.AuditRows
import RefundEngine.Books
import RefundEngine.Composition
import RefundEngine.Errors
import RefundEngine.Footprint
import RefundEngine.Journeys
import RefundEngine.Lifecycle
import RefundEngine.Records
import RefundEngine.Retried
import RefundEngine.Signatures
import RefundEngine.Waiting
