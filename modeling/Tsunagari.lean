import Tsunagari.Async.Program
import Tsunagari.Async.Cost
import Tsunagari.Async.Loop
import Tsunagari.Async.Transition
import Tsunagari.Collector.Protocol
import Tsunagari.Collector.Proofs.DeliveryProofs
import Tsunagari.Collector.Proofs.QuorumProofs
import Tsunagari.Collector.Proofs.ScheduleProofs
import Tsunagari.Collector.Proofs.RoundProofs
import Tsunagari.Js.Number
import Tsunagari.Js.Proofs.NumberProofs
import Tsunagari.Js.Proofs.LiteralProofs
import Tsunagari.Js.Proofs.DecimalProofs
import Tsunagari.Js.Proofs.RoundingProofs
import Tsunagari.Encoding.Hex
import Tsunagari.Encoding.Proofs.HexProofs
import Tsunagari.Encoding.Eip191
import Tsunagari.Encoding.Proofs.Eip191Proofs
import Tsunagari.Bridge.Types
import Tsunagari.Bridge.Services
import Tsunagari.Bridge.Handlers
import Tsunagari.Bridge.Processor
import Tsunagari.Bridge.World
import Tsunagari.Bridge.Plan
import Tsunagari.Bridge.Proofs.HandlerProofs
import Tsunagari.Bridge.Proofs.WorldProofs
import Tsunagari.Bridge.Proofs.ProcessorProofs
import Tsunagari.Bridge.Proofs.ConfinementProofs
import Tsunagari.Bridge.Refinement
import Tsunagari.Bridge.Proofs.RefinementProofs
import Tsunagari.Bridge.Sample
import Tsunagari.Bridge.Proofs.TransferProofs
import Tsunagari.Bridge.Proofs.ReplayProofs
import Tsunagari.Bridge.Proofs.SubmissionProofs
import Tsunagari.Bridge.Proofs.SignerProofs
import Tsunagari.Bridge.Faults
import Tsunagari.Bridge.Proofs.FaultProofs
import Tsunagari.Bridge.Proofs.NotificationProofs
import Tsunagari.Bridge.Proofs.ThresholdProofs
import Tsunagari.Bridge.Queue
import Tsunagari.Bridge.Proofs.RecordProofs
import Tsunagari.Bridge.Proofs.SignatureProofs
import Tsunagari.Bridge.Isolation
import Tsunagari.Bridge.Proofs.IsolationProofs
import Tsunagari.Bridge.Proofs.CourseProofs
import Tsunagari.Bridge.Conservation
import Tsunagari.Bridge.Proofs.ConservationProofs
import Tsunagari.Bridge.Proofs.SpendingProofs
import Tsunagari.Bridge.Proofs.TerminationProofs
import Tsunagari.Bridge.Proofs.CompletionProofs
import Tsunagari.Bridge.Proofs.BehaviourProofs
import Tsunagari.Bridge.History
import Tsunagari.Bridge.Proofs.HistoryProofs
import Tsunagari.Bridge.Proofs.OnceProofs
import Tsunagari.Bridge.Clients
import Tsunagari.Bridge.Proofs.ClientProofs
import Tsunagari.Bridge.Routes
import Tsunagari.Bridge.Proofs.AmountProofs
import Tsunagari.Bridge.Proofs.PrecisionProofs
import Tsunagari.Bridge.Proofs.FidelityProofs
import Tsunagari.Bridge.Proofs.RouteProofs
import Tsunagari.Bridge.Returns
import Tsunagari.Bridge.Proofs.ReturnProofs
import Tsunagari.Bridge.Proofs.WireProofs
import Tsunagari.Bridge.Proofs.BindingProofs
import Tsunagari.Bridge.Listeners
import Tsunagari.Bridge.Proofs.ListenerProofs
import Tsunagari.Bridge.Proofs.ListenerCountProofs
import Tsunagari.Bridge.Proofs.ConnectionProofs
import Tsunagari.Bridge.Backend
import Tsunagari.Bridge.Proofs.BackendProofs
