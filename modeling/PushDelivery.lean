import PushDelivery.Client.Dialer
import PushDelivery.Client.OpenStreams.Session
import PushDelivery.Gateway.ServerTls
import PushDelivery.Settings.Load
import PushDelivery.Simulation.Delivery
import PushDelivery.Proofs.OneOutcome
import PushDelivery.Proofs.Counting
import PushDelivery.Proofs.NoDuplicates
import PushDelivery.Proofs.Resending
import PushDelivery.Proofs.WorkConservation
import PushDelivery.Proofs.PoolStrength
import PushDelivery.Proofs.Shutdown
import PushDelivery.Proofs.ConnectionProtocol
import PushDelivery.Proofs.AcquireTimeout
import PushDelivery.Proofs.ClientOrder
import PushDelivery.Proofs.Writability
import PushDelivery.Proofs.Acceptance
import PushDelivery.Proofs.ReportedTimes
import PushDelivery.Proofs.GatekeeperHistory
import PushDelivery.Proofs.AuthorizationReading
import PushDelivery.Proofs.FirstFault
import PushDelivery.Proofs.TopicGrants
import PushDelivery.Proofs.HostNames
import PushDelivery.Proofs.ConnectionInvariant
import PushDelivery.Proofs.StreamEnds
import PushDelivery.Proofs.StreamCalls
import PushDelivery.Proofs.TokenRenewal
import PushDelivery.Proofs.BackoffDelays
import PushDelivery.Proofs.WaitingOrder
import PushDelivery.Proofs.ReconnectRate
import PushDelivery.Proofs.RoundRobin
import PushDelivery.Proofs.RoutingLoops
import PushDelivery.Proofs.TokenTexts
import PushDelivery.Proofs.NotificationReading
import PushDelivery.Proofs.SettingsReading
