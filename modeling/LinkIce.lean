import LinkIce.Link.Accepts
import LinkIce.Link.FirstSignal
import LinkIce.Link.Notifications
import LinkIce.SignalCodec
import LinkIce.Session.AutoRestart
import LinkIce.Session.CandidateFilters
import LinkIce.Session.CheckCap
import LinkIce.Session.CheckListShape
import LinkIce.Session.ConsentFreshness
import LinkIce.Session.Demultiplexer
import LinkIce.Session.EndOfCandidates
import LinkIce.Session.FailedState
import LinkIce.Session.LiteAgent
import LinkIce.Session.RoleConflict
import LinkIce.Session.PeerRestart
import LinkIce.Session.TrickleMerge
import LinkIce.Session.NameQueries
import LinkIce.Session.NominationLoss
import LinkIce.Session.NominationMetrics
import LinkIce.Session.SymmetricNat
import LinkIce.Session.SequenceWrap
import LinkIce.Session.NominatedRoute
import LinkIce.Session.NominationRace
import LinkIce.Session.Nominee
import LinkIce.Session.OrderedDelivery
import LinkIce.Session.ParkedData
import LinkIce.Session.PathMtuState
import LinkIce.Session.PortMappings
import LinkIce.Session.PrematureFailure
import LinkIce.Session.Publication
import LinkIce.Session.RelayPermissions
import LinkIce.Session.TcpStreams
import LinkIce.Session.TransactionIds
import LinkIce.Session.TrickleFailure
import LinkIce.Session.TurnFailover
import LinkIce.Session.UseCandidate
import LinkIce.Session.VerifiedPath
import LinkIce.Link.Reload
import LinkIce.Link.UsableMtu
import LinkIce.Mdns.Resolution
import LinkIce.Stun.Calls
import LinkIce.Stun.DeclaredLength
import LinkIce.Turn.ConnectionTables
import LinkIce.Turn.Health
import LinkIce.PathMtuSearch
import LinkIce.PairPriority
import LinkIce.Mdns.Decoding
import LinkIce.Mdns.RoundTrip
import LinkIce.Session.ProbeSize
import LinkIce.Turn.Encapsulation
import LinkIce.Link.StunEntries
