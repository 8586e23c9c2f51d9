import Amp.Lib.LittleEndian
import Amp.Lib.Reader
import Amp.Lib.Pieces
import Amp.Lib.Extend
import Amp.Lib.Text
import Amp.Lib.Run
import Amp.Lib.Duplex
import Amp.Lib.Reorder
import Amp.Lib.Lives
import Amp.Lib.RateWindow
import Amp.L1.Types
import Amp.L1.ReplayWindow
import Amp.L1.Wire
import Amp.L1.Connection
import Amp.L1.Frames
import Amp.L1.Ledger
import Amp.L1.Moves
import Amp.L1.Sample
import Amp.L1.Association
import Amp.L1.Acknowledged
import Amp.L1.SequenceGap
import Amp.L1.PreSession
import Amp.L1.Freshness
import Amp.L1.PreAuth
import Amp.L1.Closing
import Amp.L1.ReplayFilter
import Amp.L1.Datagrams
import Amp.L1.PeerCadence
import Amp.L1.ForeignVersion
import Amp.L1.Timing
import Amp.L1.RoundTrips
import Amp.L1.ReliableHold
import Amp.L2.SessionCrypto
import Amp.L2.SessionKeys
import Amp.L2.Sample
import Amp.L2.Session
import Amp.L2.SessionEpochs
import Amp.L2.MshMessages
import Amp.L2.MshHandshake
import Amp.L3.Types
import Amp.Link.Config
import Amp.Link.SendWindow
import Amp.Link.Carrier
import Amp.Link.MshCarrier
import Amp.Link.MshAssembly
import Amp.Link.MshAdpHandshake
import Amp.Link.CarrierLane
import Amp.Link.LaneTimers
import Amp.Link.LaneDelivery
import Amp.Link.CarrierLink
import Amp.Link.LaneHandover
import Amp.Link.LinkIdentity
import Amp.Link.DualDialElector
import Amp.Link.LinkTable
import Amp.Link.LinkIndexes
import Amp.Link.DialBook
import Amp.Link.AdpMultiaddr
import Amp.Link.MultiaddrForm
import Amp.Link.DialRecords
import Amp.Link.DialIngest
import Amp.Link.PeerLinkManager
import Amp.Link.Establishment
import Amp.Link.ManagerDials
import Amp.Link.ManagerTick
import Amp.L3.Capability
import Amp.Link.KeyHistory
import Amp.Link.CapabilityExchange
import Amp.Link.ChannelZero
import Amp.Link.LinkPlane
import Amp.Link.ManagerMoves
import Amp.Link.ManagerElection
import Amp.Link.ManagerCalls
import Amp.Link.OneSession
import Amp.Link.DialAccounts
import Amp.Link.AimedDrops
import Amp.Link.LinkCapacity
import Amp.Link.AssociatedManager
import Amp.Link.PresenceIndex
import Amp.Link.AssociationAnswers
import Amp.L3.ChannelWire
import Amp.L3.WireLayout
import Amp.L3.MessageReassembly
import Amp.L3.ReassemblyBounds
import Amp.L3.ChannelMux
import Amp.L3.SendQueue
import Amp.L3.ChannelLife
import Amp.L3.ChannelSession
import Amp.L3.SessionEnd
import Amp.L3.SessionSteps
import Amp.L3.ChannelBridge
import Amp.L3.BridgeEnd
import Amp.L3.ChannelStream
import Amp.L3.ChannelLine
import Amp.L3.FragmentedSend
import Amp.L3.ChannelOpening
import Amp.L3.MessageLimits
import Amp.L3.FragmentRoundTrip
import Amp.Link.NestedFrames
import Amp.L3.ChannelProtocol
import Amp.L3.ChannelJoined
import Amp.L3.MuxEnd
import Amp.L3.MuxRefinement
import Amp.L3.MuxDispatch
import Amp.L3.MuxDelivery
import Amp.Link.HandshakeAgreement
import Amp.Link.DialCoverage
import Amp.Link.InboundEviction
import Amp.L3.DynamicIds
import Amp.Link.RekeyRuns
import Amp.Link.LinkStories
import Amp.Link.RuntimeTimers
import Amp.Link.VerifyAnswers
import Amp.Link.RuntimeTurns
import Amp.Link.BurstsApart
import Amp.L1.EndpointRuns
import Amp.Link.NonceUse
