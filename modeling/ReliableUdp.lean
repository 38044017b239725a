import ReliableUdp.SlotTable
import ReliableUdp.Protocol
import ReliableUdp.DefaultCodec
import ReliableUdp.BitHistory
import ReliableUdp.ChannelCommon
import ReliableUdp.ReliableChannel
import ReliableUdp.OrderedReceiver
import ReliableUdp.ReliableSender
import ReliableUdp.Runs
import ReliableUdp.ReliablePair
import ReliableUdp.OrderedDelivery
import ReliableUdp.UnorderedDelivery
import ReliableUdp.AckSoundness
import ReliableUdp.OrderedProgress
import ReliableUdp.AckCoverage
import ReliableUdp.RunningMaxima
import ReliableUdp.UnreliableChannel
import ReliableUdp.Session
import ReliableUdp.SessionTeardown
import ReliableUdp.Handshake
import ReliableUdp.HandshakeAgreement
import ReliableUdp.AckHistory
import ReliableUdp.Corruption
import ReliableUdp.ReceiveQueue
import ReliableUdp.SenderRun
import ReliableUdp.SenderHistory
import ReliableUdp.SendStore
import ReliableUdp.RetransmissionSchedule
import ReliableUdp.RoundTripSampling
import ReliableUdp.ReceiveWindow
import ReliableUdp.ArrivalOrder
import ReliableUdp.DuplicateFilter
import ReliableUdp.Reordering
import ReliableUdp.ReorderEquivalence
import ReliableUdp.SendGuard
import ReliableUdp.ReceiveTracking
import ReliableUdp.Admission
import ReliableUdp.BandwidthProbing
import ReliableUdp.InFlightStatistic
import ReliableUdp.FlushOutcome
import ReliableUdp.BitCount
import ReliableUdp.WindowAccounting
import ReliableUdp.PhaseMachine
import ReliableUdp.SessionMoves
import ReliableUdp.SessionOutput
import ReliableUdp.DisconnectReasons
import ReliableUdp.Reception
import ReliableUdp.Connection
import ReliableUdp.SessionStatistics
import ReliableUdp.RoundTripAverage
import ReliableUdp.Recovery
import ReliableUdp.HandshakeProgress
import ReliableUdp.ProbedWindow
import ReliableUdp.SendCompletions
import ReliableUdp.UnorderedRecovery
import ReliableUdp.RetransmissionLatency
import ReliableUdp.StrayDatagrams
import ReliableUdp.ChannelTwins
import ReliableUdp.NothingLost
import ReliableUdp.SessionRecovery
