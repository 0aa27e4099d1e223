import LobbySvr.Foundation.Words
import LobbySvr.Foundation.Memory
import LobbySvr.Foundation.StepLoop
import LobbySvr.Foundation.Runs
import LobbySvr.Net.MessageBuffer
import LobbySvr.Net.FrameParser
import LobbySvr.Net.PacketParserSimple
import LobbySvr.Net.SendPacket
import LobbySvr.Net.ConnectionImpl
import LobbySvr.Lobby.Protocol
import LobbySvr.Lobby.JsonCpp
import LobbySvr.Lobby.ReadJsonPacket
import LobbySvr.Lobby.PacketParserJson
import LobbySvr.Lobby.SendJsonPacket
import LobbySvr.Spec.FrameMachine
import LobbySvr.Spec.FrameCodec
import LobbySvr.Proofs.MessageBufferQueue
import LobbySvr.Proofs.FrameRefinement
import LobbySvr.Proofs.JsonReaders
import LobbySvr.Proofs.FrameSteps
import LobbySvr.Proofs.FrameIncremental
import LobbySvr.Proofs.FrameRoundTrip
import LobbySvr.Proofs.FrameGrammar
import LobbySvr.Proofs.ConnectionSteps
import LobbySvr.Proofs.ConnectionClose
import LobbySvr.Proofs.ReadSide
import LobbySvr.Proofs.Reception
import LobbySvr.Proofs.OutgoingStream
import LobbySvr.Proofs.JsonPackets
import LobbySvr.Spec.FlatJson
import LobbySvr.Proofs.JsonRoundTrip
import LobbySvr.Lobby.NhChat
import LobbySvr.Proofs.ChatForwarding
import LobbySvr.Spec.BufferHistory
import LobbySvr.Proofs.BufferRuns
import LobbySvr.Proofs.WireVariants
import LobbySvr.Proofs.PacketContainment
import LobbySvr.Net.NetServiceAcceptor
import LobbySvr.Proofs.AcceptorRuns
import LobbySvr.Lobby.BrokerConnector
import LobbySvr.Proofs.BrokerRuns
import LobbySvr.Foundation.OrderedMap
import LobbySvr.Lobby.LobbyUserManager
import LobbySvr.Proofs.MessageRouting
import LobbySvr.Lobby.ConnectorHandler
import LobbySvr.Proofs.ChatReply
import LobbySvr.Proofs.JsonSizeGuard
import LobbySvr.Proofs.JsonAcceptance
import LobbySvr.Proofs.UrlDecoding
import LobbySvr.Proofs.BroadcastUniform
import LobbySvr.Net.StagedParser
import LobbySvr.Lobby.PacketParserXor
import LobbySvr.Spec.Obfuscation
import LobbySvr.Proofs.XorParser
import LobbySvr.Net.PacketParserCipher
import LobbySvr.Lobby.PacketParserCipher
import LobbySvr.Proofs.CipherParsers
import LobbySvr.Proofs.PendingDispatches
import LobbySvr.Proofs.KeepAlive
import LobbySvr.Proofs.ParseTermination
import LobbySvr.Foundation.BitFlags
import LobbySvr.Net.FlagChecker
import LobbySvr.Proofs.FlagSets
import LobbySvr.Proofs.BufferCopies
import LobbySvr.Net.TargetedConnector
import LobbySvr.Proofs.ConnectorTarget
import LobbySvr.Proofs.ConnectedSessions
import LobbySvr.Proofs.ConnectorCalls
import LobbySvr.Net.WatchDogSession
import LobbySvr.Proofs.WatchdogCommands
import LobbySvr.Foundation.Traces
import LobbySvr.Lobby.NhLobby
import LobbySvr.Lobby.LobbyServer
import LobbySvr.Spec.LobbyRoom
import LobbySvr.Proofs.LobbyRefinement
import LobbySvr.Proofs.RoomSteps
import LobbySvr.Proofs.ClientIsolation
import LobbySvr.Proofs.ServerRuns
import LobbySvr.Proofs.ClientClosings
import LobbySvr.Lobby.LobbyNode
import LobbySvr.Proofs.NodeSteps
import LobbySvr.Proofs.NodeRuns
import LobbySvr.Proofs.NodeFrames
import LobbySvr.Proofs.NodeRequests
import LobbySvr.Proofs.NodeBroadcasts
import LobbySvr.Spec.CipherSession
import LobbySvr.Proofs.CipherSessions
import LobbySvr.Net.NetServiceImpl
import LobbySvr.Proofs.ServiceUpdates
import LobbySvr.Proofs.BrokerDialogues
