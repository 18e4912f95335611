import TurnClient.ByteMemory
import TurnClient.TlvLayout
import TurnClient.StunHeader
import TurnClient.StunAttributes
import TurnClient.StunBuilding
import TurnClient.StunResponses
import TurnClient.StunRoundTrip
import TurnClient.ReflectedCrc
import TurnClient.NsCrc32
import TurnClient.StunIntegrity
import TurnClient.SignedMessages
import TurnClient.InetText
import TurnClient.IoaAddr
import TurnClient.StunAddr
import TurnClient.Datagrams
import TurnClient.Session
import TurnClient.ChallengeFields
import TurnClient.Drive
import TurnClient.RecvBuffer
import TurnClient.WaitFd
import TurnClient.StunRequests
import TurnClient.TurnMsgLib
import TurnClient.StunClient
import TurnClient.RunStun
import TurnClient.Transactions
import TurnClient.ClnetConnect
import TurnClient.RelayAnnouncement
import TurnClient.AllocateTurns
import TurnClient.Reservations
import TurnClient.AuthenticatedRuns
import TurnClient.RequestBounds
import TurnClient.ChallengeLoops
import TurnClient.MobilityHandles
import TurnClient.BindReal
import TurnClient.ChannelStability
import TurnClient.P2pClient
import TurnClient.ClientRead
import TurnClient.MainPresenter
import TurnClient.PeerPorts
import TurnClient.StepRuns
import TurnClient.MqttClient
import TurnClient.MessageArrived
import TurnClient.PathDestinations
import TurnClient.ResidualBytes
import TurnClient.AddrMapping
import TurnClient.AllocateResponse
import TurnClient.OauthSessions
import TurnClient.MessageFraming
import TurnClient.StreamFraming
import TurnClient.TcpReads
import TurnClient.FramingLimits
import TurnClient.Fingerprint
import TurnClient.DamagedMessages
import TurnClient.ChannelData
import TurnClient.ErrorResponses
import TurnClient.AttributeValues
import TurnClient.EvpCipher
import TurnClient.OauthTokens
import TurnClient.OauthBounds
import TurnClient.BrokenMessages
import TurnClient.BigEndian
import TurnClient.AddrRange
import TurnClient.StringLoops
import TurnClient.SaslPrep
import TurnClient.SendBuffer
import TurnClient.AddrText
import TurnClient.OauthKeys
import TurnClient.Radix64
import TurnClient.Base64
import TurnClient.Translation
import TurnClient.BindingMessages
import TurnClient.BindingResponses
import TurnClient.NatDiscovery
import TurnClient.DiscoveredNats
import TurnClient.Rounds
import TurnClient.LongTermServer
import TurnClient.Handshakes
import TurnClient.AllocateHandshakes
import TurnClient.AllocateRequests
import TurnClient.Passwords
import TurnClient.NumberGaps
import TurnClient.TestTraffic
import TurnClient.RelayedMessages
import TurnClient.TrafficRuns
import TurnClient.TrafficLoss
import TurnClient.TrafficPace
