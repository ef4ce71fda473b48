import Galaxy42.Lib.Program
import Galaxy42.Lib.Script
import Galaxy42.Lib.Counting
import Galaxy42.Lib.Ends
import Galaxy42.Lib.Cursor
import Galaxy42.Lib.Octets
import Galaxy42.Lib.OnesComplement
import Galaxy42.Lib.OrderedMap
import Galaxy42.Lib.SearchTree
import Galaxy42.Lib.XorSum
import Galaxy42.Lib.Network
import Galaxy42.Lib.Hops
import Galaxy42.Lib.Steps
import Galaxy42.Lib.Lifetime
import Galaxy42.Lib.SharedMutex
import Galaxy42.Lib.Buffer
import Galaxy42.Lib.CircularBuffer
import Galaxy42.Lib.Rounding
import Galaxy42.Lib.Arrays
import Galaxy42.Lib.BuiltinInt
import Galaxy42.Lib.JsonLexer
import Galaxy42.Exceptions
import Galaxy42.TrivialSerialize.Generator
import Galaxy42.TrivialSerialize.Parser
import Galaxy42.TrivialSerialize.Encoding
import Galaxy42.TrivialSerialize.Interface
import Galaxy42.TrivialSerialize.Pointers
import Galaxy42.TrivialSerialize.RoundTrip
import Galaxy42.TrivialSerialize.Malformed
import Galaxy42.TrivialSerialize.Syntax
import Galaxy42.TrivialSerialize.Widths
import Galaxy42.TrivialSerialize.Atomicity
import Galaxy42.TrivialSerialize.HostileCounts
import Galaxy42.TrivialSerialize.PopIntoBuffer
import Galaxy42.Stdplus.Eint
import Galaxy42.Stdplus.Tab
import Galaxy42.Stdplus.VectorMutexedObj
import Galaxy42.Stdplus.VectorThreads
import Galaxy42.Stdplus.Arrayvector
import Galaxy42.Xint
import Galaxy42.StringsUtils
import Galaxy42.Utils.HexCodec
import Galaxy42.JsonLoad
import Galaxy42.Utils.Texts
import Galaxy42.Utils.Capmodpp
import Galaxy42.Utils.Privileges
import Galaxy42.Utils.WrapThread
import Galaxy42.Ndp
import Galaxy42.Tuntap
import Galaxy42.Httpdbg.PeeringStats
import Galaxy42.Cable.Turbosocket
import Galaxy42.Cable.IpString
import Galaxy42.Cable.Address
import Galaxy42.Cable.MakeAddr
import Galaxy42.Cable.IoserviceManager
import Galaxy42.Cable.Cards
import Galaxy42.Datastore
import Galaxy42.Crypto.CryptoBasic
import Galaxy42.Crypto.SecretHash
import Galaxy42.Crypto.Multikeys
import Galaxy42.Crypto.Stream
import Galaxy42.Crypto.StreamExchange
import Galaxy42.Crypto.KexRounds
import Galaxy42.Crypto.KeyAgreement
import Galaxy42.Crypto.KeySecrecy
import Galaxy42.Crypto.Fingerprint
import Galaxy42.Crypto.GeneratedKeys
import Galaxy42.Crypto.Multisign
import Galaxy42.Crypto.CryptoTunnel
import Galaxy42.Crypto.Handshake
import Galaxy42.Crypto.MalformedKeys
import Galaxy42.Crypto.MalformedExchange
import Galaxy42.Crypto.SerializedKeys
import Galaxy42.Crypto.KeySyntax
import Galaxy42.Crypto.SignatureCodec
import Galaxy42.Crypto.LockedKeys
import Galaxy42.Crypto.KeyOrder
import Galaxy42.Crypto.HashCache
import Galaxy42.Crypto.FailedLoad
import Galaxy42.Crypto.StoredKeys
import Galaxy42.Datastore.Loading
import Galaxy42.Tunserver.Node
import Galaxy42.Tunserver.PeerTable
import Galaxy42.Tunserver.Datagrams
import Galaxy42.Tunserver.Routing
import Galaxy42.Tunserver.EventLoop
import Galaxy42.Tunserver.Handlers
import Galaxy42.Tunserver.Runs
import Galaxy42.Tunserver.PeerThreads
import Galaxy42.Tunserver.PeerTimeouts
import Galaxy42.Tunserver.StoredRoutes
import Galaxy42.Tunserver.Queries
import Galaxy42.Tunserver.MalformedDatagrams
import Galaxy42.Tunserver.Strangers
import Galaxy42.Tunserver.RoutingResult
import Galaxy42.Tunserver.WireCodecs
import Galaxy42.Tunserver.NodeTunnel
import Galaxy42.Tunserver.Forwarding
import Galaxy42.Tunserver.PacketIntegrity
import Galaxy42.Tunserver.Network
import Galaxy42.Tunserver.QueryFlood
import Galaxy42.Tunserver.SearchCompleteness
import Galaxy42.Tunserver.RouteChains
import Galaxy42.Tunserver.Delivery
import Galaxy42.Tunserver.TunnelRuns
import Galaxy42.Tunserver.BoxedData
import Galaxy42.Tunserver.Greetings
import Galaxy42.Tunserver.Sessions
import Galaxy42.Tunserver.PeerReferences
import Galaxy42.Tunserver.Invitations
import Galaxy42.Tunserver.HipTexts
import Galaxy42.Tunserver.PeerCommands
import Galaxy42.Tunserver.ReferenceSyntax
import Galaxy42.Tunserver.RouteReasons
import Galaxy42.Tunserver.AddressOrder
import Galaxy42.Tunserver.QueryCodec
import Galaxy42.Gui.Dataeater
import Galaxy42.Gui.NetClient
import Galaxy42.Rpc.Session
import Galaxy42.Rpc.Authentication
import Galaxy42.Rpc.Responses
import Galaxy42.Rpc.Server
import Galaxy42.Rpc.Lifecycle
import Galaxy42.Rpc.Isolation
