import Chater.ApiCli.ApiClient
import Chater.ApiCli.DecoderAgreement
import Chater.ApiCli.EncoderLimits
import Chater.ApiCli.RecvRetry
import Chater.ApiCli.SendRequest
import Chater.Base.PoolStop
import Chater.Base.PoolWait
import Chater.Base.RingBuffer
import Chater.Base.RingBufferRefinement
import Chater.Base.Shrink
import Chater.Base.ThreadPool
import Chater.Base.WfBuffer
import Chater.Foundations.CondVar
import Chater.Foundations.EdgeTrigger
import Chater.Foundations.FairRun
import Chater.Foundations.Framing
import Chater.Foundations.Interface
import Chater.Foundations.LittleEndian
import Chater.Foundations.Memory
import Chater.Foundations.MessageType
import Chater.Foundations.Retransmission
import Chater.Foundations.SharedCounter
import Chater.Foundations.SharedWire
import Chater.Foundations.TaskQueue
import Chater.Foundations.Text
import Chater.Foundations.Transition
import Chater.Gateway.AddressSends
import Chater.Gateway.ConfigFile
import Chater.Gateway.Eviction
import Chater.Gateway.GatewayContext
import Chater.Gateway.GatewayServer
import Chater.Gateway.HeartbeatAnswers
import Chater.Gateway.HeartbeatReaping
import Chater.Gateway.HeartbeatTimer
import Chater.Gateway.LoopAffinity
import Chater.Gateway.PacketOrder
import Chater.Gateway.ProtocolError
import Chater.Gateway.Registries
import Chater.Gateway.RegistryRuns
import Chater.Gateway.SendReport
import Chater.Gateway.SessionLogins
import Chater.Gateway.StartPath
import Chater.Net.Acceptor
import Chater.Net.ActiveChannels
import Chater.Net.CallbackSteps
import Chater.Net.Channel
import Chater.Net.ConnectionHandlers
import Chater.Net.ConnectionLifecycle
import Chater.Net.ConnectionStages
import Chater.Net.CrossThreadClose
import Chater.Net.EventList
import Chater.Net.EventLoop
import Chater.Net.EventLoopThread
import Chater.Net.FairTeardown
import Chater.Net.FunctorAffinity
import Chater.Net.GracefulShutdown
import Chater.Net.LoopBalance
import Chater.Net.LoopQueues
import Chater.Net.NetAffinity
import Chater.Net.NetLayer
import Chater.Net.OutputStream
import Chater.Net.Poller
import Chater.Net.QuietHandlers
import Chater.Net.ReadReadiness
import Chater.Net.ServerDestruction
import Chater.Net.SharedConnection
import Chater.Net.SocketLifetime
import Chater.Net.StepClosure
import Chater.Net.TcpConnection
import Chater.Net.TcpServer
import Chater.Net.TeardownRounds
import Chater.Net.WriteReadiness
import Chater.Protocol.Codec
import Chater.Protocol.Packet
import Chater.Protocol.Reassembly
import Chater.Protocol.ReceiveMemory
import Chater.Protocol.Termination
import Chater.Zmq.FailedSends
import Chater.Zmq.FailureDetector
import Chater.Zmq.LossReports
import Chater.Zmq.MessageBoundaries
import Chater.Zmq.MessageRoundTrip
import Chater.Zmq.MessageUtils
import Chater.Zmq.PoolNotify
import Chater.Zmq.QuoteApi
import Chater.Zmq.QuoteDelivery
import Chater.Zmq.QuoteGateway
import Chater.Zmq.QuoteProto
import Chater.Zmq.QuoteSubscription
import Chater.Zmq.RouterServer
import Chater.Zmq.RouterStop
import Chater.Zmq.ThreadPool
import Chater.Zmq.TradeAnswers
import Chater.Zmq.TradeApi
import Chater.Zmq.TradeConnection
import Chater.Zmq.TradeGateway
import Chater.Zmq.TradeHandler
import Chater.Zmq.TradeOrder
import Chater.Zmq.TradeProto
import Chater.Zmq.TradeReplies
import Chater.Zmq.TradeServer
