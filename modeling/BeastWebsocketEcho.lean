import BeastWebsocketEcho.Machine
import BeastWebsocketEcho.Chronicle
import BeastWebsocketEcho.Ledger
import BeastWebsocketEcho.Net
import BeastWebsocketEcho.AsyncQueue
import BeastWebsocketEcho.AsyncQueueSteps
import BeastWebsocketEcho.AsyncQueueWakeup
import BeastWebsocketEcho.AsyncQueueFifo
import BeastWebsocketEcho.AsyncQueueStop
import BeastWebsocketEcho.AsyncQueueTasks
import BeastWebsocketEcho.Operation
import BeastWebsocketEcho.ChatState
import BeastWebsocketEcho.ChatStateRuns
import BeastWebsocketEcho.AsyncQueueHalt
import BeastWebsocketEcho.ChatConnection
import BeastWebsocketEcho.ChatConnectionSteps
import BeastWebsocketEcho.ChatConnectionHalt
import BeastWebsocketEcho.ChatServer
import BeastWebsocketEcho.ChatServerRuns
import BeastWebsocketEcho.ChatServerAccept
import BeastWebsocketEcho.ChatEcho
import BeastWebsocketEcho.EchoConnection
import BeastWebsocketEcho.EchoConnectionSteps
import BeastWebsocketEcho.Outbox
import BeastWebsocketEcho.EchoConnectionSend
import BeastWebsocketEcho.EchoConnectionRead
import BeastWebsocketEcho.EchoConnectionSession
import BeastWebsocketEcho.EchoServer
import BeastWebsocketEcho.EchoServerRuns
import BeastWebsocketEcho.Callbacks
import BeastWebsocketEcho.StopSource
import BeastWebsocketEcho.StopSourceRuns
import BeastWebsocketEcho.StopSourceDelivery
import BeastWebsocketEcho.StopRegister
import BeastWebsocketEcho.StopRegisterRuns
import BeastWebsocketEcho.FmexConnect
import BeastWebsocketEcho.FmexConnectRuns
import BeastWebsocketEcho.FmexConnectOutcomes
import BeastWebsocketEcho.WssConnect
import BeastWebsocketEcho.PolyHandler
import BeastWebsocketEcho.PolyHandlerMoves
import BeastWebsocketEcho.PolyHandlerMemory
import BeastWebsocketEcho.PolyHandlerRefinement
import BeastWebsocketEcho.WssTransport
import BeastWebsocketEcho.WssTransportRuns
import BeastWebsocketEcho.WssTransportFrames
import BeastWebsocketEcho.Timer
import BeastWebsocketEcho.SigintState
import BeastWebsocketEcho.SigintStateRuns
import BeastWebsocketEcho.ChatterboxConnection
import BeastWebsocketEcho.ChatterboxConnectionRuns
import BeastWebsocketEcho.ConnectionBase
import BeastWebsocketEcho.ConnectionBaseSend
import BeastWebsocketEcho.Json
import BeastWebsocketEcho.ExchangeConnection
import BeastWebsocketEcho.ExchangeConnectionPing
import BeastWebsocketEcho.FmexConnection
import BeastWebsocketEcho.FmexConnectionPing
import BeastWebsocketEcho.Console
import BeastWebsocketEcho.ConsoleRuns
import BeastWebsocketEcho.ConnectionPool
import BeastWebsocketEcho.ConnectionPoolRuns
import BeastWebsocketEcho.MoveOnly
import BeastWebsocketEcho.AsyncQueueHandles
import BeastWebsocketEcho.AsyncQueueHandlesRuns
import BeastWebsocketEcho.AsyncQueueDrain
import BeastWebsocketEcho.Pattern
import BeastWebsocketEcho.Scanner
import BeastWebsocketEcho.MimeReader
import BeastWebsocketEcho.MimeReaderScan
import BeastWebsocketEcho.MimeReaderRoundTrip
import BeastWebsocketEcho.Chunkify
import BeastWebsocketEcho.ChatterboxConnectionRelay
import BeastWebsocketEcho.EchoConnectionAccount
import BeastWebsocketEcho.EchoDialogue
import BeastWebsocketEcho.Regex
import BeastWebsocketEcho.MimeReaderHeader
import BeastWebsocketEcho.MemoryTest
import BeastWebsocketEcho.MemoryTestRuns
import BeastWebsocketEcho.ChatServerVisitors
import BeastWebsocketEcho.ChatServerShutdown
import BeastWebsocketEcho.ConnectionBaseLife
import BeastWebsocketEcho.ExchangeConnectionAnswers
import BeastWebsocketEcho.FmexConnectionAnswers
import BeastWebsocketEcho.ChatterboxApp
import BeastWebsocketEcho.ChatterboxAppRuns
import BeastWebsocketEcho.FmexConnectDeeds
import BeastWebsocketEcho.FmexClient
import BeastWebsocketEcho.FmexClientRuns
import BeastWebsocketEcho.FmexClientInterrupt
import BeastWebsocketEcho.EchoApp
