import Chatroom.Lib.Transducer
import Chatroom.Lib.Machine
import Chatroom.Json
import Chatroom.Net.Buffer
import Chatroom.Net.TcpConnection
import Chatroom.Net.RawBuffer
import Chatroom.Net.ByteQueue
import Chatroom.Codec.JsonCodec
import Chatroom.Codec.Decoder
import Chatroom.Codec.Exceptions
import Chatroom.Codec.Framing
import Chatroom.Net.FileTransfer
import Chatroom.History.ChatRecord
import Chatroom.History.CacheManager
import Chatroom.Lib.Program
import Chatroom.Lib.Table
import Chatroom.Service.Database
import Chatroom.Service.Commands
import Chatroom.Service.Handlers
import Chatroom.Service.Footprint
import Chatroom.Lib.Pool
import Chatroom.Threadpool
import Chatroom.Service.Server
import Chatroom.Service.Messages
import Chatroom.Service.Attribution
import Chatroom.Service.ArrivalOrder
import Chatroom.Service.Session
import Chatroom.Service.OneSession
import Chatroom.Service.Group
import Chatroom.Service.GroupRoles
import Chatroom.Service.MemberLists
import Chatroom.Service.GroupList
import Chatroom.Service.Friend
import Chatroom.Service.FriendRace
import Chatroom.Service.References
import Chatroom.Service.Atomicity
import Chatroom.Service.Relay
import Chatroom.Service.DeadConnection
import Chatroom.Client.ClientService
import Chatroom.Client.CheckBlock
import Chatroom.Database.Commands
import Chatroom.Database.Models
import Chatroom.History.Flush
import Chatroom.Database.PoolConservation
import Chatroom.History.FlushFailure
import Chatroom.Lib.OrderedSet
import Chatroom.Net.TimerQueue
import Chatroom.Net.TimerSets
import Chatroom.Net.TimerSteps
import Chatroom.Net.TimerFiring
import Chatroom.Net.TimerArming
import Chatroom.Net.TimerCancel
import Chatroom.Net.EventLoop
import Chatroom.Net.Connection
import Chatroom.Net.TcpServer
import Chatroom.Net.Teardown
import Chatroom.Service.Connections
import Chatroom.Database.Lexer
import Chatroom.History.Statements
import Chatroom.History.BadRecords
import Chatroom.Database.UserText
import Chatroom.Lib.Path
import Chatroom.Service.FilePath
import Chatroom.Service.RelationLists
import Chatroom.Lib.AskLoop
import Chatroom.Net.SendLoop
import Chatroom.Service.Heartbeat
import Chatroom.Service.Download
import Chatroom.Service.Liveness
import Chatroom.Net.EPoller
import Chatroom.Net.Poller
import Chatroom.Lib.Latest
import Chatroom.Service.ChatHistory
import Chatroom.Codec.Rejection
import Chatroom.Net.Shutdown
import Chatroom.Net.Connector
import Chatroom.Net.Attempts
import Chatroom.Lib.Loop
import Chatroom.Codec.JsonLexer
import Chatroom.Codec.JsonParser
import Chatroom.Codec.Format
import Chatroom.Lib.Watch
import Chatroom.Client.Menu
import Chatroom.Client.Replies
import Chatroom.Client.Process
import Chatroom.Client.Requests
import Chatroom.Service.Replies
import Chatroom.Service.Requests
import Chatroom.Service.Answers
import Chatroom.Client.Answers
import Chatroom.Client.Contract
