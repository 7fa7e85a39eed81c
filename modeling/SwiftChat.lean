import SwiftChat.Base.OrderedMap
import SwiftChat.Base.Segments
import SwiftChat.Base.Paging
import SwiftChat.Base.Run
import SwiftChat.Common
import SwiftChat.Chat.Keys
import SwiftChat.Chat.MessageStore
import SwiftChat.Chat.StoreInvariant
import SwiftChat.Chat.OfflinePaging
import SwiftChat.Chat.ClearOffline
import SwiftChat.Chat.ConversationStore
import SwiftChat.Chat.GroupStore
import SwiftChat.Chat.GroupService
import SwiftChat.Chat.ChatService
import SwiftChat.Chat.GroupInvariant
import SwiftChat.Chat.ChatRun
import SwiftChat.Chat.History
import SwiftChat.Chat.MarkRead
import SwiftChat.Chat.Unread
import SwiftChat.Chat.ConvInvariant
import SwiftChat.Gate.GateService
import SwiftChat.Gate.Binding
import SwiftChat.Zone.SessionStore
import SwiftChat.Zone.Presence
import SwiftChat.Jwt
import SwiftChat.Online.OnlineService
import SwiftChat.Online.Validity
import SwiftChat.Grpc
import SwiftChat.Zone.Request
import SwiftChat.Zone.AuthSystem
import SwiftChat.Gate.ClientMessage
import SwiftChat.File.FileStore
import SwiftChat.File.FileService
import SwiftChat.File.Upload
import SwiftChat.File.FileHandler
import SwiftChat.Zone.FileSystem
import SwiftChat.Chat.GroupHandler
import SwiftChat.Chat.GroupView
import SwiftChat.Chat.GroupChange
import SwiftChat.Chat.GroupOwner
import SwiftChat.Chat.MemberCount
import SwiftChat.Chat.GroupListing
import SwiftChat.Zone.GroupSystem
import SwiftChat.Chat.GroupCommand
import SwiftChat.Zone.Codec
import SwiftChat.Path.Backend
import SwiftChat.Path.Logout
import SwiftChat.Path.Files
import SwiftChat.Path.Groups
import SwiftChat.Chat.Dissolve
import SwiftChat.Chat.Endings
import SwiftChat.File.UploadInvariant
import SwiftChat.File.Contents
import SwiftChat.File.UploadStream
import SwiftChat.Base.Interleave
import SwiftChat.Chat.GroupActions
import SwiftChat.Chat.GroupTurns
import SwiftChat.Chat.LostUpdate
import SwiftChat.File.UploadActions
import SwiftChat.File.UploadNotes
import SwiftChat.File.UploadRace
import SwiftChat.Chat.ChatHandler
import SwiftChat.Zone.ChatSystem
import SwiftChat.Chat.Receivers
import SwiftChat.Path.Push
import SwiftChat.Chat.Isolation
import SwiftChat.Base.Json
import SwiftChat.Chat.MessageCodec
import SwiftChat.Chat.Membership
import SwiftChat.Chat.MessageLife
import SwiftChat.Chat.HistoryPaging
import SwiftChat.Chat.OfflineLoop
import SwiftChat.Chat.Privilege
import SwiftChat.Friend.FriendService
import SwiftChat.Friend.FriendView
import SwiftChat.Friend.FriendCalls
import SwiftChat.Friend.FriendRun
import SwiftChat.Friend.Friendship
import SwiftChat.Friend.Requests
import SwiftChat.Friend.Partition
import SwiftChat.Friend.HandleActions
import SwiftChat.Friend.HandleStages
import SwiftChat.Friend.HandleRace
import SwiftChat.Chat.PrivateIds
import SwiftChat.Auth.UserStore
import SwiftChat.File.FileCodec
import SwiftChat.Auth.AuthService
import SwiftChat.Auth.UserIndex
import SwiftChat.Records
import SwiftChat.Rewrites
import SwiftChat.Auth.Registration
import SwiftChat.Online.Services
import SwiftChat.Gate.Routing
import SwiftChat.Path.Login
import SwiftChat.Zone.Systems
import SwiftChat.Zone.ZoneService
import SwiftChat.Gate.Answers
import SwiftChat.Chat.Alike
import SwiftChat.Zone.RecallMarks
import SwiftChat.Base.Redis
import SwiftChat.Zone.RedisStore
import SwiftChat.Zone.StoreAgreement
import SwiftChat.File.Md5Index
import SwiftChat.File.StoredFiles
import SwiftChat.File.InstantUpload
import SwiftChat.File.UploadState
import SwiftChat.Base.Faults
import SwiftChat.File.UploadFaults
import SwiftChat.File.UploadRetry
import SwiftChat.Chat.GroupFaults
import SwiftChat.Chat.GroupAtomic
import SwiftChat.Chat.Fanout
import SwiftChat.Online.Expiry
import SwiftChat.Client.ProtocolHandler
import SwiftChat.Client.Callbacks
import SwiftChat.Logger.AsyncLogger
import SwiftChat.Logger.Drained
import SwiftChat.Client.MainWindow
import SwiftChat.Client.MessageLists
import SwiftChat.Base.Matching
import SwiftChat.Utils.Strings
import SwiftChat.Base.Hex
import SwiftChat.Utils.Encoding
import SwiftChat.Base.Bits
import SwiftChat.Token.Base64Url
import SwiftChat.Token.JwtHelper
import SwiftChat.Token.HelperJwt
import SwiftChat.Base.Checked
import SwiftChat.Chat.MemberPages
import SwiftChat.File.Ranges
import SwiftChat.Friend.GroupDeletion
import SwiftChat.Config.KeyValueConfig
import SwiftChat.Gate.WsSession
import SwiftChat.Logger.RingBuffer
import SwiftChat.Base.Sorting
import SwiftChat.Client.ChatWidget
import SwiftChat.Logger.FileSink
import SwiftChat.Logger.FileSinkState
import SwiftChat.Logger.Rotation
import SwiftChat.Logger.Retention
import SwiftChat.Logger.OnDisk
import SwiftChat.Zone.GateTimes
import SwiftChat.Chat.GroupTimes
import SwiftChat.Base.Double
import SwiftChat.Client.ChatStorage
import SwiftChat.Client.MarkRead
import SwiftChat.Client.SentOnce
import SwiftChat.Base.Part
import SwiftChat.Friend.FriendHandler
import SwiftChat.Auth.AuthHandler
import SwiftChat.Zone.Effects
import SwiftChat.Zone.FriendSystem
import SwiftChat.Zone.ChatEffects
import SwiftChat.Zone.AuthEffects
import SwiftChat.Zone.Installation
import SwiftChat.Gate.MessageTurns
import SwiftChat.Path.Served
import SwiftChat.Path.Fabric
import SwiftChat.Path.FabricSound
import SwiftChat.Path.PushCauses
import SwiftChat.Path.FabricPushes
import SwiftChat.Path.FabricAnswers
import SwiftChat.Friend.Consent
import SwiftChat.Chat.Mailbox
import SwiftChat.Path.FabricFriends
import SwiftChat.Path.FabricReplies
import SwiftChat.Path.FabricKept
import SwiftChat.Path.FabricOnce
