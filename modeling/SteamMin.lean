import SteamMin.Lib.KeyMap
import SteamMin.Lib.LittleEndian
import SteamMin.Lib.Calls
import SteamMin.Lib.Runs
import SteamMin.Basic
import SteamMin.Vdf.Node
import SteamMin.Vdf.TextParser
import SteamMin.Vdf.TextGrammar
import SteamMin.Vdf.TextCorrect
import SteamMin.Vdf.Stringify
import SteamMin.Vdf.BinaryParser
import SteamMin.Vdf.BinaryFormat
import SteamMin.Vdf.BinaryCorrect
import SteamMin.Net.TcpConnection
import SteamMin.Net.TcpSteps
import SteamMin.Net.WriteQueue
import SteamMin.Lib.Framing
import SteamMin.Net.StaleHandlers
import SteamMin.Net.TcpFraming
import SteamMin.Messages.Protobuf
import SteamMin.Messages.SteamLanguage
import SteamMin.Messages.Message
import SteamMin.Crypto.EncryptionManager
import SteamMin.Client.CMClient
import SteamMin.Client.Handlers
import SteamMin.Client.System
import SteamMin.Client.Channel
import SteamMin.Client.ChannelRefinement
import SteamMin.Client.Plaintext
import SteamMin.Client.Reconnect
import SteamMin.Client.HandshakeOrder
import SteamMin.Crypto.Envelope
import SteamMin.Client.Downgrade
import SteamMin.Client.SecuredFrames
import SteamMin.Client.ProtoFrames
import SteamMin.Net.WriteOrder
import SteamMin.Client.Shutdown
import SteamMin.Client.Registration
import SteamMin.Client.Batches
import SteamMin.Client.ProductInfo
import SteamMin.Client.BadBodies
import SteamMin.Client.EncryptRequest
import SteamMin.Lib.MachineInt
import SteamMin.Net.Retry
import SteamMin.Web.CMFetcher
import SteamMin.Lib.ReadBack
import SteamMin.Messages.TypedValues
import SteamMin.Messages.Bodies
import SteamMin.Messages.Reencoding
import SteamMin.Messages.Headers
import SteamMin.Messages.Guards
import SteamMin.Messages.Modes
import SteamMin.Client.RequestRouter
import SteamMin.Client.CopiedResponse
import SteamMin.Client.Nesting
import SteamMin.Client.Journal
import SteamMin.Client.JournalRefinement
import SteamMin.Client.Causes
import SteamMin.Client.Requests
import SteamMin.Client.Programs
import SteamMin.Client.GetInfo
import SteamMin.Net.Pipe
import SteamMin.Client.Inbound
import SteamMin.Client.Outbound
import SteamMin.Vdf.BinaryGrammar
import SteamMin.Client.ProductLookups
import SteamMin.Client.Randomness
import SteamMin.Client.Overruns
import SteamMin.Client.Returns
import SteamMin.Client.Heard
