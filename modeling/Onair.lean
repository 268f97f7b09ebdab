import Onair.Lib.Mealy
import Onair.Lib.Lines
import Onair.Lib.OrdMap
import Onair.Lib.Json.Value
import Onair.Lib.Text
import Onair.Lib.Json.Reference
import Onair.Lib.Json.RoundTrip
import Onair.Lib.Json.Lines
import Onair.Core.Usage
import Onair.Core.Event
import Onair.Core.Frame
import Onair.Core.Native
import Onair.Core.Responses
import Onair.Core.ChatCompletions
import Onair.Core.MessagesToChat
import Onair.Core.Paths
import Onair.Core.Auth
import Onair.Lib.Distinct
import Onair.Lib.Fifo
import Onair.Lib.Retry
import Onair.Observe.Inspector
import Onair.Core.Config
import Onair.Core.Strategy
import Onair.Stream.Chunks
import Onair.Responses.Moves
import Onair.Responses.Steps
import Onair.Responses.Deltas
import Onair.Responses.Lifecycle
import Onair.Responses.Items
import Onair.Lib.Batch
import Onair.Proxy.Endpoints
import Onair.Proxy.Routing
import Onair.Proxy.Context
import Onair.Proxy.Selection
import Onair.Proxy.Accepted
import Onair.Proxy.Markers
import Onair.Proxy.Upstream
import Onair.Proxy.Forward
import Onair.Proxy.Preflight
import Onair.Proxy.Stream
import Onair.Proxy.Respond
import Onair.Proxy.Attempts
import Onair.Proxy.Fallback
import Onair.Proxy.Ledger
import Onair.Proxy.Finished
import Onair.Proxy.Counters
import Onair.Proxy.Invariance
import Onair.Proxy.Accounting
import Onair.Lib.Search
import Onair.Lib.Fallible
import Onair.Lib.Form
import Onair.Request.Multipart
import Onair.Request.Inspect
import Onair.Request.Rewrite
import Onair.Lib.Mime
import Onair.Request.Parts
import Onair.Request.Intact
import Onair.Request.Reread
import Onair.Core.Rewritten
import Onair.Responses.Usage
import Onair.Chat.Sending
import Onair.Chat.Signals
import Onair.Chat.Grammar
import Onair.Chat.GrammarMessages
import Onair.Chat.Announce
import Onair.Chat.Failure
import Onair.Chat.Secrecy
import Onair.Core.Buffered
import Onair.Chat.Truncation
import Onair.Chat.Indexes
import Onair.Stream.Printed
import Onair.Chat.Assemble
import Onair.Chat.View
import Onair.Chat.Agreement
import Onair.Chat.ViewMessages
import Onair.Chat.AgreementMessages
import Onair.Core.Names
import Onair.Core.Hidden
import Onair.Stream.Named
import Onair.Proxy.Answers
import Onair.Observe.Retention
import Onair.Lib.Ranked
import Onair.Observe.Persistence
import Onair.Proxy.Reachability
import Onair.Proxy.Credentials
import Onair.Lib.Ip
import Onair.Observe.ClientInfo
import Onair.Observe.Spoofing
import Onair.Request.ToChat
import Onair.Request.ToResponses
import Onair.Request.ToMessages
import Onair.Request.Modes
import Onair.Request.ExtraBody
import Onair.Request.History
import Onair.Request.HistoryMessages
import Onair.Request.ToolHistory
import Onair.Stream.DataLines
import Onair.Stream.Passthrough
import Onair.Proxy.ErrorBody
import Onair.Lib.Turns
import Onair.Proxy.Consulted
import Onair.Proxy.Balance
import Onair.Request.TokenLimit
import Onair.Lib.Json.Paths
import Onair.Core.Readers
import Onair.Stream.HiddenUsage
import Onair.Lib.Json.Size
import Onair.Request.Schema
import Onair.Request.Interface
import Onair.Lib.Checked
import Onair.Proxy.Additions
import Onair.Proxy.Overflow
import Onair.Observe.Cidr
import Onair.Request.Scanners
import Onair.Lib.Window
import Onair.Observe.Health
import Onair.Lib.Guarded
import Onair.Observe.Capture
import Onair.Lib.Lossy
import Onair.Lib.EventStream
import Onair.Observe.SseCapture
import Onair.Proxy.Reload
import Onair.Observe.ContextSizes
import Onair.Proxy.Models
import Onair.Observe.Live
import Onair.Observe.Writer
import Onair.Proxy.Masked
