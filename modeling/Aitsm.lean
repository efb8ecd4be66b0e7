import Aitsm.Library.System
import Aitsm.Library.Wire
import Aitsm.Library.Varint
import Aitsm.Library.Rounding
import Aitsm.Library.Keyset
import Aitsm.Library.Escape
import Aitsm.Library.LineProtocol
import Aitsm.Library.Upsert
import Aitsm.Firmware.Sparkplug
import Aitsm.Simple.Loop
import Aitsm.Simple.Flags
import Aitsm.Simple.Delivery
import Aitsm.Simple.Session
import Aitsm.Simple.Helper
import Aitsm.Original.Transmission
import Aitsm.Original.Service
import Aitsm.Original.Numbering
import Aitsm.Original.Client
import Aitsm.Original.Ownership
import Aitsm.Original.Acknowledged
import Aitsm.Original.Calls
import Aitsm.Original.Retention
import Aitsm.Original.Wakeup
import Aitsm.Original.Retry
import Aitsm.Original.Completion
import Aitsm.Original.Retransmission
import Aitsm.Original.Queued
import Aitsm.Original.Attempts
import Aitsm.Original.Controller
import Aitsm.Original.Connection
import Aitsm.Original.Led
import Aitsm.Original.Agreement
import Aitsm.Ingest.Python
import Aitsm.Ingest.Message
import Aitsm.Ingest.Poison
import Aitsm.Ingest.Rows
import Aitsm.Ingest.Devices
import Aitsm.Ingest.Numbers
import Aitsm.Ingest.Decode
import Aitsm.Ingest.EndToEnd
import Aitsm.Ingest.Worker
import Aitsm.Ingest.Acknowledge
import Aitsm.Ingest.Converge
import Aitsm.Visualization.Api
import Aitsm.Visualization.Paging
import Aitsm.Visualization.Readings
import Aitsm.Ingest.Grammar
import Aitsm.Library.Backoff
import Aitsm.Original.Reconnect
import Aitsm.Library.Stream
import Aitsm.Firmware.Capacity
import Aitsm.Simple.BdSeq
import Aitsm.Original.BdSeq
import Aitsm.Simple.Deadline
import Aitsm.Simple.Backoff
import Aitsm.Ingest.Grouping
import Aitsm.Ingest.Order
import Aitsm.Ingest.Varint
import Aitsm.Library.Fifo
import Aitsm.Original.Buffer
import Aitsm.Original.Flash
import Aitsm.Library.Progress
import Aitsm.Ingest.Recovery
import Aitsm.Ingest.RoundTrip
import Aitsm.Library.Nearest
import Aitsm.Firmware.Sensor
import Aitsm.Ingest.Precision
import Aitsm.Library.Lexer
import Aitsm.Visualization.Sql
import Aitsm.Simple.Sleep
import Aitsm.Simple.Measure
import Aitsm.Ingest.Retry
import Aitsm.Original.Registration
