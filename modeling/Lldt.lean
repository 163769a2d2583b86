import Lldt.Data.Bytes
import Lldt.Data.Holes
import Lldt.Data.Maxima
import Lldt.Data.Selection
import Lldt.Data.Relay
import Lldt.Data.Transition
import Lldt.Data.Cyclic
import Lldt.Data.RunningTotal
import Lldt.Data.OnesComplement
import Lldt.Data.Digits
import Lldt.Data.Layout
import Lldt.Data.Filling
import Lldt.Ring.Basic
import Lldt.Ring.History
import Lldt.Ring.Concurrent
import Lldt.Ring.TornRead
import Lldt.Ring.Linearize
import Lldt.Message.Frame
import Lldt.Message.Compact
import Lldt.Message.Records
import Lldt.Dpdk.Materializer
import Lldt.Dpdk.Mbuf
import Lldt.Dpdk.Destination
import Lldt.Packet.Builder
import Lldt.Packet.Codec
import Lldt.Packet.Parser
import Lldt.Sender.Reader
import Lldt.Sender.Cursor
import Lldt.Sender.Loop
import Lldt.Sender.Stream
import Lldt.Sender.Wire
import Lldt.Sender.Conservation
import Lldt.Sender.Contiguity
import Lldt.Sender.Progress
import Lldt.Sender.Renewal
import Lldt.Sender.Shutdown
import Lldt.Sender.Loss
import Lldt.Receiver.Accounting
import Lldt.Receiver.Delivery
import Lldt.Receiver.Loop
import Lldt.Receiver.Restart
import Lldt.Receiver.Totals
import Lldt.Receiver.Stepwise
import Lldt.Receiver.Writer
import Lldt.Consumer.Csv
import Lldt.Consumer.Loop
import Lldt.Consumer.Metrics
import Lldt.Consumer.Tailing
import Lldt.Producer.Build
import Lldt.Producer.Quotes
import Lldt.Producer.Timestamp
import Lldt.Producer.Aggregates
import Lldt.Pipeline.Integrity
import Lldt.Pipeline.Feed
import Lldt.Pipeline.Losses
import Lldt.Pipeline.Outcome
import Lldt.Pipeline.Progress
import Lldt.Pipeline.Stages
import Lldt.Pipeline.Relays
import Lldt.Pipeline.System
import Lldt.Pipeline.Untrusted
import Lldt.Endpoint.Arguments
import Lldt.Endpoint.Grammar
import Lldt.Endpoint.Acceptance
import Lldt.Pipeline.Interleaved
