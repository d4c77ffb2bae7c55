import BismarkPassive.Machine.Execution
import BismarkPassive.Machine.History
import BismarkPassive.Containers.Slots
import BismarkPassive.RingBuffer.Replay
import BismarkPassive.RingBuffer.Window
import BismarkPassive.Probing.Cells
import BismarkPassive.Probing.Scan
import BismarkPassive.Bytes.Reader
import BismarkPassive.Bytes.Bounds
import BismarkPassive.Bytes.Memory
import BismarkPassive.Bytes.Strings
import BismarkPassive.Bytes.Access
import BismarkPassive.Containers.Bounded
import BismarkPassive.Containers.Ledger
import BismarkPassive.Output
import BismarkPassive.Text.Numerals
import BismarkPassive.Text.Tokens
import BismarkPassive.Text.Scan
import BismarkPassive.Printed
import BismarkPassive.Printing
import BismarkPassive.Anonymization
import BismarkPassive.Anonymization.HexBuffer
import BismarkPassive.AddressTable.Table
import BismarkPassive.AddressTable.Ring
import BismarkPassive.Whitelist
import BismarkPassive.Whitelist.Rule
import BismarkPassive.Whitelist.Load
import BismarkPassive.Whitelist.File
import BismarkPassive.Dns.Table
import BismarkPassive.Dns.Lookups
import BismarkPassive.Dns.Storage
import BismarkPassive.Dns.Frame
import BismarkPassive.Dns.Parser
import BismarkPassive.Dns.Message
import BismarkPassive.Dns.Sections
import BismarkPassive.Dns.Extraction
import BismarkPassive.Dns.Offers
import BismarkPassive.Dns.Records
import BismarkPassive.Dns.Bounds
import BismarkPassive.Dns.Exactness
import BismarkPassive.Dns.Layout
import BismarkPassive.Dns.Truncation
import BismarkPassive.Dns.Progress
import BismarkPassive.Dns.Provenance
import BismarkPassive.Dns.Ledger
import BismarkPassive.DropStatistics
import BismarkPassive.Counting.Tally
import BismarkPassive.Counting.FirstKeys
import BismarkPassive.DeviceThroughput.Totals
import BismarkPassive.DropStatistics.Histogram
import BismarkPassive.UploadFailures
import BismarkPassive.DeviceThroughput
import BismarkPassive.Http.Table
import BismarkPassive.Http.Parser
import BismarkPassive.Http.Storage
import BismarkPassive.Http.Memory
import BismarkPassive.Reference
import BismarkPassive.AddressTable.Collector
import BismarkPassive.AddressTable.Fifo
import BismarkPassive.FlowTable.Table
import BismarkPassive.FlowTable.Probe
import BismarkPassive.FlowTable.ProbeSlots
import BismarkPassive.FlowTable.ProcessFlow
import BismarkPassive.FlowTable.Update
import BismarkPassive.FlowTable.Count
import BismarkPassive.FlowTable.Cells
import BismarkPassive.FlowTable.Run
import BismarkPassive.FlowTable.Records
import BismarkPassive.FlowTable.Assign
import BismarkPassive.FlowTable.PartialMap
import BismarkPassive.Main.ProcessPacket
import BismarkPassive.Main.Dissection
import BismarkPassive.Main.WriteUpdate
import BismarkPassive.Main.Steps
import BismarkPassive.Main.Throughput
import BismarkPassive.Main.Run
import BismarkPassive.Main.Completion
import BismarkPassive.Main.Publication
import BismarkPassive.Main.FrequentUpdate
import BismarkPassive.Main.FrequentTotals
import BismarkPassive.Main.Assertions
import BismarkPassive.Main.Period
import BismarkPassive.Main.Overflow
import BismarkPassive.Main.Isolation
import BismarkPassive.Main.PacketLines
import BismarkPassive.Main.Mappings
import BismarkPassive.Main.DnsEntries
import BismarkPassive.Main.DnsReferences
import BismarkPassive.Main.FlowRecords
import BismarkPassive.Main.Decoding
import BismarkPassive.Main.Digests
import BismarkPassive.Main.Bounds
import BismarkPassive.Main.Frames
import BismarkPassive.Main.Fragments
import BismarkPassive.Main.Requests
import BismarkPassive.FlowTable.Times
import BismarkPassive.FlowTable.Thresholding
import BismarkPassive.FlowTable.Accounting
import BismarkPassive.PacketSeries.Series
import BismarkPassive.PacketSeries.RoundTrip
import BismarkPassive.PacketSeries.FlowIds
import BismarkPassive.FlowTable.Renaming
import BismarkPassive.AddressTable.Mapped
import BismarkPassive.AddressTable.Renaming
import BismarkPassive.Dns.Renaming
import BismarkPassive.PacketSeries.Agreement
import BismarkPassive.Http.Agreement
import BismarkPassive.Machine.Lockstep
import BismarkPassive.Main.Correspondence
import BismarkPassive.Main.Noninterference
import BismarkPassive.Files.Directory
import BismarkPassive.Main.Signals
import BismarkPassive.Main.Parts
import BismarkPassive.Main.Staging
import BismarkPassive.Main.Handlers
import BismarkPassive.Main.Interrupts
import BismarkPassive.Main.HandlerSteps
import BismarkPassive.Main.Accounting
import BismarkPassive.Main.Termination
import BismarkPassive.Main.Uninterrupted
import BismarkPassive.Text.Rows
import BismarkPassive.Hashing.Blocks
import BismarkPassive.Sha1.Standard
import BismarkPassive.Sha1.Context
import BismarkPassive.Sha1.Rounds
import BismarkPassive.Sha1.Streaming
import BismarkPassive.Sha1.Calls
import BismarkPassive.Main.UpdateReader
import BismarkPassive.Text.ScanHex
import BismarkPassive.Main.Startup
import BismarkPassive.Main.Names
import BismarkPassive.Main.UpdateRoundTrip
import BismarkPassive.Main.FrequentReader
import BismarkPassive.Hasher
import BismarkPassive.Main.Payload
import BismarkPassive.Main.Cadence
import BismarkPassive.Main.Collector
import BismarkPassive.Main.Linked
import BismarkPassive.Main.KeyedHash
import BismarkPassive.DeviceThroughput.Renaming
import BismarkPassive.Main.Devices
import BismarkPassive.Files.Kept
import BismarkPassive.Main.Restarts
import BismarkPassive.Http.Ledger
import BismarkPassive.Main.Strings
