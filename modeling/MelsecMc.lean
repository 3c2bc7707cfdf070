import MelsecMc.Addresses
import MelsecMc.BuildRequest
import MelsecMc.Bytes
import MelsecMc.Channel
import MelsecMc.Client
import MelsecMc.CommandSpec
import MelsecMc.Define
import MelsecMc.Device
import MelsecMc.DeviceFile
import MelsecMc.DeviceRegistry
import MelsecMc.DeviceStores
import MelsecMc.Dispatch
import MelsecMc.Endpoint
import MelsecMc.ErrorCodes
import MelsecMc.Frame
import MelsecMc.Json
import MelsecMc.Lib.Cells
import MelsecMc.Lib.Checks
import MelsecMc.Lib.Framing
import MelsecMc.Lib.LittleEndian
import MelsecMc.Lib.Lookup
import MelsecMc.Lib.Loops
import MelsecMc.Lib.Mailboxes
import MelsecMc.Lib.Numerals
import MelsecMc.Lib.Pointwise
import MelsecMc.Lib.Readers
import MelsecMc.Lib.Runs
import MelsecMc.Lib.Simulation
import MelsecMc.Lib.Strides
import MelsecMc.Lib.Totals
import MelsecMc.Lib.Trimming
import MelsecMc.Lib.Writers
import MelsecMc.Operations
import MelsecMc.Params
import MelsecMc.ParseResponse
import MelsecMc.Plant
import MelsecMc.Pool
import MelsecMc.Proofs.Addresses
import MelsecMc.Proofs.Addressing
import MelsecMc.Proofs.Agreement
import MelsecMc.Proofs.Attempts
import MelsecMc.Proofs.BatchRequest
import MelsecMc.Proofs.BlockFields
import MelsecMc.Proofs.BlockKinds
import MelsecMc.Proofs.BlockRequest
import MelsecMc.Proofs.BlockResponse
import MelsecMc.Proofs.BuildRequest
import MelsecMc.Proofs.Calls
import MelsecMc.Proofs.Channel
import MelsecMc.Proofs.CommandFile
import MelsecMc.Proofs.Datagrams
import MelsecMc.Proofs.Deliveries
import MelsecMc.Proofs.DeviceParams
import MelsecMc.Proofs.DeviceRegistry
import MelsecMc.Proofs.DeviceStores
import MelsecMc.Proofs.DeviceString
import MelsecMc.Proofs.Dispatch
import MelsecMc.Proofs.Echo
import MelsecMc.Proofs.Entries
import MelsecMc.Proofs.FieldSpec
import MelsecMc.Proofs.Frame
import MelsecMc.Proofs.Limits
import MelsecMc.Proofs.Matching
import MelsecMc.Proofs.Mc4eResponse
import MelsecMc.Proofs.Memory
import MelsecMc.Proofs.MultiBlock
import MelsecMc.Proofs.Nibbles
import MelsecMc.Proofs.Operations
import MelsecMc.Proofs.ParseTotal
import MelsecMc.Proofs.Payload
import MelsecMc.Proofs.Plant
import MelsecMc.Proofs.Pool
import MelsecMc.Proofs.Process
import MelsecMc.Proofs.Progress
import MelsecMc.Proofs.ReadBack
import MelsecMc.Proofs.ReadBits
import MelsecMc.Proofs.Reassembly
import MelsecMc.Proofs.Registration
import MelsecMc.Proofs.Registries
import MelsecMc.Proofs.RepeatField
import MelsecMc.Proofs.Request
import MelsecMc.Proofs.RequestValues
import MelsecMc.Proofs.Response
import MelsecMc.Proofs.Resync
import MelsecMc.Proofs.Retries
import MelsecMc.Proofs.Reuse
import MelsecMc.Proofs.ScanLoop
import MelsecMc.Proofs.Sendings
import MelsecMc.Proofs.Session
import MelsecMc.Proofs.Slots
import MelsecMc.Proofs.Symbols
import MelsecMc.Proofs.Targets
import MelsecMc.Proofs.Text
import MelsecMc.Proofs.Truncation
import MelsecMc.Proofs.TypedReads
import MelsecMc.Proofs.TypedWords
import MelsecMc.Proofs.Udp
import MelsecMc.Proofs.Validation
import MelsecMc.Proofs.WriteRequest
import MelsecMc.Registration
import MelsecMc.Registries
import MelsecMc.Request
import MelsecMc.Response
import MelsecMc.Retry
import MelsecMc.Reuse
import MelsecMc.Session
import MelsecMc.ShippedCommands
import MelsecMc.Spec.Batch
import MelsecMc.Spec.BlockRequest
import MelsecMc.Spec.Blocks
import MelsecMc.Spec.Limits
import MelsecMc.Spec.Memory
import MelsecMc.Spec.Slots
import MelsecMc.Spec.Spellings
import MelsecMc.Spec.Wire
import MelsecMc.Symbols
import MelsecMc.Text
import MelsecMc.Transport
import MelsecMc.Udp
import MelsecMc.Validation
import MelsecMc.Words
