import CilCapture.Service.Requests
import CilCapture.Proofs.Bytes
import CilCapture.Proofs.Il.OpcodeTable
import CilCapture.Proofs.Il.Layout
import CilCapture.Proofs.Il.Operands
import CilCapture.Proofs.Il.Stream
import CilCapture.Proofs.Il.RoundTrip
import CilCapture.Proofs.Signature.Reading
import CilCapture.Proofs.Signature.Grammar
import CilCapture.Proofs.Signature.Agreement
import CilCapture.Proofs.Signature.Compressed
import CilCapture.Proofs.Signature.Locals
import CilCapture.Proofs.Body.Sections
import CilCapture.Proofs.Body.Raw
import CilCapture.Proofs.Body.Chained
import CilCapture.Proofs.Body.Region
import CilCapture.Proofs.Body.Tokens
import CilCapture.Proofs.Body.Assembly
import CilCapture.Proofs.Body.RoundTrip
import CilCapture.Proofs.Body.Truncation
import CilCapture.Proofs.Body.Bounds
import CilCapture.Proofs.Body.Inquiry
import CilCapture.Proofs.Body.Stored
import CilCapture.Proofs.Machine.Stream
import CilCapture.Proofs.Machine.Body
import CilCapture.Proofs.Capture.Workspace
import CilCapture.Proofs.Compile.Journal
import CilCapture.Proofs.Compile.Nesting
import CilCapture.Proofs.Compile.Coupling
import CilCapture.Proofs.Compile.Passing
import CilCapture.Proofs.Capture.Locals
import CilCapture.Proofs.Capture.Made
import CilCapture.Proofs.Capture.Runs
import CilCapture.Proofs.Capture.Recorder
import CilCapture.Proofs.Sweep.AtRest
import CilCapture.Proofs.Sweep.Constructor
import CilCapture.Proofs.Sweep.CaptureRow
import CilCapture.Proofs.Sweep.Rows
import CilCapture.Proofs.Memory.Buffers
import CilCapture.Proofs.Text.Numeral
import CilCapture.Proofs.Text.Parts
import CilCapture.Proofs.Engine.Offsets
import CilCapture.Proofs.Engine.OffsetText
import CilCapture.Proofs.Engine.Patch
import CilCapture.Proofs.Image.Loading
import CilCapture.Proofs.Image.Snapshot
import CilCapture.Proofs.Hook.Site
import CilCapture.Proofs.Hook.Exclusive
import CilCapture.Proofs.Hook.Redirect
import CilCapture.Proofs.Capture.Keeping
import CilCapture.Proofs.Sweep.Keeping
import CilCapture.Proofs.Sweep.TakeDown
import CilCapture.Proofs.Capture.Tally
import CilCapture.Proofs.Capture.Accounting
import CilCapture.Proofs.Sweep.Independence
import CilCapture.Proofs.Hook.Attempts
import CilCapture.Proofs.Engine.Processor
import CilCapture.Proofs.Engine.Adapter
import CilCapture.Proofs.Memory.Near
import CilCapture.Proofs.Memory.Histories
import CilCapture.Proofs.Hook.Reach
import CilCapture.Proofs.Sweep.Stages
import CilCapture.Proofs.Sweep.Writing
import CilCapture.Proofs.Sweep.Output
import CilCapture.Proofs.Signature.Integers
import CilCapture.Proofs.Engine.Remembering
import CilCapture.Proofs.Signature.Tracing
import CilCapture.Proofs.Signature.Stopping
