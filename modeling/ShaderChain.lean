import ShaderChain.Text.Utf8
import ShaderChain.Text.Words
import ShaderChain.Text.Quoting
import ShaderChain.Text.Numeral
import ShaderChain.Json.Value
import ShaderChain.Json.Record
import ShaderChain.Tool.Registry
import ShaderChain.Host.FileSystem
import ShaderChain.Chain.Run
import ShaderChain.Service.Handling
import ShaderChain.Service.Address
import ShaderChain.Bench.Session
import ShaderChain.Bench.Serve
import ShaderChain.Bench.ScratchTrial
import ShaderChain.Main
import ShaderChain.Proofs.Processes
import ShaderChain.Proofs.Isolation
import ShaderChain.Proofs.Record
import ShaderChain.Proofs.Trace
import ShaderChain.Proofs.Plan
import ShaderChain.Proofs.Decoding
import ShaderChain.Proofs.Replacement
import ShaderChain.Proofs.Scrubbing
import ShaderChain.Proofs.DataFlow
import ShaderChain.Proofs.Hiding
import ShaderChain.Proofs.ShellWords
import ShaderChain.Proofs.Composition
import ShaderChain.Proofs.Validation
import ShaderChain.Proofs.Launching
import ShaderChain.Proofs.Searching
import ShaderChain.Proofs.Progress
import ShaderChain.Proofs.Verdicts
import ShaderChain.Proofs.Hall
import ShaderChain.Proofs.Permits
import ShaderChain.Proofs.Locations
import ShaderChain.Proofs.Listing
import ShaderChain.Proofs.Files
import ShaderChain.Proofs.Housekeeping
import ShaderChain.Proofs.Cleanup
import ShaderChain.Proofs.Counting
import ShaderChain.Proofs.Words
import ShaderChain.Proofs.Extraction
import ShaderChain.Proofs.Planning
import ShaderChain.Proofs.JsonText
import ShaderChain.Proofs.Payloads
import ShaderChain.Proofs.Capacity
import ShaderChain.Proofs.Joining
import ShaderChain.Proofs.Exactness
import ShaderChain.Proofs.Pointing
import ShaderChain.Proofs.Damage
import ShaderChain.Proofs.Slots
import ShaderChain.Proofs.Numerals
import ShaderChain.Proofs.Settings
import ShaderChain.Proofs.Arguments
import ShaderChain.Proofs.Plumbing
import ShaderChain.Proofs.Restaging
