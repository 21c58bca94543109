import LuaLowering.Json.Writer
import LuaLowering.Lowering.Unit
import LuaLowering.Lua.Render
import LuaLowering.Options.CommandLine
import LuaLowering.Options.Config
import LuaLowering.Polyfill.Prelude
import LuaLowering.Program.Script
import LuaLowering.Proofs.Chain
import LuaLowering.Proofs.Entries
import LuaLowering.Proofs.Export.Root
import LuaLowering.Proofs.Lowering.Coupling
import LuaLowering.Proofs.Lowering.Renaming
import LuaLowering.Proofs.Lowering.Splitting
import LuaLowering.Proofs.Lowering.Origin
import LuaLowering.Proofs.Lowering.Session
import LuaLowering.Proofs.Polyfill.Assembly
import LuaLowering.Proofs.Program.Aliases
import LuaLowering.Proofs.Program.Handles
import LuaLowering.Proofs.Program.Libraries
import LuaLowering.Proofs.Splice
import LuaLowering.Proofs.Lowering.Mirror
import LuaLowering.Proofs.Lowering.Misuse
import LuaLowering.Proofs.Lowering.Monotone
import LuaLowering.Proofs.Lowering.Reading
import LuaLowering.Proofs.Lowering.Reserved
import LuaLowering.Proofs.Lowering.Failure
import LuaLowering.Proofs.Lowering.Requests
import LuaLowering.Proofs.Lowering.Callees
import LuaLowering.Proofs.Lowering.Retargeting
import LuaLowering.Proofs.Lowering.Replay
import LuaLowering.Proofs.Options.Setting
import LuaLowering.Proofs.Options.RoundTrip
import LuaLowering.Proofs.Options.Acceptance
import LuaLowering.Proofs.Options.Precedence
import LuaLowering.Proofs.Options.Flags
import LuaLowering.Proofs.Options.Arguments
import LuaLowering.Proofs.Rendering.Spine
import LuaLowering.Proofs.Rendering.Readability
import LuaLowering.Proofs.Export.Depth
import LuaLowering.Proofs.Polyfill.Prelude
import LuaLowering.Proofs.Rendering.Literal
import LuaLowering.Proofs.Text.Lines
