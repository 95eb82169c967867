import CilCapture.Compile.Routine
import CilCapture.Engine.Adapter
import CilCapture.Engine.Identity
import CilCapture.Memory.Space

/-!
# The workspace of a session

What a callback shares with the session that drives it: the module that receives captured bodies,
once there is one, and the world. Whatever the world can do, the workspace can.
-/

namespace CilCapture.Capture

structure Workspace (M W : Type) where
  output : Option M
  world : W

namespace Workspace

variable {M W : Type}

def onWorld {α : Type} (step : EStateM Fault W α) : EStateM Fault (Workspace M W) α :=
  fun workspace =>
    match step workspace.world with
    | .ok value world => .ok value { workspace with world }
    | .error fault world => .error fault { workspace with world }

def lift {α : Type} : Compile.Routine W α → Compile.Routine (Workspace M W) α :=
  Compile.Errand.within Workspace.world fun world workspace => { workspace with world }

instance [Memory.AddressSpace W] : Memory.AddressSpace (Workspace M W) where
  read address length workspace := Memory.AddressSpace.read address length workspace.world
  write address data := onWorld (Memory.AddressSpace.write address data)
  allocateNear near size := onWorld (Memory.AddressSpace.allocateNear near size)

instance [Engine.CodeSpace W] : Engine.CodeSpace (Workspace M W) where
  place code := onWorld (Engine.CodeSpace.place code)

instance [Engine.Introspection W] : Engine.Introspection (Workspace M W) where
  isValueTypeMember method := onWorld (Engine.Introspection.isValueTypeMember method)
  instantiatingStub method := onWorld (Engine.Introspection.instantiatingStub method)
  unboxingStub method := onWorld (Engine.Introspection.unboxingStub method)

instance [Compile.NativeCode W] : Compile.NativeCode (Workspace M W) where
  word address workspace := Compile.NativeCode.word address workspace.world
  clauseInfo function this method index workspace :=
    let (clause, world) := Compile.NativeCode.clauseInfo function this method index workspace.world
    (clause, { workspace with world })
  compile function call workspace :=
    let (result, world) := Compile.NativeCode.compile function call workspace.world
    (result, { workspace with world })
  call function arguments := lift (Compile.NativeCode.call function arguments)

end Workspace

end CilCapture.Capture
