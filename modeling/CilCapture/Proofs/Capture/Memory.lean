import CilCapture.Capture.Workspace
import CilCapture.Proofs.Hook.Site

/-!
# The memory of a workspace

A workspace has the memory of its world: what is known of the bytes, of growing and of placing code
there is known of the workspace.

The parts of a sweep are shown for address spaces, and a workspace is one; these lemmas are why what
was assumed of the world needs not be assumed again of the workspace around it.
-/

namespace CilCapture.Capture

open Engine Hook Memory

variable {M W : Type}

/-- A step on the world that succeeded in a workspace did so in the world. -/
theorem onWorld_eq_ok {α : Type} {step : EStateM Fault W α} {workspace after : Workspace M W}
    {value : α} (done : Workspace.onWorld step workspace = .ok value after) :
    step workspace.world = .ok value after.world := by
  unfold Workspace.onWorld at done
  split at done
  next taken =>
    cases done
    exact taken
  next => cases done

section

variable [AddressSpace W] {possible : W → Prop}

/-- The memory of a workspace is the one of its world. -/
theorem workspace_memory : MemoryOf (Workspace.world : Workspace M W → W) where
  read_eq := fun _ _ _ => rfl
  write_eq := by
    intro address data workspace
    change mapState _ (Workspace.onWorld (AddressSpace.write address data) workspace) = _
    unfold Workspace.onWorld
    cases AddressSpace.write address data workspace.world <;> rfl

/-- A memory that only grows does so in a workspace. -/
theorem workspace_growing (memory : GrowingMemory possible) :
    GrowingMemory fun workspace : Workspace M W => possible workspace.world where
  toByteMemory := workspace_memory.byteMemory memory.toByteMemory
  allocate := by
    intro workspace grown here near base size allocated
    obtain ⟨there, still, fresh⟩ := memory.allocate here (onWorld_eq_ok allocated)
    exact ⟨there, ⟨still.keeps⟩, fresh⟩

/-- Code that is placed apart from the rest is so in a workspace. -/
theorem workspace_places [CodeSpace W] (places : PlacesApart possible) :
    PlacesApart fun workspace : Workspace M W => possible workspace.world := by
  intro workspace placed code address here done
  obtain ⟨there, still⟩ := places here (onWorld_eq_ok done)
  exact ⟨there, ⟨still.keeps⟩⟩

end

end CilCapture.Capture
