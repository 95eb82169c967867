import CilCapture.Hook.Site
import CilCapture.ModuleStore
import CilCapture.Text.Path

/-!
# Settings of a sweep

What is captured does not depend on the settings beyond the kind of redirect and the moment of the
snapshot; all else tells how the result is written and where.
-/

namespace CilCapture.Sweep

structure Settings where
  hookKind : Hook.HookKind := .call
  /-- Directory of the offset tables. -/
  offsetsDirectory : String := "."
  /-- Take the snapshot before the static constructor runs. -/
  snapshotFirst : Bool := false
  /-- Keep the code that the packer left behind. -/
  keepRuntime : Bool := false
  /-- Keep row ids and heap offsets. -/
  keepTokens : Bool := false
  /-- Keep the captured maximum stacks. -/
  keepMaxStacks : Bool := false
  /-- Keep everything that can be kept. -/
  keepAll : Bool := false
  /-- What is put between the stem and the extension of the output's name. -/
  outputSuffix : String := ".jupk"
  deriving DecidableEq, Repr

namespace Settings

/-- Whether the packer's own code is removed. -/
def removesRuntimeSupport (settings : Settings) : Bool :=
  !(settings.keepAll || settings.keepRuntime)

def writeOptions (settings : Settings) : WriteOptions :=
  let keepTokens := settings.keepAll || settings.keepTokens
  { keepRowIds := keepTokens
    keepOffsets := keepTokens
    keepMaxStacks := settings.keepAll || settings.keepMaxStacks }

/-- The name of the output of a file. -/
def outputName (settings : Settings) (input : List Char) : List Char :=
  let name := (Text.fileName? input).getD []
  match Text.cutExtension? name with
  | some (stem, extension) => stem ++ settings.outputSuffix.toList ++ '.' :: extension
  | none => name ++ settings.outputSuffix.toList

/-- Where the output of a file is written. -/
def outputPath (settings : Settings) (input : String) : String :=
  String.ofList (Text.withFileName (settings.outputName input.toList) input.toList)

end Settings

end CilCapture.Sweep
