import CilCapture.Fault

/-!
# Notices

What a session reports beside its results: things it passes over (warnings) and failures that no
caller receives (errors).
-/

namespace CilCapture

inductive NoticeLevel where
  | warning
  | error
  deriving DecidableEq, Repr

inductive Notice where
  | unknownOffsetKey (key : String)
  | localsDropped (cause : Fault)
  | localsUnreadable (token : Token) (cause : Fault)
  | noStaticConstructor
  | captureFailed (token : Token) (cause : Fault)
  /-- Patches could not be undone after the redirect could not be installed. -/
  | patchesNotRestored (cause : Fault)
  /-- Patches could not be undone when their set was given up. -/
  | patchesLeft (cause : Fault)
  | callLeftRedirected (operand : Address) (cause : Fault)
  | tableLeftRedirected (slot : Address) (cause : Fault)
  deriving DecidableEq, Repr

def Notice.level : Notice → NoticeLevel
  | unknownOffsetKey _ | localsDropped _ | localsUnreadable _ _ | noStaticConstructor => .warning
  | captureFailed _ _ | patchesNotRestored _ | patchesLeft _ | callLeftRedirected _ _
  | tableLeftRedirected _ _ => .error

/-- The fault that a notice tells of. -/
def Notice.cause? : Notice → Option Fault
  | unknownOffsetKey _ | noStaticConstructor => none
  | localsDropped cause | localsUnreadable _ cause | captureFailed _ cause
  | patchesNotRestored cause | patchesLeft cause | callLeftRedirected _ cause
  | tableLeftRedirected _ cause => some cause

def Notice.message : Notice → String
  | unknownOffsetKey key => "Ignoring unknown offset table key " ++ key
  | localsDropped cause => "Dropping unreadable local signature - " ++ cause.message
  | localsUnreadable token cause =>
    "Unable to read the locals of " ++ token.text ++ " - " ++ cause.message
  | noStaticConstructor => "No static constructor found, snapshotting the image as loaded"
  | captureFailed token cause => "Failed to capture " ++ token.text ++ " - " ++ cause.chain
  | patchesNotRestored cause => "Failed to restore runtime patches - " ++ cause.message
  | patchesLeft cause => "Failed to restore runtime patches: " ++ cause.message
  | callLeftRedirected operand cause =>
    "Failed to remove inline hook at 0x" ++ hex 0 operand ++ " - " ++ cause.message
  | tableLeftRedirected slot cause =>
    "Failed to restore compileMethod slot at 0x" ++ hex 0 slot ++ " - " ++ cause.message

end CilCapture
