import CilCapture.Body.Assembly
import CilCapture.Rehearsal.World

/-!
# Scripts

Calls and callbacks given as data. A callback script notes that it was entered, may arm the filter,
may make one nested call as long as fewer than a given number were made by it, and then ends the
way it is told, with the event edited.
-/

namespace CilCapture.Rehearsal

open Compile

/-- A call to the compiler, with an interface made for it if there is one. -/
structure ScriptedCall where
  call : CompileCall
  interface : Option Interface
  deriving DecidableEq, Repr

/-- The call as it is made; a new interface takes the place of the given one. -/
def ScriptedCall.ready (scripted : ScriptedCall) (world : World) : CompileCall × World :=
  match scripted.interface with
  | none => (scripted.call, world)
  | some interface =>
    let (jitInfo, world) := world.makeInterface interface
    ({ scripted.call with jitInfo }, world)

structure NestedCall where
  call : ScriptedCall
  /-- Whether it goes to the filter and not to the entry point. -/
  direct : Bool
  /-- How many of them the callback makes in all. -/
  times : Nat
  deriving DecidableEq, Repr

/-- What a callback changes in an event. -/
structure EventEdits where
  jitInfo : Option Address
  nativeEntry : Option Address
  nativeSize : Option Address
  info : Option (Option MethodInfo)
  deriving DecidableEq, Repr

def EventEdits.apply (edits : EventEdits) (event : CompileEvent) : CompileEvent :=
  { event with
    jitInfo := edits.jitInfo.getD event.jitInfo
    nativeEntry := edits.nativeEntry.getD event.nativeEntry
    nativeSize := edits.nativeSize.getD event.nativeSize
    info := edits.info.getD event.info }

inductive Ending where
  | claim
  | forward
  | breakdown
  | fail (message : String)
  deriving DecidableEq, Repr

def Ending.verdict (event : CompileEvent) : Ending → Verdict
  | claim => .claim
  | forward => .forward event
  | breakdown => .breakdown
  | fail message => .fail (.other message)

structure CallbackScript where
  arm : Option Handle
  nested : Option NestedCall
  edits : EventEdits
  ending : Ending
  deriving DecidableEq, Repr

/-- What a callback does: its state is the number of nested calls that it has made. -/
abbrev ScriptedResponse := Response Nat World Verdict

def noting (incident : Incident) (next : ScriptedResponse) : ScriptedResponse :=
  .observe fun made world => .store made (world.note incident) next

namespace CallbackScript

/-- Makes the nested call if its number is not used up. -/
def callNested (nested : NestedCall) (layout : Engine.InfoLayout) (next : ScriptedResponse) :
    ScriptedResponse :=
  .observe fun made world =>
    if nested.times ≤ made then next
    else
      let (call, world) := nested.call.ready world
      .store (made + 1) world
        (if nested.direct then
          .sift (call.event layout) fun outcome => noting (.nestedSift outcome) next
        else .compile call fun result => noting (.nestedCall result) next)

def respond (script : CallbackScript) : Callback Nat World := fun event =>
  let finish : ScriptedResponse := .finish (script.ending.verdict (script.edits.apply event))
  let goOn : ScriptedResponse :=
    match script.nested with
    | some nested => callNested nested event.layout finish
    | none => finish
  .countDepth fun depth => noting (.callback event depth)
    (match script.arm with
      | some method => .arm method goOn
      | none => goOn)

end CallbackScript

/-- A map of tokens: some break down, some are refused, some have an image of their own, all others
are moved by a distance. -/
structure TokenMap where
  breaking : List Token
  refused : List Token
  images : List (Token × Token)
  distance : UInt32
  deriving DecidableEq, Repr

namespace TokenMap

def image (map : TokenMap) (token : Token) : Except Abort Token :=
  if token ∈ map.breaking then .error .breakdown
  else if token ∈ map.refused then .error (.fault (.other ("unmapped " ++ token.text)))
  else
    match map.images.lookup token with
    | some image => .ok image
    | none => .ok ⟨token.value + map.distance⟩

def resolver {W : Type} (map : TokenMap) : Body.TokenResolver (Errand Abort W) := fun _ token =>
  .done (map.image token)

/-- The map as a resolver that notes what it was asked. -/
def notingResolver (map : TokenMap) :
    Body.TokenResolver (EStateM Abort (List (Il.Opcode × Token))) :=
  fun opcode token asked =>
    match map.image token with
    | .ok image => .ok image (asked ++ [(opcode, token)])
    | .error abort => .error abort (asked ++ [(opcode, token)])

end TokenMap

end CilCapture.Rehearsal
