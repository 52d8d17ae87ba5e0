import IraOS.Core.Value
import IraOS.Lib.Tasks

/-!
# The plugin manager

`PluginManagerImpl` (`core/plugins/manager.py`) over `InMemoryPluginRegistry` and
`DefaultPluginValidator`: its coroutines, cut at their awaits. Every await is a publish, and every
publish is the last thing of its turn: a call looks a descriptor up, writes a new one and announces
it without anybody in between. The two calls that go on after a publish are `discover`, with the
next plugin, and `unload`, **with the descriptor it looked up before it disabled the plugin**.

What a loader finds is given with the call; the bus can raise at any publish.

`load`, `enable` and `disable` differ in two states, an event and a message, and are one definition
(`transition`). A plugin that is not in the state they start from is left alone, and an exception is
raised. `discover` writes over whatever state there is, and so does `unload` when it has disabled
the plugin first.
-/

set_option autoImplicit false

namespace IraOS

open Lib

/-! ## core/plugins/models.py -/

inductive PluginState where
  | DISCOVERED | VALIDATED | REGISTERED | LOADED | ENABLED | DISABLED | ERROR
  deriving DecidableEq, Repr

def PluginState.name : PluginState → String
  | .DISCOVERED => "DISCOVERED"
  | .VALIDATED => "VALIDATED"
  | .REGISTERED => "REGISTERED"
  | .LOADED => "LOADED"
  | .ENABLED => "ENABLED"
  | .DISABLED => "DISABLED"
  | .ERROR => "ERROR"

inductive PluginStatus where
  | HEALTHY | DEGRADED | OFFLINE
  deriving DecidableEq, Repr

/-- A manifest, as far as it is read; a loader may have put anything in it. -/
structure PluginManifest where
  id : PyValue
  name : PyValue
  version : PyValue

structure PluginMetadata where
  manifest : Option PluginManifest

structure PluginDescriptor where
  pluginId : String
  metadata : PluginMetadata
  state : PluginState
  status : PluginStatus

structure PluginResult where
  pluginId : String
  success : Bool
  state : PluginState
  errorMessage : Option String := none

inductive PluginEvent where
  | discovered (pluginId : String) (name version : PyValue)
  | loaded (pluginId : String)
  | enabled (pluginId : String)
  | disabled (pluginId : String)
  | unloaded (pluginId : String)
  | validationFailed (pluginId : PyValue) (error : Text)

namespace InMemoryPluginRegistry

/-- `_plugins`. -/
abbrev Plugins := Dict String PluginDescriptor

/-- `register`: whatever was there is replaced. -/
def register (plugins : Plugins) (descriptor : PluginDescriptor) : Plugins :=
  plugins.set descriptor.pluginId descriptor

def lookup (plugins : Plugins) (pluginId : String) : Option PluginDescriptor :=
  plugins.get? pluginId

end InMemoryPluginRegistry

open InMemoryPluginRegistry (Plugins register lookup)

namespace DefaultPluginValidator

def validationError (message : String) : Exn := ⟨.other "PluginValidationError", lit message⟩

/-- `validate`, of metadata that has a manifest; what it lets through has the id it answers. -/
def validate (manifest : PluginManifest) : Except Exn String :=
  match manifest.id with
  | .str id =>
    if id.isEmpty then .error (validationError "Plugin ID is required and must be a string.")
    else if manifest.version.truthy then .ok id
    else .error (validationError "Plugin version is required.")
  | _ => .error (validationError "Plugin ID is required and must be a string.")

end DefaultPluginValidator

/-! ## core/plugins/manager.py -/

inductive PluginCall where
  /-- `discover()`, of what the loader finds. -/
  | discover (found : List (Option PluginMetadata))
  | load (pluginId : String)
  | unload (pluginId : String)
  | enable (pluginId : String)
  | disable (pluginId : String)

namespace PluginManagerImpl

inductive Pc where
  | idle
  -- discover: at the plugin's announcement, and at that of its failed validation
  | discovering (manifest : PluginManifest) (rest : List (Option PluginMetadata))
  | rejecting (rest : List (Option PluginMetadata))
  -- unload, at the announcement its `disable` makes
  | disabling (descriptor : PluginDescriptor)
  -- the last announcement
  | announcing (result : PluginResult)
  -- the end; `discover` returns nothing
  | returned (result : Option PluginResult)
  | raised (exc : Exn)

/-- What a waiting call hears from the bus. -/
inductive Reply where
  | proceed
  | raise (exc : Exn)

abbrev Turn := Lib.Turn Plugins Pc PluginEvent

/-! ### discover -/

def reject (plugins : Plugins) (manifest : PluginManifest) (rest : List (Option PluginMetadata))
    (exc : Exn) : Turn where
  shared := plugins
  pc := .rejecting rest
  actions := [.validationFailed manifest.id exc.message]

def noAttribute (name : String) : Exn :=
  ⟨.attributeError, lit ("'NoneType' object has no attribute '" ++ name ++ "'")⟩

/-- One round of the loop, or its end. -/
def discoverNext (plugins : Plugins) : List (Option PluginMetadata) → Turn
  | [] => ⟨plugins, .returned none, []⟩
  -- `discover` reads `metadata.manifest.id` before its `try`, so an entry that is `None`, or one
  -- whose manifest is, ends the whole loop; `validate` never sees it
  | none :: _ => ⟨plugins, .raised (noAttribute "manifest"), []⟩
  | some ⟨none⟩ :: _ => ⟨plugins, .raised (noAttribute "id"), []⟩
  | some ⟨some manifest⟩ :: rest =>
    match DefaultPluginValidator.validate manifest with
    | .error exc => reject plugins manifest rest exc
    | .ok pluginId =>
      { shared := register plugins
          { pluginId := pluginId, metadata := ⟨some manifest⟩, state := .DISCOVERED
            status := .HEALTHY }
        pc := .discovering manifest rest
        actions := [.discovered pluginId manifest.name manifest.version] }

/-! ### load, enable and disable -/

def notFound (pluginId : String) : Exn :=
  ⟨.other "PluginNotFoundError", lit ("Plugin " ++ pluginId ++ " not found in registry.")⟩

def stateError (message : String) (state : PluginState) : Exn :=
  ⟨.other "PluginStateError", [.text message, .value (.enum "PluginState" state.name)]⟩

/-- A plugin in the one state goes to the other, and that is announced under `announced`. -/
def transition (plugins : Plugins) (pluginId : String) (source target : PluginState)
    (message : String) (announced : PluginDescriptor → String) (event : String → PluginEvent) :
    Turn :=
  match lookup plugins pluginId with
  | none => ⟨plugins, .raised (notFound pluginId), []⟩
  | some descriptor =>
    if descriptor.state = source then
      { shared := register plugins { descriptor with state := target }
        pc := .announcing { pluginId := announced descriptor, success := true, state := target }
        actions := [event (announced descriptor)] }
    else ⟨plugins, .raised (stateError message descriptor.state), []⟩

def load (plugins : Plugins) (pluginId : String) : Turn :=
  transition plugins pluginId .DISCOVERED .LOADED "Cannot load plugin in state "
    PluginDescriptor.pluginId .loaded

def enable (plugins : Plugins) (pluginId : String) : Turn :=
  transition plugins pluginId .LOADED .ENABLED "Plugin must be LOADED to enable, currently "
    (fun _ => pluginId) .enabled

def disable (plugins : Plugins) (pluginId : String) : Turn :=
  transition plugins pluginId .ENABLED .LOADED "Plugin must be ENABLED to disable, currently "
    (fun _ => pluginId) .disabled

/-! ### unload -/

/-- From `disable` on, with the descriptor from before it. -/
def finishUnload (plugins : Plugins) (pluginId : String) (descriptor : PluginDescriptor) :
    Turn where
  shared := register plugins { descriptor with state := .DISCOVERED }
  pc := .announcing { pluginId := pluginId, success := true, state := .DISCOVERED }
  actions := [.unloaded pluginId]

def unload (plugins : Plugins) (pluginId : String) : Turn :=
  match lookup plugins pluginId with
  | none => ⟨plugins, .raised (notFound pluginId), []⟩
  | some descriptor =>
    if descriptor.state = .ENABLED then
      let disabled := disable plugins pluginId
      match disabled.pc with
      | .raised _ => disabled
      | _ => { disabled with pc := .disabling descriptor }
    else finishUnload plugins pluginId descriptor

/-! ### The turns of a call -/

def start (plugins : Plugins) : PluginCall → Turn
  | .discover found => discoverNext plugins found
  | .load pluginId => load plugins pluginId
  | .unload pluginId => unload plugins pluginId
  | .enable pluginId => enable plugins pluginId
  | .disable pluginId => disable plugins pluginId

/-- A turn of task `i`, which makes the call `calls i`. -/
def turn (calls : Nat → PluginCall) (i : Nat) (plugins : Plugins) : Pc → Reply → Option Turn
  | .idle, .proceed => some (start plugins (calls i))
  | .discovering _ rest, .proceed => some (discoverNext plugins rest)
  -- the announcement is inside the `try`, so a handler's validation error counts as the plugin's
  | .discovering manifest rest, .raise exc =>
    if exc.cls = .other "PluginValidationError" then some (reject plugins manifest rest exc)
    else some ⟨plugins, .raised exc, []⟩
  | .rejecting rest, .proceed => some (discoverNext plugins rest)
  | .disabling descriptor, .proceed =>
    match calls i with
    | .unload pluginId => some (finishUnload plugins pluginId descriptor)
    | _ => none
  | .announcing result, .proceed => some ⟨plugins, .returned (some result), []⟩
  | .rejecting _, .raise exc => some ⟨plugins, .raised exc, []⟩
  | .disabling _, .raise exc => some ⟨plugins, .raised exc, []⟩
  | .announcing _, .raise exc => some ⟨plugins, .raised exc, []⟩
  | _, _ => none

end PluginManagerImpl

end IraOS
