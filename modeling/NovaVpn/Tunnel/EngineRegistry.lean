import Mathlib.Data.List.Perm.Basic
import Mathlib.Logic.Function.Basic
import NovaVpn.Core.Status
import NovaVpn.Core.Text
import NovaVpn.Framework.Machine

/-!
# The registry of engines

The class `EngineRegistry` of `Tunnel/EngineRegistry.cpp`: the built-in factories, the
plugins that were loaded, and the engines that were made. What runs under `m_mutex` is one
step; `loadOnePlugin` checks the signature of a file, loads it and asks it for its engines
before it takes the lock, so that every other step may come in between, also those of other
loads.

Each successful `LoadLibraryEx` gives a handle, and a file's code is in the process while a
handle of it is open. A `LoadedPlugin` is known by its handle. It is owned by the registry
and by the engines made from it, and closes the handle when the last of them is gone.
-/

namespace NovaVpn.Plugins

open NovaVpn.Framework

/-- What there is to a file: its signature, the three exports, and what they answer. -/
structure File where
  signed : Bool := true
  exports : Bool := true
  abi : UInt32 := 1
  ids : List Char := []
  deriving DecidableEq, Repr

/-- `kEngineAbiVersion`. -/
def engineAbiVersion : UInt32 := 1

/-- A call of `loadOnePlugin`. -/
inductive Load where
  /-- Past the check of the signature. -/
  | checked (path : String)
  | mapped (handle : Nat)
  /-- With the ids of the engines, before the lock. -/
  | inspected (handle : Nat) (ids : List Char)
  deriving DecidableEq, Repr

def Load.handle : Load → Option Nat
  | checked _ => none
  | mapped handle => some handle
  | inspected handle _ => some handle

/-- A registration that succeeded. -/
inductive Entry where
  | builtin (key : List Char) (factory : Nat)
  | plugin (handle : Nat) (keys : List (List Char))
  deriving DecidableEq, Repr

/-- Where an engine comes from. -/
inductive Source where
  | builtin (factory : Nat)
  | plugin (handle : Nat)
  deriving DecidableEq, Repr

structure Registry where
  requireSigned : Bool
  /-- The files on disk. -/
  files : String → File
  /-- The file as it was loaded, of each that has an open handle. -/
  image : String → File := files
  handles : Nat → Option String := fun _ => none
  opened : Nat := 0
  builtins : List Char → Option Nat := fun _ => none
  pluginEngines : List Char → Option Nat := fun _ => none
  /-- `m_pluginHold`. -/
  hold : List Nat := []
  loads : List Load := []
  /-- The engines there are. -/
  engines : List Source := []
  alive : Bool := true
  /-- Code of a module was run that is not in the process. -/
  fault : Bool := false
  /-- The registrations, the newest first. -/
  history : List Entry := []

/-- The keys of a list of ids. -/
def keysOf (ids : List Char) : List (List Char) :=
  ((Str.split ',' ids).filter (· ≠ [])).map fun id => Str.toLower (Str.trim id)

inductive RegistryAct where
  | registerBuiltin (engineId : String) (factory : Option Nat)
  /-- `create`, of a factory that makes an engine or not. -/
  | create (engineId : String) (made : Bool)
  /-- The last owner of an engine lets go of it. -/
  | dropEngine (engine : Source)
  | check (path : String)
  | map (path : String) (opens : Bool)
  | inspect (handle : Nat)
  | register (handle : Nat) (ids : List Char)
  /-- Somebody writes a file. -/
  | replace (path : String) (file : File)
  | destroy

namespace Registry

/-- A handle of the file is open. -/
def inProcess (s : Registry) (path : String) : Bool :=
  (List.range s.opened).any fun h => s.handles h = some path

def close (s : Registry) (handle : Nat) : Registry :=
  { s with handles := Function.update s.handles handle none }

/-- Code of the module is run. -/
def runCode (s : Registry) (handle : Nat) : Registry :=
  { s with fault := s.fault || (s.handles handle).isNone }

/-- The plugin has an owner. -/
def held (s : Registry) (handle : Nat) : Bool :=
  handle ∈ s.hold || .plugin handle ∈ s.engines

def registerBuiltin (s : Registry) (engineId : String) (factory : Option Nat) : Status × Registry :=
  match factory with
  | none => (Err.make .invalidArgument "built-in engine needs an id and a factory", s)
  | some factory =>
    if engineId.isEmpty then
      (Err.make .invalidArgument "built-in engine needs an id and a factory", s)
    else
      let key := Str.toLower engineId.toList
      if (s.builtins key).isSome then
        (Err.make .alreadyExists ("engine '" ++ engineId ++ "' is already registered"), s)
      else
        (.ok, { s with
          builtins := Function.update s.builtins key (some factory)
          history := .builtin key factory :: s.history })

def create (s : Registry) (engineId : String) (made : Bool) : Result Source × Registry :=
  let key := Str.toLower engineId.toList
  match s.builtins key with
  | some factory =>
    if made then (.ok (.builtin factory), { s with engines := .builtin factory :: s.engines })
    else
      (.error (Err.make .unavailable ("built-in engine '" ++ engineId ++ "' factory returned null")),
        s)
  | none =>
    match s.pluginEngines key with
    | some handle =>
      if s.held handle then
        let s := s.runCode handle
        if made then (.ok (.plugin handle), { s with engines := .plugin handle :: s.engines })
        else
          (.error (Err.make .unavailable ("plugin factory returned null for '" ++ engineId ++ "'")),
            s)
      else
        (.error (Err.make .unavailable ("plugin for '" ++ engineId ++ "' is no longer loaded")), s)
    | none => (.error (Err.make .notFound ("no engine registered for '" ++ engineId ++ "'")), s)

/-- The deleter of an engine: its code runs, and then the plugin loses an owner. -/
def dropEngine (s : Registry) (engine : Source) : Registry :=
  match engine with
  | .builtin _ => { s with engines := s.engines.erase engine }
  | .plugin handle =>
    let s := { s.runCode handle with engines := s.engines.erase engine }
    if s.held handle then s else s.close handle

/-- `LoadLibraryEx`, of a file that can be loaded. -/
def mapFile (s : Registry) (path : String) : Registry :=
  { s with
    handles := Function.update s.handles s.opened (some path)
    opened := s.opened + 1
    image := if s.inProcess path then s.image else Function.update s.image path (s.files path)
    loads := .mapped s.opened :: s.loads }

/-- What a plugin that was loaded is refused for. -/
def refusal (path : String) (file : File) : Option Status :=
  if !file.exports then
    some (Err.make .protocolError ("plugin is missing a required export: " ++ path))
  else if file.abi ≠ engineAbiVersion then
    some (Err.make .serviceVersion ("plugin ABI " ++ toString file.abi ++ " != host ABI " ++
      toString engineAbiVersion ++ ": " ++ path))
  else if file.ids = [] then some (Err.make .protocolError "plugin advertises no engine ids")
  else none

/-- The engines of a plugin, of those that no built-in has. -/
def advertise (s : Registry) (handle : Nat) (keys : List (List Char)) :
    List Char → Option Nat :=
  keys.foldl (fun engines key =>
    if (s.builtins key).isSome then engines else Function.update engines key (some handle))
    s.pluginEngines

def register (s : Registry) (handle : Nat) (ids : List Char) : Registry :=
  { s with
    hold := s.hold ++ [handle]
    pluginEngines := s.advertise handle (keysOf ids)
    history := .plugin handle (keysOf ids) :: s.history }

/-- The registry lets go of its plugins. -/
def destroy (s : Registry) : Registry :=
  { s with
    alive := false
    hold := []
    handles := fun h =>
      if h ∈ s.hold ∧ .plugin h ∉ s.engines then none else s.handles h }

/-- A load that is not in progress has no step, nor has an engine that is not there; a
registry in which a call is in progress is not destroyed. -/
def step (s : Registry) : RegistryAct → Option Registry
  | .registerBuiltin engineId factory =>
    if s.alive then some (s.registerBuiltin engineId factory).2 else none
  | .create engineId made => if s.alive then some (s.create engineId made).2 else none
  | .dropEngine engine => if engine ∈ s.engines then some (s.dropEngine engine) else none
  | .check path =>
    if s.alive then
      if s.requireSigned && !(s.files path).signed then some s
      else some { s with loads := .checked path :: s.loads }
    else none
  | .map path opens =>
    if .checked path ∈ s.loads then
      let s := { s with loads := s.loads.erase (.checked path) }
      some (if opens then s.mapFile path else s)
    else none
  | .inspect handle =>
    if .mapped handle ∈ s.loads then
      match s.handles handle with
      | none => some { s with fault := true }
      | some path =>
        let file := s.image path
        let s := { s with loads := s.loads.erase (.mapped handle) }
        match refusal path file with
        | some _ => some (s.close handle)
        | none => some { s with loads := .inspected handle file.ids :: s.loads }
    else none
  | .register handle ids =>
    if .inspected handle ids ∈ s.loads then
      some ({ s with loads := s.loads.erase (.inspected handle ids) }.register handle ids)
    else none
  | .replace path file => some { s with files := Function.update s.files path file }
  | .destroy => if s.alive && s.loads.isEmpty then some s.destroy else none

/-- No file is written between the check of its signature and its loading. -/
def unswapped (s : Registry) : RegistryAct → Bool
  | .replace path _ => .checked path ∉ s.loads
  | _ => true

def Unswapped (s : Registry) (act : RegistryAct) : Prop := s.unswapped act = true

instance (s : Registry) (act : RegistryAct) : Decidable (s.Unswapped act) :=
  inferInstanceAs (Decidable (s.unswapped act = true))

end Registry

/-- A registry over these files. -/
def registry (requireSigned : Bool) (files : String → File) : Registry := { requireSigned, files }

end NovaVpn.Plugins
