import ViewMarkup.Build.Document
import ViewMarkup.View.Catalog

/-!
# Opening a builder

A builder is opened on a registry with settings. The namespaces of the settings go into a registry
of its own, over the one given, so that no other builder sees them.
-/

namespace ViewMarkup

/-- Maps several namespaces in order. -/
def registerNamespaces (on : RegistryId) : List (String × Value) → Registering Unit
  | [] => pure ()
  | (space, target) :: rest => do
    Library.registerNamespace on space target
    registerNamespaces on rest

/-- The registry of a builder: the one given, or a new one over it for the namespaces. -/
def registryFor (base : RegistryId) (namespaces : Table String Value) :
    Registering RegistryId := do
  if namespaces.isEmpty then return base
  let (id, rs) := (← get).addOver (some base)
  set rs
  registerNamespaces id namespaces
  return id

/-- Where the resources of a builder come from when it is not given any: the directory that the
settings name, or nowhere. -/
def Settings.loader (s : Settings) : Loader :=
  match s.resourceRoot with
  | some root => .directory root s.stringsFile none []
  | none => .tables [] [] []

/-- Opens a builder. -/
def Builder.open (library : Library) (platform : String) (files : Files) (settings : Settings)
    (base : RegistryId) : Registering Builder := do
  let registry ← registryFor base settings.namespaces
  return { library, platform, files, settings, registry }

end ViewMarkup
