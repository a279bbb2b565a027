import ViewMarkup.Binding
import ViewMarkup.Component.Registry
import ViewMarkup.Fetch
import ViewMarkup.Object.Assign
import ViewMarkup.Settings
import ViewMarkup.View.Receive

/-!
# The progress of a build

A build changes objects, registers components when it first meets a namespace, and keeps what it
reads. All of that stays when it fails. What it owes to the owner, outlets and bindings, is only
noted down until the whole tree stands.
-/

namespace ViewMarkup

/-- What builds and hosts change. All objects have identity numbers, those that do not exist yet
included: which number an object that is gone leaves to which new one is not up to a build. -/
structure World where
  store : Store := {}
  registries : Registries := {}
  loader : Loader := .tables [] [] []
  bindings : Bindings := []
  number : ObjectId → Identity := id

/-- How documents are built. -/
structure Builder where
  library : Library
  platform : String := "linux"
  files : Files := {}
  settings : Settings := {}
  registry : RegistryId := 0

/-- The decoder that the settings call for. -/
def Builder.decoder (b : Builder) : Decoder := .make b.settings.colors b.settings.constants

/-- A build: how it is done, and for whom. -/
structure Assembly extends Builder where
  owner : Option ObjectId := none

/-- One thing that happens while a document is built. An assignment is made for the instance of an
element, and goes the way of objects that its dotted name leads from there. -/
inductive Step where
  | made (id : ObjectId)
  | assigned (id : ObjectId) (name : String) (way : List ObjectId)
  | told (id : ObjectId) (call : Call)
deriving DecidableEq, Repr

/-- How far a build has come. `outlets` and `links` are what the owner is to get in the end;
`appended` counts views by the identity number of the object that they were given to; `journal`
holds all steps. -/
structure Progress extends World where
  outlets : List (String × ObjectId) := []
  links : List Binding := []
  appended : Table Identity Nat := []
  journal : List Step := []

/-- How many views are counted for an object: all that were given under its identity number. -/
def Progress.count (p : Progress) (id : ObjectId) : Nat :=
  (p.appended.get? (p.number id)).getD 0

/-- Building may fail, and keeps what was done before it failed. -/
abbrev Building := ExceptT Failure (StateM Progress)

namespace Building

/-- Registering as a part of building. -/
def registering {α : Type} (act : Registering α) : Building α := fun p =>
  let (answer, registries) := act.run p.registries
  (answer, { p with registries })

/-- Loading as a part of building. -/
def loading {α : Type} (act : Loading α) : Building α := fun p =>
  let (answer, loader) := act.run p.loader
  (answer, { p with loader })

/-- Fetching as a part of building, where there are always resources. -/
def fetching {α : Type} (act : Fetching α) : Building α := fun p =>
  match act.run (some p.loader) with
  | (answer, some loader) => (answer, { p with loader })
  | (answer, none) => (answer, p)

/-- Places the failures of markup at an element, unless they have a place already. -/
def within {α : Type} (path : String) (act : Building α) : Building α :=
  ExceptT.adapt (Failure.withPath path) act

/-- What can fail without changing anything. -/
def ofExcept {α : Type} : Except Failure α → Building α
  | .ok x => pure x
  | .error failure => throw failure

/-- Notes a step. -/
def note (step : Step) : Building Unit :=
  modify fun p => { p with journal := p.journal ++ [step] }

end Building

namespace Assembly

/-- The objects as they are now. -/
def scene (a : Assembly) : Building Scene := do
  return { classes := a.library.classes, store := (← get).store }

/-- The name of the class of an object. -/
def typeName (a : Assembly) (id : ObjectId) : Building String := do
  return (← a.scene).typeName (.object id)

/-- What is done to objects as a part of building. -/
def acting {α : Type} (a : Assembly) (act : Acting α) : Building α := fun p =>
  let (answer, sc) := act.run { classes := a.library.classes, store := p.store }
  (answer, { p with store := sc.store })

/-- Tells an object something. -/
def tell (a : Assembly) (id : ObjectId) (call : Call) : Building Unit := do
  Building.note (.told id call)
  a.acting (Acting.tell a.platform id call)

end Assembly
end ViewMarkup
