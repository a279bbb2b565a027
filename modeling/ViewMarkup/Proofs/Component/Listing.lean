import ViewMarkup.Proofs.Component.Isolation

/-!
# Listed names

The names of a registry are those of all components in its chain. A glance at a name stops earlier:
the nearest registry that maps the namespace of the name decides, whether it has a component under
it or not. What a registry further away has under that name is hidden, and yet listed.

## Main results

* `Registries.mem_names` — a name is listed if some registry of the chain has a component under it.
* `Registries.pairwise_names` — names are listed in order, and none of them twice.
* `Registries.names_iff` — a name is listed if it has a component or is hidden, and never both.
* `Registries.names_hidden` — the listing of two registries, one of which hides a name of the other.
-/

namespace ViewMarkup

private theorem nodup_eraseDups {α : Type} [BEq α] [LawfulBEq α] : (l : List α) → l.eraseDups.Nodup
  | [] => List.nodup_nil
  | a :: as => by
    rw [List.eraseDups_cons, List.nodup_cons]
    refine ⟨fun ha => ?_, nodup_eraseDups _⟩
    simpa using (List.mem_filter.1 (List.mem_eraseDups.1 ha)).2
termination_by l => l.length
decreasing_by exact Nat.lt_succ_of_le (List.length_filter_le _ as)

namespace Registries

variable {rs : Registries} {id : RegistryId} {name : String}

theorem mem_names : name ∈ rs.names id ↔ ∃ r ∈ rs.chain id, (rs.get r).types.has name = true := by
  have hKey (r : RegistryId) :
      name ∈ (rs.get r).types.keys ↔ (rs.get r).types.has name = true := by
    rw [Table.has, Option.isSome_iff_ne_none, ne_eq, Table.get?_eq_none_iff, Decidable.not_not]
  rw [names, List.mem_mergeSort, List.mem_eraseDups, List.mem_flatMap]
  simp only [hKey]

/-- Names are listed in order, each once. -/
theorem pairwise_names (rs : Registries) (id : RegistryId) :
    (rs.names id).Pairwise (· < ·) := by
  have hTrans (a b c : String) (hab : decide (a ≤ b) = true) (hbc : decide (b ≤ c) = true) :
      decide (a ≤ c) = true :=
    decide_eq_true (String.le_trans (of_decide_eq_true hab) (of_decide_eq_true hbc))
  have hTotal (a b : String) : (decide (a ≤ b) || decide (b ≤ a)) = true := by
    simp [String.le_total a b]
  have hOrdered : (rs.names id).Pairwise fun a b => decide (a ≤ b) = true :=
    List.pairwise_mergeSort hTrans hTotal _
  have hOnce : (rs.names id).Pairwise (· ≠ ·) :=
    (List.mergeSort_perm _ _).nodup_iff.2 (nodup_eraseDups _)
  refine (hOrdered.and hOnce).imp fun {a b} h => ?_
  exact String.not_le.1 fun hba => h.2 (String.le_antisymm (of_decide_eq_true h.1) hba)

/-- A name is hidden from a registry if the nearest one that answers for it maps its namespace and
has no component under it, while a registry further away has one. -/
def Hides (rs : Registries) (id : RegistryId) (name : String) : Prop :=
  ∃ nearer owner farther, rs.chain id = nearer ++ owner :: farther ∧
    (∀ r ∈ nearer, rs.answers name r = false) ∧
    (rs.get owner).types.get? name = none ∧ rs.ownsSpace owner name = true ∧
    ∃ r ∈ farther, (rs.get r).types.has name = true

private theorem Hides.answering? (h : rs.Hides id name) :
    ∃ owner, rs.answering? id name = some owner ∧ (rs.get owner).types.get? name = none := by
  obtain ⟨nearer, owner, farther, hChain, hNearer, hFree, hOwns, -⟩ := h
  refine ⟨owner, List.find?_eq_some_iff_append.2 ⟨?_, nearer, farther, hChain, ?_⟩, hFree⟩
  · simp only [answers, hOwns, Bool.or_true]
  · exact fun r hr => by rw [hNearer r hr]; rfl

/-- What is hidden has no component. -/
theorem Hides.peek (h : rs.Hides id name) : rs.peek id name = none := by
  obtain ⟨owner, hNearest, hFree⟩ := h.answering?
  rw [peek_eq, hNearest, Option.bind_some, hFree]

/-- What is hidden is listed. -/
theorem Hides.mem_names (h : rs.Hides id name) : name ∈ rs.names id := by
  obtain ⟨nearer, owner, farther, hChain, -, -, -, r, hr, hHas⟩ := h
  refine Registries.mem_names.2 ⟨r, ?_, hHas⟩
  rw [hChain]
  exact List.mem_append_right _ (List.mem_cons_of_mem _ hr)

private theorem mem_names_of_peek (h : (rs.peek id name).isSome = true) : name ∈ rs.names id := by
  rw [peek_eq] at h
  cases hNearest : rs.answering? id name with
  | none =>
    rw [hNearest] at h
    cases h
  | some r =>
    rw [hNearest] at h
    exact mem_names.2 ⟨r, List.mem_of_find?_eq_some hNearest, h⟩

/-- A name that is listed without having a component is hidden. -/
theorem hides_of_mem_names (hMem : name ∈ rs.names id) (hPeek : rs.peek id name = none) :
    rs.Hides id name := by
  obtain ⟨r, hr, hHas⟩ := mem_names.1 hMem
  have hAnswers : rs.answers name r = true := by simp only [answers, hHas, Bool.true_or]
  obtain ⟨owner, hNearest⟩ :=
    Option.isSome_iff_exists.1 (List.find?_isSome.2 ⟨r, hr, hAnswers⟩)
  have hFree : (rs.get owner).types.get? name = none := by
    rw [peek_eq, show rs.answering? id name = some owner from hNearest] at hPeek
    exact hPeek
  obtain ⟨hOwner, nearer, farther, hChain, hNearer⟩ := List.find?_eq_some_iff_append.1 hNearest
  have hSilent : ∀ a ∈ nearer, rs.answers name a = false :=
    fun a ha => by simpa using hNearer a ha
  refine ⟨nearer, owner, farther, hChain, hSilent, hFree, ?_, r, ?_, hHas⟩
  · simpa [answers, Table.has, hFree] using hOwner
  · -- It answers, so it is not nearer; it has a component, so it is not the owner.
    rw [hChain] at hr
    rcases List.mem_append.1 hr with hNear | hRest
    · rw [hSilent r hNear] at hAnswers
      cases hAnswers
    · rcases List.mem_cons.1 hRest with rfl | hFar
      · simp [Table.has, hFree] at hHas
      · exact hFar

/-- The names of a registry are listed in order, none of them twice. Among them are all names with
a component, and besides these exactly those that are hidden: a registry further away has a
component under the name, and a nearer one, which maps its namespace, has none. -/
theorem names_iff (rs : Registries) (id : RegistryId) :
    (rs.names id).Pairwise (· < ·) ∧
      ∀ name, (name ∈ rs.names id ↔ (rs.peek id name).isSome = true ∨ rs.Hides id name) ∧
        ¬((rs.peek id name).isSome = true ∧ rs.Hides id name) := by
  refine ⟨rs.pairwise_names id, fun name => ⟨⟨fun hMem => ?_, fun h => ?_⟩, fun ⟨hPeek, h⟩ => ?_⟩⟩
  · cases hPeek : rs.peek id name with
    | some c => exact .inl rfl
    | none => exact .inr (hides_of_mem_names hMem hPeek)
  · exact h.elim mem_names_of_peek Hides.mem_names
  · rw [h.peek] at hPeek
    cases hPeek

end Registries

/-- A registry with a component and one that lies over it and maps the namespace of its name, made
from nothing. -/
def Sample.shaded : Registries :=
  ((library.serve 1 (.registerNamespace "k" "kit")).run
    ((library.serve 0 (.register "k:Badge" 0 none)).run
      ((({} : Registries).addOver none).2.addOver (some 0)).2).2).2

/-- The upper registry lists the name of a component that it hides. -/
theorem Registries.names_hidden :
    Leads {} Sample.shaded ∧ "k:Badge" ∈ Sample.shaded.names 1 ∧
      Sample.shaded.peek 1 "k:Badge" = none := by
  refine ⟨?_, Registries.mem_names.2 ⟨0, by decide, by decide +kernel⟩, by decide +kernel⟩
  refine .call Sample.library 1 _ _ (.call Sample.library 0 _ _ ?_ (by decide)) (by decide +kernel)
  exact .addOver (some 0) _ (.addOver none _ .refl fun _ h => nomatch h)
    fun p h => by cases h; decide

end ViewMarkup
