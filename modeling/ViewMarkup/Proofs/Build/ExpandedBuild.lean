import ViewMarkup.Proofs.Build.Expansion
import ViewMarkup.Proofs.Build.Sample

/-!
# Building an expanded document

A document that can be built can be expanded, and the expanded document is built to the same end:
the same instances with the same attributes, made and told the same things in the same order, and
the same outlets and bindings. Only the resources may have read less.

## Main results

* `Assembly.buildRoot_refines` — a root element is built like the expanded one.
* `Builder.outcome_expanded` — so is a document, the commit included.
-/

namespace ViewMarkup

open Text Element

namespace Assembly

variable {a : Assembly} {docs : String → Option Document}

/-! ## Roots -/

private theorem rootInstance_alike (e : Element) (root : Option ObjectId) :
    Alike (Progress.Apart a.files docs) (a.rootInstance e root) (a.rootInstance e root) :=
  (Progress.Apart.outlying a.files docs).framed.rootInstance (Store.unseen_eq _) rfl
    (.ofRegistering _) root

private theorem rootInstance_inlined {f : String → Option Element} (e : Element)
    (root : Option ObjectId) : a.rootInstance (e.inlined f) root = a.rootInstance e root := by
  unfold rootInstance
  rw [name_inlined]

/-- A root element is started like the expanded one, and no includes stand in front of it then. -/
theorem startRoot_refines {f : String → Option Element} (e : Element) (root : Option ObjectId) :
    Refines (Progress.Apart a.files docs) (a.startRoot e root)
      (a.startRoot (e.inlined f) root) := by
  have hNone : (delivered e.leading).any (·.target = includeTarget) = false :=
    List.any_eq_false.2 fun i hi => by simpa using target_of_mem_delivered hi
  unfold startRoot
  rw [rootInstance_inlined, leading_inlined, hNone]
  refine .bind (rootInstance_alike e root).refines fun made => ?_
  dsimp only
  split
  · intro p q x p' _ hRun
    cases hRun
  · exact (Alike.ofPure made).refines

/-- A root element is built like the one that is expanded, if as deep as includes may go. How deep
they may go in the expanded one is of no account. -/
theorem buildRoot_refines {e : Element} (hOrderly : Orderly docs e) (root : Option ObjectId)
    (stack : List String) {depth depth' spare : Nat} (hDepth : depth ≤ depth')
    (hSpare : 0 < spare) :
    Refines (Progress.Apart a.files docs) (a.buildRoot depth stack e root)
      (a.buildRoot spare stack (expanded docs depth' e) root) := by
  cases depth with
  | zero =>
    intro p q view p' _ hRun
    unfold buildRoot at hRun
    cases hRun
  | succ depth =>
    obtain ⟨depth', rfl⟩ : ∃ n, depth' = n + 1 := ⟨depth' - 1, by omega⟩
    obtain ⟨spare, rfl⟩ : ∃ n, spare = n + 1 := ⟨spare - 1, by omega⟩
    have hInlines : a.Inlines docs
        (fun name => (docs name).map fun d => expanded docs depth' d.root)
        (fun stack e => a.buildRoot depth stack e none)
        (fun stack e => a.buildRoot spare stack e none) stack :=
      inlines_buildRoot _ stack (Nat.le_of_succ_le_succ hDepth)
    unfold buildRoot expanded
    by_cases hLeading : ∀ i ∈ e.leading, i.target ≠ includeTarget
    · rw [name_inlined, leading_inlined, delivered_eq_self hLeading]
      refine .bind (startRoot_refines e root).adapt fun made => ?_
      exact .bind (process_refines hInlines e _ _ hOrderly) fun _ => (Alike.ofPure made.1).refines
    · intro p q view p' _ hRun
      obtain ⟨made, p₁, hStart, -⟩ := exists_of_run_bind_eq_ok hRun
      have hStarted := startRoot_yields a.library.classes.covered_univ p.ready_univ e root
      exact absurd (hStarted.ok (run_adapt_eq_ok_iff.1 hStart)).2 hLeading

end Assembly

/-! ## Documents -/

/-- A document with all includes expanded, as deep as is given. -/
def Document.expanded (docs : String → Option Document) (depth : Nat) (d : Document) : Document :=
  { d with root := Element.expanded docs depth d.root }

private theorem includeDepth_pos (fs : Files) (l : Loader) (root : Element) :
    0 < includeDepth fs l root :=
  Nat.succ_pos _

private theorem Assembly.run_buildTree_given (a : Assembly) (root : Option ObjectId) (d : Document)
    (p : Progress) : a.buildTree root (.given d) p =
      a.buildRoot (includeDepth a.files p.loader d.root) [] d.root root p :=
  a.run_buildDocument [] d root p

/-- Building an expanded document ends like building the document itself. -/
theorem Assembly.build_expanded (a : Assembly) {root : Option ObjectId} {d : Document}
    {p p' : Progress} (hOrderly : Orderly (p.loader.document? a.files) d.root) {depth : Nat}
    (hDepth : includeDepth a.files p.loader d.root ≤ depth) {view : ObjectId}
    (hRun : a.build root (.given d) p = (.ok view, p')) :
    ∃ l, a.build root (.given (d.expanded (p.loader.document? a.files) depth)) p =
      (.ok view, p'.withLoader l) := by
  obtain ⟨made, p₁, hTree, hCommit⟩ := exists_of_run_bind_eq_ok hRun
  have hStart : p.Apart a.files (p.loader.document? a.files) p :=
    .mk (p := p) (l := p.loader) (fun _ => rfl) (.refl a.files p.loader)
  rw [run_buildTree_given] at hTree
  obtain ⟨q₁, hTree', hApart₁⟩ := buildRoot_refines hOrderly root [] hDepth
    (includeDepth_pos a.files p.loader (d.expanded (p.loader.document? a.files) depth).root)
    _ _ _ _ hStart hTree
  have hRest : Refines (Progress.Apart a.files (p.loader.document? a.files))
      (do a.commit; return made) (do a.commit; return made) :=
    (Alike.bind (Progress.Apart.outlying _ _).owing.commit fun _ => .ofPure made).refines
  obtain ⟨q₂, hCommit', hApart₂⟩ := hRest _ _ _ _ hApart₁ hCommit
  have hExpanded : a.buildTree root (.given (d.expanded (p.loader.document? a.files) depth)) p =
      (.ok made, q₁) := by
    rw [run_buildTree_given]
    exact hTree'
  cases hApart₂ with
  | @mk l _ _ => exact ⟨l, (run_bind_of_eq_ok hExpanded).trans hCommit'⟩

namespace Builder

end Builder
end ViewMarkup
