import ViewMarkup.Proofs.Build.Commit
import ViewMarkup.Proofs.Build.Nesting
import ViewMarkup.Proofs.Build.NewInstances
import ViewMarkup.Proofs.Build.Sample

/-!
# Views are finished when they are handed over

A view is handed to its parent only after everything that its element says about it and about what
is inside of it has been carried out. From then on it is told nothing any more, and neither is
anything below it. So a parent never sees a view that is only half configured. This holds of builds
that fail as well, up to where they break off.

A property may still be assigned for another instance by a dotted name that leads to such a view.
Then the name goes through an object that was there before the build: what is made in a build refers
to nothing that was made before it, and instances only share what was there.

## Main results

* `Builder.outcome_journal` — the journal of a build is nested work.
* `Builder.outcome_handedOver` — after a view was appended, nothing is done to it or to anything
  below it, but for properties whose names lead there through an old object.
* `Builder.outcome_late` — a property of a view that was appended is assigned.
-/

namespace ViewMarkup
namespace Builder

variable (b : Builder) (owner root : Option ObjectId) (origin : Origin) (w : World)

/-- The journal of a build, successful or not, is that of building its tree: committing is not
noted. -/
theorem outcome_journal :
    ∃ hi, Rooted root (b.outcome owner root origin w).2.journal ∧
      Ascending w.store.size hi (b.outcome owner root origin w).2.journal := by
  have hReady : ({ w with } : Progress).Ready fun _ => True :=
    ⟨w.store.closed_univ, fun _ _ => trivial⟩
  have hTree : Yields (({ b with owner } : Assembly).buildTree root origin) { w with }
      (fun _ => Progress.Does b.files (fun _ => True) (Rooted root) { w with })
      (Progress.Does b.files (fun _ => True) (Rooted root) { w with }) :=
    Assembly.buildTree_yields b.library.classes.covered_univ hReady (fun _ _ => trivial) origin
  have hJournal {p : Progress}
      (h : Progress.Does b.files (fun _ => True) (Rooted root) { w with } p) :
      ∃ hi, Rooted root p.journal ∧ Ascending w.store.size hi p.journal := by
    obtain ⟨log, hExt, hRooted⟩ := h
    have hLog : p.journal = log := hExt.journal
    rw [hLog]
    exact ⟨_, hRooted, hExt.ascending⟩
  rw [outcome_journal_eq]
  exact Yields.state (R := fun p : Progress => ∃ hi, Rooted root p.journal ∧
    Ascending w.store.size hi p.journal) (hTree.mono (fun _ _ => hJournal) fun _ => hJournal)

/-- Once a view has been appended to its parent, all that its element and those below it call for
has been done: it was made before, so was everything below, and no later step is for any of them.
Nor is anything done to them, unless a property is assigned whose name leads to one of them through
an object that was there before the build. -/
theorem outcome_handedOver (hcs : b.library.classes.Covered (· < w.store.size))
    (hShares : w.store.Shares (· < w.store.size))
    (hRoot : ∀ r : Nat, root = some r → r < w.store.size)
    {parent view : ObjectId} {pre post : List Step}
    (h : (b.outcome owner root origin w).2.journal =
      pre ++ .told parent (.append view) :: post) :
    ∃ before inner, pre = before ++ .made view :: inner ∧
      ∀ u, u ∈ view :: madeIn inner ∨
          Below (b.outcome owner root origin w).2.journal view u →
        u ∈ view :: madeIn inner ∧ ∀ s ∈ post, s.subject ≠ some u ∧
          (s.target = some u → ∃ y ∈ s.way, y < w.store.size) := by
  obtain ⟨hi, hRooted, hAscending⟩ := b.outcome_journal owner root origin w
  obtain ⟨before, inner, hPre, hOver⟩ := hRooted.handedOver hAscending hRoot h
  obtain ⟨hSecluded, hNewest⟩ := b.outcome_settled owner root origin w hcs hShares hRoot
  refine ⟨before, inner, hPre, fun u hu => ?_⟩
  have hMade : u ∈ view :: madeIn inner := by
    rcases hu with hu | hu
    · exact hu
    · refine hOver.below ?_
      rw [h, hPre] at hu
      simpa using hu
  refine ⟨hMade, fun s hs => ?_⟩
  have hOther : s.subject ≠ some u := hOver.after_subject s hs u hMade
  refine ⟨hOther, fun hTarget => ?_⟩
  cases s with
  | made _ => cases hTarget
  | told id call => exact absurd hTarget hOther
  | assigned id name way =>
    have hMem : .assigned id name way ∈ (b.outcome owner root origin w).2.journal := by
      rw [h]
      simp [hs]
    obtain ⟨hSelf, hOld | hNew⟩ := hSecluded _ hMem
    · exact hOld
    · -- No newer instance is made before, and the one that the step is for is not `u`.
      obtain ⟨back, rest, rfl⟩ := List.append_of_mem hs
      have hFront : u ∈ madeIn (pre ++ .told parent (.append view) :: back) := by
        rw [hPre]
        simp only [madeIn_append, madeIn_made, madeIn_told, List.mem_append]
        exact .inl (.inr hMade)
      rcases hNewest (pre ++ .told parent (.append view) :: back) id name way rest
        (by rw [h]; simp) with hOld | hLast
      · exact ⟨id, hSelf, hOld⟩
      · have hLe : id ≤ u := hNew u (List.mem_of_getLast? hTarget)
        have hGe : u ≤ id := hLast u hFront
        exact absurd (congrArg some (Nat.le_antisymm hLe hGe)) hOther

/-- The second view that is appended to the root of the sample page. -/
theorem outcome_handedOver_page :
    ∃ pre post, (Sample.builder.outcome (some 0) none (.given Sample.page) Sample.world).2.journal =
        pre ++ .told 2 (.append 4) :: post ∧
      ∃ before inner, pre = before ++ .made 4 :: inner ∧
        ∀ u, u ∈ 4 :: madeIn inner ∨
            Below (Sample.builder.outcome (some 0) none (.given Sample.page)
              Sample.world).2.journal 4 u →
          u ∈ 4 :: madeIn inner ∧ ∀ s ∈ post, s.subject ≠ some u ∧
            (s.target = some u → ∃ y ∈ s.way, y < Sample.world.store.size) := by
  have h : (Sample.builder.outcome (some 0) none (.given Sample.page) Sample.world).2.journal =
      [.made 2, .told 2 (.instruction "note" "0"), .made 3, .told 3 (.text "aside"),
        .told 2 (.append 3), .made 4, .told 4 (.instruction "note" "1"), .told 4 (.text "first")] ++
      .told 2 (.append 4) :: [.told 2 (.instruction "note" "2"),
        .told 2 (.raw "rule" [("width", "2")]), .made 5, .told 5 (.text "aside"),
        .told 2 (.append 5), .told 2 (.instruction "note" "3")] := by
    decide +kernel
  exact ⟨_, _, h, Sample.builder.outcome_handedOver (some 0) none (.given Sample.page) Sample.world
    (by unfold Classes.Covered; decide) (fun _ _ _ _ hBorne => nomatch hBorne) (by simp) h⟩

end Builder

namespace Sample

/-- Frames are marked, and lead to what the mark has as its size. -/
def frameClass : ComponentClass where
  name := "Frame"
  lineage := [0]
  properties := some [
    { name := "title", kind := .string, target := "title" },
    { name := "content", kind := .object, target := "content_view", settable := false },
    { name := "mark", kind := .enumeration, target := "image"
      enumeration := some { name := "Mark", entries := [("ON", 1)] } },
    { name := "link", kind := .object, target := "image_size", settable := false }]
  declared := some (.capabilities { append := .multi })
  computed := [("image_size", .imageSize)]
  hooks := [(.append, .setContent)]
  starts := [("title", .value (.text "")), ("content_view", .value .none), ("subviews", .list []),
    ("image", .value .none)]

/-- A builder that knows frames. -/
def frames : Builder := { library := { classes := { all := #[frameClass] } } }

/-- A world with a frame, which is the size of a mark. -/
def frameWorld : World where
  store.objects := #[{ type := .component 0
                       fields := [("title", .text ""), ("content_view", .none),
                         ("subviews", .list []), ("image", .none)] }]
  store.borne := [(.member ⟨"Mark", "ON", 1⟩, [("size", .object 0)])]
  registries := { all := #[{ types := [("Frame", ⟨"Frame", 0, none, { append := .multi }⟩)] }] }

/-- A document that puts a frame into the supplied one. The next one leads to it by its mark. -/
def late : Document where
  root := .mk "Frame" []
    [.mk "Frame" [] [] [] [] "",
      .mk "Frame" [("mark", "on"), ("link.content.title", "late")] [] [] [] ""] [] [] ""

end Sample

/-- A property may be assigned of a view that has been appended: the name leads to it through the
mark that two frames share, and through the root. -/
theorem Builder.outcome_late :
    (Sample.frames.outcome none (some 0) (.given Sample.late) Sample.frameWorld).2.journal =
        [.made 1] ++ .told 0 (.append 1) :: [.made 2, .assigned 2 "mark" [2],
          .assigned 2 "link.content.title" [2, 0, 1], .told 0 (.append 2)] ∧
      (Step.assigned 2 "link.content.title" [2, 0, 1]).target = some 1 ∧
      ((Sample.frames.outcome none (some 0) (.given Sample.late) Sample.frameWorld).2.store.field? 1
        "title").any (· matches .text "late") = true := by
  refine ⟨?_, rfl, ?_⟩
  · decide +kernel
  · decide +kernel

end ViewMarkup
