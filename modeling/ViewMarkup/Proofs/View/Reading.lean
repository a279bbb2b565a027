import ViewMarkup.Proofs.Component.Extension
import ViewMarkup.Proofs.Object.Declared
import ViewMarkup.Proofs.View.Containers
import ViewMarkup.Settings

/-!
# What the texts for views may fail with

Whatever text is given for a property of a view, it becomes a value, or it is refused as markup:
under whatever name, of whatever kind, with whatever constants and colors. There is one exception.
A whole number is made a double before it is known to be a constant that can be used, and the
settings admit constants that are too large for a double (`Decoder.Exceeds`).

Where a name leads to a component that is none of the views, what happens is up to its class: its
properties may be kept in attributes that cannot be set, or cannot be read.

## Main results

* `Decoder.readProperty_fails`, `Decoder.readProperty_of_exceeds` — how reading a text may fail.
* `View.properties_kept` — the properties of views are kept in attributes of their own.
* `Scene.assign_refused` — how assigning a property may fail.
-/

namespace ViewMarkup

open Text Decimal

/-! ## Large numbers -/

/-- A number has more digits than the powers of ten that it reaches. -/
theorem lt_digitCount {n k : Nat} (h : tenPow k ≤ n) : k < digitCount n := by
  unfold digitCount
  rw [Nat.repr_eq_ofList_toDigits, String.length_ofList]
  cases k with
  | zero => exact Nat.length_toDigits_pos
  | succ k =>
    by_contra hFew
    have hSmall : n < tenPow (k + 1) :=
      (Nat.length_toDigits_le_iff (by decide) (Nat.succ_pos k)).1 (Nat.le_of_not_lt hFew)
    exact absurd h (Nat.not_le.2 hSmall)

/-- A whole number with more than 400 digits is beyond every double. -/
theorem ofInt?_eq_none {n : Int} {k : Nat} (hMany : 400 ≤ k) (h : tenPow k ≤ n.natAbs) :
    ofInt? n = none := by
  have hDigits : k < digitCount n.natAbs := lt_digitCount h
  have hPositive : 0 < n.natAbs := Nat.lt_of_lt_of_le (Nat.pow_pos (by decide)) h
  have hNonzero : n.natAbs ≠ 0 := Nat.pos_iff_ne_zero.1 hPositive
  have hSize : (digitCount n.natAbs : Int) + 0 > 400 := by omega
  have hInfinite : (1.0 / 0.0 : Float).isInf = true := by decide +kernel
  unfold ofInt? ofDecimal
  simp only [if_neg hNonzero, if_pos hSize, hInfinite, if_true]

/-! ## Reading -/

/-- A failure of markup. -/
def Failure.IsMarkup : Failure → Prop
  | .markup _ _ => True
  | _ => False

private theorem Failure.IsProperty.isMarkup {e : Failure} (h : e.IsProperty) : e.IsMarkup := by
  cases e with
  | markup fault path => trivial
  | _ => exact absurd h id

/-- Only whole numbers can be too large. -/
theorem Number.toFloat_eq_error_iff {n : Number} {e : Failure} :
    n.toFloat = .error e ↔ e = .numberTooLarge ∧ ∃ k, n = .int k ∧ ofInt? k = none := by
  cases n with
  | float x => simp [toFloat]
  | int k =>
    cases hFloat : ofInt? k with
    | none => simp [toFloat, hFloat, eq_comm]
    | some x => simp [toFloat, hFloat]

/-- Whether a constant is an integer is asked of a double. -/
theorem Number.toInteger?_eq_error_iff {n : Number} {e : Failure} :
    n.toInteger? = .error e ↔ e = .numberTooLarge ∧ ∃ k, n = .int k ∧ ofInt? k = none := by
  cases n with
  | float x => simp [toInteger?]
  | int k =>
    rw [← toFloat_eq_error_iff, toInteger?]
    cases (Number.int k).toFloat <;> simp [Except.map]

namespace Decoder

variable {d : Decoder} {raw : String} {kind : Kind} {enumeration : Option Enumeration}
  {p : Property} {e : Failure}

/-- A text that is no literal of a kind of numbers names a constant that is too large for it. -/
def Exceeds (d : Decoder) (kind : Kind) (raw : String) : Prop :=
  (kind = .int ∧ readInteger? (trim raw) = none ∨
      kind = .float ∧ Literal.read? (trim raw) = none) ∧
    ∃ n, d.constants.get? (trim raw) = some (.int n) ∧ ofInt? n = none

/-- A failure that is one of markup once it names a property. -/
def Named (e : Failure) : Prop := ∀ property, (inProperty property e).IsMarkup

theorem named_invalid (why : Invalid) : Named (.invalid why) := fun _ => trivial

theorem named_decode (why : DecodeFault) : Named (.of (.decode why)) := fun _ => trivial

private theorem readInt_fails (h : d.readInt raw = .error e) :
    Named e ∨ e = .numberTooLarge ∧ d.Exceeds .int raw := by
  unfold readInt at h
  dsimp only at h
  split at h
  · next n _ =>
    cases n with
    | ok n => cases h
    | error why =>
      cases h
      exact .inl (named_invalid why)
  · next hLiteral =>
    cases hConstant : d.constants.get? (trim raw) with
    | none =>
      rw [hConstant] at h
      cases h
      exact .inl (named_decode _)
    | some n =>
      rw [hConstant] at h
      cases hInteger : n.toInteger? with
      | error failure =>
        obtain ⟨rfl, k, rfl, hLarge⟩ := Number.toInteger?_eq_error_iff.1 hInteger
        simp only [Option.elim, hInteger] at h
        cases h
        exact .inr ⟨rfl, .inl ⟨rfl, hLiteral⟩, k, hConstant, hLarge⟩
      | ok k? =>
        simp only [Option.elim, hInteger] at h
        cases k? with
        | some k => cases h
        | none =>
          cases h
          exact .inl (named_decode _)

private theorem readFloat_fails (h : d.readFloat raw = .error e) :
    Named e ∨ e = .numberTooLarge ∧ d.Exceeds .float raw := by
  unfold readFloat at h
  dsimp only at h
  split at h
  · cases h
  · next hLiteral =>
    split at h
    · next n hConstant =>
      obtain ⟨rfl, k, rfl, hLarge⟩ := Number.toFloat_eq_error_iff.1 h
      exact .inr ⟨rfl, .inr ⟨rfl, hLiteral⟩, k, hConstant, hLarge⟩
    · cases h
      exact .inl (named_decode _)

theorem named_of_mapError_invalid {α : Type} {x : Except Invalid α}
    (h : x.mapError .invalid = .error e) : Named e := by
  cases x with
  | ok a => cases h
  | error why =>
    cases h
    exact named_invalid why

theorem named_of_mapError_decode {α : Type} {x : Except DecodeFault α}
    (h : x.mapError (.of ∘ .decode) = .error e) : Named e := by
  cases x with
  | ok a => cases h
  | error why =>
    cases h
    exact named_decode why

theorem readDescriptor_fails {token : String} (h : FontDescriptor.read token = .error e) :
    Named e := by
  unfold FontDescriptor.read at h
  split at h
  · cases h
    exact named_decode _
  · exact named_of_mapError_invalid h

private theorem withSize_fails {descriptor : FontDescriptor} {size : String}
    (h : descriptor.withSize size = .error e) : Named e := by
  rcases eq_error_of_bind_eq_error h with hSize | ⟨x, -, hMake⟩
  · exact named_of_mapError_decode hSize
  · exact named_of_mapError_invalid hMake

private theorem readFont_fails {token : String} (h : Font.read token = .error e) : Named e := by
  unfold Font.read at h
  split at h
  · exact withSize_fails h
  · split at h
    · rcases eq_error_of_bind_eq_error h with hMake | ⟨descriptor, -, hMake⟩
      · exact named_of_mapError_invalid hMake
      · exact named_of_mapError_invalid hMake
    · split at h
      · cases h
        exact named_decode _
      · dsimp only at h
        split at h
        · cases h
          exact named_decode _
        · rcases eq_error_of_bind_eq_error h with hRead | ⟨descriptor, -, hSize⟩
          · exact readDescriptor_fails hRead
          · exact withSize_fails hSize

/-- A text is refused for a reason that can be told of a property, or names a constant that is too
large. -/
theorem read_fails (h : d.read raw kind enumeration = .error e) :
    Named e ∨ e = .numberTooLarge ∧ d.Exceeds kind raw := by
  unfold read at h
  cases kind with
  | string => cases h
  | bool => exact .inl (named_of_mapError_decode h)
  | int => exact readInt_fails (eq_error_of_map_eq_error h)
  | float => exact readFloat_fails (eq_error_of_map_eq_error h)
  | color => exact .inl (named_of_mapError_decode h)
  | font => exact .inl (readFont_fails (eq_error_of_map_eq_error h))
  | fontDescriptor => exact .inl (readDescriptor_fails (eq_error_of_map_eq_error h))
  | enumeration =>
    cases enumeration with
    | none =>
      cases h
      exact .inl (named_decode _)
    | some given => exact .inl (named_of_mapError_decode h)
  | image | object | other name =>
    cases h
    exact .inl (named_decode _)

/-- A text for a property is refused as markup, or names a constant that is too large. -/
theorem readProperty_fails (h : d.readProperty p raw = .error e) :
    e.IsMarkup ∨ e = .numberTooLarge ∧ d.Exceeds p.kind raw := by
  unfold readProperty at h
  split at h
  · cases h
  · cases hRead : d.read raw p.kind p.enumeration with
    | ok r =>
      rw [hRead] at h
      cases h
    | error failure =>
      rw [hRead] at h
      cases h
      rcases read_fails hRead with hNamed | ⟨rfl, hExceeds⟩
      · exact .inl (hNamed p.name)
      · exact .inr ⟨rfl, hExceeds⟩

/-- A constant that is too large is not refused as markup. -/
theorem readProperty_of_exceeds (h : d.Exceeds p.kind raw) :
    d.readProperty p raw = .error .numberTooLarge := by
  obtain ⟨hKind, n, hConstant, hLarge⟩ := h
  rcases hKind with ⟨hInt, hLiteral⟩ | ⟨hFloat, hLiteral⟩
  · have hInteger : (Number.int n).toInteger? = .error .numberTooLarge :=
      Number.toInteger?_eq_error_iff.2 ⟨rfl, n, rfl, hLarge⟩
    have hRead : d.readInt raw = .error .numberTooLarge := by
      unfold readInt
      simp only [hLiteral, hConstant, Option.elim, hInteger]
      rfl
    unfold readProperty read
    simp only [hInt, hRead]
    rfl
  · have hDouble : (Number.int n).toFloat = .error .numberTooLarge :=
      Number.toFloat_eq_error_iff.2 ⟨rfl, n, rfl, hLarge⟩
    have hRead : d.readFloat raw = .error .numberTooLarge := by
      unfold readFloat
      simp only [hLiteral, hConstant, hDouble]
    unfold readProperty read
    simp only [hFloat, hRead]
    rfl

/-! ## Fetching -/

section Tables

variable {fs : Files} {images : Table String Image} {strings : Table String String}
  {documents : Table String Stored} {l? : Option Loader}

private theorem run_loadText_tables (key : String) :
    loadText fs key (Loader.tables images strings documents) =
      ((strings.get? key).elim (.error (notFound (.text key))) .ok,
        .tables images strings documents) := by
  have hStrings : loadStrings fs (Loader.tables images strings documents) =
      (.ok strings, .tables images strings documents) := rfl
  unfold loadText
  rw [run_bind_of_eq_ok hStrings]
  cases strings.get? key <;> rfl

/-- Tables in memory fail as resources that are missing something, and in no other way. -/
theorem fetch_fails {r : Reading} {property : String}
    (h : r.fetch fs property (some (.tables images strings documents)) = (.error e, l?)) :
    ∃ f, e = notFound f := by
  cases r with
  | value v => cases h
  | localized raw key =>
    have hRun : (Reading.localized raw key).fetch fs property
        (some (.tables images strings documents)) =
          (((strings.get? key).elim (.error (notFound (.text key))) (.ok ∘ .text) :
              Except Failure Value),
            some (.tables images strings documents)) := by
      unfold Reading.fetch withResources
      dsimp only
      rw [map_eq_pure_bind, run_eq, run_bind, run_loadText_tables]
      cases strings.get? key <;> rfl
    rw [hRun] at h
    exact ⟨_, eq_of_elim_eq_error (congrArg Prod.fst h)⟩
  | picture name =>
    have hRun : (Reading.picture name).fetch fs property
        (some (.tables images strings documents)) =
          (((images.get? name).elim (.error (notFound (.image name)))
              fun image => .ok (.image image.width image.height) : Except Failure Value),
            some (.tables images strings documents)) := by
      unfold Reading.fetch withResources
      dsimp only
      rw [run_eq, run_bind, run_get]
      dsimp only
      rw [run_bind, run_liftM]
      cases hImage : images.get? name <;> simp only [Loader.image, hImage] <;> rfl
    rw [hRun] at h
    exact ⟨_, eq_of_elim_eq_error (congrArg Prod.fst h)⟩

/-- What a text for a property stands for is refused as markup, or is a constant that is too
large. -/
theorem fetchProperty_fails
    (h : d.fetchProperty fs p raw (some (.tables images strings documents)) = (.error e, l?)) :
    e.IsMarkup ∨ e = .numberTooLarge ∧ d.Exceeds p.kind raw := by
  unfold fetchProperty at h
  rw [run_bind, run_liftM] at h
  cases hRead : d.readProperty p raw with
  | error failure =>
    rw [hRead] at h
    cases h
    exact readProperty_fails hRead
  | ok r =>
    rw [hRead] at h
    refine .inl ?_
    cases r with
    | value v => cases h
    | picture name =>
      obtain ⟨f, rfl⟩ := fetch_fails h
      trivial
    | localized raw key =>
      obtain ⟨failure, hFetch, rfl⟩ := exists_of_adapt_eq_error h
      obtain ⟨f, rfl⟩ := fetch_fails hFetch
      trivial

end Tables

end Decoder

/-! ## Views -/

namespace Classes

variable {cs : Classes} {id : ClassId} {attr : String}

/-- A property of a class is declared by a class of its lineage. -/
theorem exists_of_mem_properties {entry : String × Property} (h : entry ∈ cs.properties id) :
    ∃ c ∈ cs.lineage id, entry.2 ∈ c.properties.getD [] := by
  rcases Table.mem_or_mem_of_mem_putAll h with hNone | hDeclared
  · cases hNone
  · obtain ⟨p, hp, rfl⟩ := List.mem_map.1 hDeclared
    obtain ⟨declared, hMem, hp⟩ := List.mem_flatten.1 hp
    obtain ⟨c, hc, rfl⟩ := List.mem_map.1 (List.mem_reverse.1 hMem)
    exact ⟨c, hc, hp⟩

/-- An attribute that follows from others does so by a class of the lineage. -/
theorem exists_of_computed? {how : Computed} (h : cs.computed? id attr = some how) :
    ∃ c ∈ cs.lineage id, ∃ entry ∈ c.computed, entry.1 = attr := by
  obtain ⟨c, hc, hFound⟩ := List.exists_of_findSome?_eq_some h
  obtain ⟨entry, hFind, -⟩ := Option.map_eq_some_iff.1 hFound
  have hName : entry.1 = attr := by
    simpa using List.find?_some hFind
  exact ⟨c, hc, entry, List.mem_of_find?_eq_some hFind, hName⟩

end Classes

namespace View

/-- The attributes of views that follow from others. -/
def followed : List String := ["state", "selected_value", "image_size", "display_text"]

private theorem computed_followed : ∀ c ∈ Catalog.classes.all, ∀ entry ∈ c.computed,
    entry.1 ∈ followed := by
  decide +kernel

/-- No property of a view is kept in an attribute that follows from others. -/
theorem properties_kept : ∀ c ∈ Catalog.classes.all, ∀ p ∈ c.properties.getD [],
    p.target ∉ Scene.classAttribute :: followed := by
  decide +kernel

end View

namespace Scene

variable {sc : Scene} {v owner new : Value} {name : String} {names : List String} {p : Property}
  {e : Failure}

/-- A component of a class that is none of the views. -/
def Foreign (sc : Scene) (v : Value) : Prop :=
  ∃ id cls, v = .object id ∧ sc.store.class? id = some cls ∧ View.Catalog.classes.get? cls = none

/-- A property of a view is an attribute of its own, whatever classes there are besides. -/
theorem kept_of_mem_properties {cs : Classes} {cls : ClassId} {entry : String × Property}
    (hcs : cs.Extends View.Catalog.classes)
    (hThere : (View.Catalog.classes.get? cls).isSome = true)
    (hEntry : entry ∈ View.Catalog.classes.properties cls) :
    cs.computed? cls entry.2.target = none ∧ entry.2.target ≠ classAttribute := by
  obtain ⟨c, hc, hp⟩ := Classes.exists_of_mem_properties hEntry
  have hKept : entry.2.target ∉ classAttribute :: View.followed :=
    View.properties_kept c (Classes.mem_all_of_mem_lineage hc) entry.2 hp
  have hComputed : cs.computed? cls entry.2.target =
      View.Catalog.classes.computed? cls entry.2.target :=
    hcs.nearest? View.complete_classes hThere _
  refine ⟨?_, List.ne_of_not_mem_cons hKept⟩
  cases hHow : View.Catalog.classes.computed? cls entry.2.target with
  | none => exact hComputed.trans hHow
  | some how =>
    obtain ⟨c', hc', followed, hFollows, hName⟩ := Classes.exists_of_computed? hHow
    have hFollowed : followed.1 ∈ View.followed :=
      View.computed_followed c' (Classes.mem_all_of_mem_lineage hc') followed hFollows
    rw [hName] at hFollowed
    exact absurd (List.mem_cons_of_mem _ hFollowed) hKept

theorem kept_of_get? (hcs : sc.classes.Extends View.Catalog.classes) (hView : ¬ sc.Foreign v)
    (hFound : (sc.propertiesOf v).get? name = some p) :
    ∃ id cls, v = .object id ∧ sc.store.type? id = some (.component cls) ∧
      sc.classes.computed? cls p.target = none ∧ p.target ≠ classAttribute := by
  obtain ⟨id, cls, rfl, hType, hProperty⟩ := exists_component_of_get? hFound
  have hClass : sc.store.class? id = some cls := by
    simp [Store.class?, hType]
  have hThere : (View.Catalog.classes.get? cls).isSome = true := by
    cases hGet : View.Catalog.classes.get? cls with
    | none => exact absurd ⟨id, cls, rfl, hClass, hGet⟩ hView
    | some c => rfl
  -- Whatever has been defined since, a class of the catalog is what it is there.
  rw [hcs.properties View.complete_classes hThere] at hProperty
  obtain ⟨hComputed, hTarget⟩ :=
    kept_of_mem_properties hcs hThere (Table.mem_of_get? hProperty)
  exact ⟨id, cls, rfl, hType, hComputed, hTarget⟩

/-- On the way of a name, only what is none of the views cannot be read. -/
theorem Breaks.exists_foreign (hcs : sc.classes.Extends View.Catalog.classes)
    (h : sc.Breaks v names e) :
    ∃ front w, front <+: names ∧ sc.Leads v front w ∧ sc.Foreign w := by
  obtain ⟨front, name, rest, w, p, rfl, -, hLeads, hFound, -, hBroken⟩ := h
  refine ⟨front, w, List.prefix_append _ _, hLeads, ?_⟩
  by_contra hView
  obtain ⟨id, cls, rfl, hType, hComputed, -⟩ := kept_of_get? hcs hView hFound
  simp [attribute?, Store.class?, hType, hComputed] at hBroken

/-- At the end of a name, only what is none of the views cannot be set. -/
theorem Declares.exists_foreign (hcs : sc.classes.Extends View.Catalog.classes)
    (h : sc.Declares v names owner p) (hFails : sc.setAttribute owner p.target new = .error e) :
    ∃ front w, front <+: names ∧ sc.Leads v front w ∧ sc.Foreign w := by
  obtain ⟨front, last, rfl, hLeads, hFound, -⟩ := h
  refine ⟨front, owner, List.prefix_append _ _, hLeads, ?_⟩
  by_contra hView
  obtain ⟨id, cls, rfl, hType, hComputed, hTarget⟩ := kept_of_get? hcs hView hFound
  simp [setAttribute, hTarget, change, hType, hComputed] at hFails

/-- Assigning a property from tables in memory fails as markup, unless the text names a constant
that is too large for a double and is taken for it, or the name leads to what is none of the
views. -/
theorem assign_refused (hcs : sc.classes.Extends View.Catalog.classes) (d : Decoder) (fs : Files)
    (target : Value) (name raw : String) (images : Table String Image)
    (strings : Table String String) (documents : Table String Stored) :
    (∀ e l?, sc.assign d fs target name raw (some (.tables images strings documents)) =
        (.error e, l?) →
      e.IsMarkup ∨
      (e = .numberTooLarge ∧ ∃ owner p,
        sc.Declares target (upToClosingDot (splitOn '.' name)) owner p ∧ d.Exceeds p.kind raw) ∨
      ∃ front v, front <+: splitOn '.' name ∧ sc.Leads target front v ∧ sc.Foreign v) ∧
    ∀ owner p, sc.Declares target (upToClosingDot (splitOn '.' name)) owner p →
      d.Exceeds p.kind raw →
        sc.assign d fs target name raw (some (.tables images strings documents)) =
          (.error .numberTooLarge, some (.tables images strings documents)) := by
  have hPrefix : upToClosingDot (splitOn '.' name) <+: splitOn '.' name := upToClosingDot_prefix _
  constructor
  · intro e l? h
    by_cases hDeclared : ∃ owner p, sc.Declares target (upToClosingDot (splitOn '.' name)) owner p
    · obtain ⟨owner, p, hDeclares⟩ := hDeclared
      rw [sc.assign_of_declares d fs target raw hDeclares, run_bind] at h
      cases hFetch : d.fetchProperty fs p raw (some (.tables images strings documents)) with
      | mk answer l'? =>
        rw [hFetch] at h
        cases answer with
        | error failure =>
          cases h
          rcases d.fetchProperty_fails hFetch with hMarkup | ⟨rfl, hExceeds⟩
          · exact .inl hMarkup
          · exact .inr (.inl ⟨rfl, owner, p, hDeclares, hExceeds⟩)
        | ok value =>
          -- The text has become a value, so it is the attribute that cannot be set.
          dsimp only at h
          rw [run_liftM] at h
          have hFails : sc.setAttribute owner p.target value = .error e := congrArg Prod.fst h
          obtain ⟨front, w, hFront, hLeads, hForeign⟩ := hDeclares.exists_foreign hcs hFails
          exact .inr (.inr ⟨front, w, hFront.trans hPrefix, hLeads, hForeign⟩)
    · have hNone (owner : Value) (p : Property) :
          ¬ sc.Declares target (upToClosingDot (splitOn '.' name)) owner p :=
        fun hDeclares => hDeclared ⟨owner, p, hDeclares⟩
      obtain ⟨failure, hRun, hWhy⟩ := sc.assign_of_not_declares d fs target raw hNone
        (some (.tables images strings documents))
      rw [hRun] at h
      cases h
      rcases hWhy with hProperty | hBreaks
      · exact .inl hProperty.isMarkup
      · obtain ⟨front, w, hFront, hLeads, hForeign⟩ := hBreaks.exists_foreign hcs
        exact .inr (.inr ⟨front, w, hFront.trans hPrefix, hLeads, hForeign⟩)
  · intro owner p hDeclares hExceeds
    rw [sc.assign_of_declares d fs target raw hDeclares]
    have hRead : d.readProperty p raw = .error .numberTooLarge :=
      Decoder.readProperty_of_exceeds hExceeds
    have hFetch : d.fetchProperty fs p raw (some (.tables images strings documents)) =
        (.error .numberTooLarge, some (.tables images strings documents)) := by
      unfold Decoder.fetchProperty
      rw [hRead]
      rfl
    exact run_bind_of_eq_error hFetch

end Scene

/-- Settings with a constant that is too large for a double. -/
def Sample.hugeConstant : GivenSettings where
  constants := [("huge", .int (tenPow 400))]

set_option maxRecDepth 8000 in
/-- The settings admit a constant that no number of a label can be read from. -/
theorem Scene.assign_refused_huge :
    Sample.soleLabel.classes.Extends View.Catalog.classes ∧
    ∃ settings, Sample.hugeConstant.check = .ok settings ∧
      Sample.soleLabel.assign (.make settings.colors settings.constants) {} (.object 0) "alpha"
          "huge" (some (.tables [] [] [])) =
        (.error .numberTooLarge, some (.tables [] [] [])) := by
  refine ⟨.refl _, _, rfl, ?_⟩
  have hAlpha : Sample.soleLabel.locate (.object 0) (splitOn '.' "alpha") =
      .ok (.object 0, View.declare "alpha" .float) := rfl
  have hLiteral : (Literal.read? (trim "huge")).isNone = true := by decide +kernel
  have hLarge : ofInt? (tenPow 400) = none := ofInt?_eq_none (Nat.le_refl 400) (by decide +kernel)
  refine (assign_refused (.refl _) _ _ _ _ _ _ _ _).2 _ _ (locate_eq_ok_iff.1 hAlpha) ?_
  exact ⟨.inr ⟨rfl, Option.isNone_iff_eq_none.1 hLiteral⟩, tenPow 400, rfl, hLarge⟩

end ViewMarkup
