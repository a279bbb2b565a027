import Mathlib.Data.List.Induction
import ViewMarkup.Table

/-!
# What assignments leave in a table

A table that is filled by assignments has each key once, at the place of the first assignment to it
and with the value of the last one. This is said by induction on the last assignment.

## Main results

* `Table.nodup_keys_putAll` — assignments give no key a second place.
* `Table.get?_ofList`, `Table.keys_ofList` — the last assignment to a key decides on its value, and
  the first one on its place.
-/

namespace ViewMarkup.Table

variable {κ α : Type} [DecidableEq κ]
variable {t : Table κ α} {entries : List (κ × α)} {k : κ}

private theorem nodup_keys_put (k : κ) (v : α) (h : t.keys.Nodup) : (t.put k v).keys.Nodup := by
  by_cases hMem : k ∈ t.keys
  · rwa [keys_put_of_mem v hMem]
  · rw [keys_put_of_not_mem v hMem]
    exact List.nodup_append.2 ⟨h, by simp, fun a ha b hb hEq =>
      hMem (List.mem_singleton.1 hb ▸ hEq ▸ ha)⟩

theorem nodup_keys_putAll (h : t.keys.Nodup) (entries : List (κ × α)) :
    (t.putAll entries).keys.Nodup := by
  induction entries generalizing t with
  | nil => exact h
  | cons e entries ih => exact ih (nodup_keys_put e.1 e.2 h)

/-- Assignments to other keys do not matter. -/
theorem get?_putAll_of_not_mem (h : k ∉ keys entries) : (t.putAll entries).get? k = t.get? k := by
  induction entries generalizing t with
  | nil => rfl
  | cons e entries ih =>
    simp only [keys, List.map_cons, List.mem_cons, not_or] at h
    exact (ih h.2).trans (get?_put_ne e.2 h.1)

/-- Assignments to the same keys give the same, if the tables did. -/
theorem get?_putAll_congr {u : Table κ α} (h : t.get? k = u.get? k) (entries : List (κ × α)) :
    (t.putAll entries).get? k = (u.putAll entries).get? k := by
  induction entries generalizing t u with
  | nil => exact h
  | cons e entries ih =>
    refine ih ?_
    by_cases hk : k = e.1
    · subst hk
      rw [get?_put_self, get?_put_self]
    · rw [get?_put_ne e.2 hk, get?_put_ne e.2 hk, h]

/-! ## Tables of lists -/

theorem nodup_keys_ofList (entries : List (κ × α)) : (ofList entries).keys.Nodup :=
  nodup_keys_putAll (t := []) List.nodup_nil entries

theorem ofList_concat (entries : List (κ × α)) (e : κ × α) :
    ofList (entries ++ [e]) = (ofList entries).put e.1 e.2 := by
  simp [ofList, putAll]

/-- The last assignment to a key decides on its value. -/
theorem get?_ofList (entries : List (κ × α)) (k : κ) :
    (ofList entries).get? k = (entries.reverse.find? (·.1 = k)).map (·.2) := by
  induction entries using List.reverseRecOn with
  | nil => rfl
  | append_singleton entries e ih =>
    rw [ofList_concat, List.reverse_append, List.reverse_singleton, List.singleton_append,
      List.find?_cons]
    by_cases hKey : e.1 = k
    · rw [← hKey, get?_put_self]
      simp
    · rw [get?_put_ne _ (Ne.symm hKey), ih]
      simp [hKey]

/-- The first assignment to a key decides on its place. -/
theorem keys_ofList (entries : List (κ × α)) :
    (ofList entries).keys = (keys entries).eraseDups := by
  induction entries using List.reverseRecOn with
  | nil => rfl
  | append_singleton entries e ih =>
    have hMem : e.1 ∈ (ofList entries).keys ↔ e.1 ∈ keys entries := by rw [ih, List.mem_eraseDups]
    have hKeys : keys (entries ++ [e]) = keys entries ++ [e.1] := by simp [keys]
    rw [ofList_concat, hKeys, List.eraseDups_append, ← ih]
    by_cases hOld : e.1 ∈ keys entries
    · rw [keys_put_of_mem _ (hMem.2 hOld)]
      simp [List.removeAll, hOld]
    · rw [keys_put_of_not_mem _ (hMem.not.2 hOld)]
      simp [List.removeAll, hOld, List.eraseDups_cons]

theorem has_iff_mem_keys : t.has k = true ↔ k ∈ t.keys := by
  have hNone : t.get? k = none ↔ k ∉ t.keys := get?_eq_none_iff
  rw [has, Option.isSome_iff_ne_none, ne_eq, hNone, not_not]

end ViewMarkup.Table
