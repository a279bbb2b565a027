/-!
# Ordered tables

A table maps keys to values and keeps its keys in the order in which they were first given: giving
a value to a key again leaves the key at its place.

## Main results

- `Table.get?_put_self`, `Table.get?_put_ne`: what a look-up finds after an assignment.
- `Table.get?_append`: a look-up in two tables, the first of which comes first.
- `Table.put_of_get?_eq_none`: a new key goes to the end.
- `Table.put_of_get?`: giving a key the value that it has changes nothing.
- `Table.mem_or_mem_of_mem_putAll`: what the entries after several assignments are.
- `Table.get?_eq_none_iff`: a look-up finds nothing under what is no key.
- `Table.keys_put_of_mem`, `Table.keys_put_of_not_mem`: what an assignment does to the order.
- `Table.ofList_of_nodup`, `Table.length_ofList_eq_iff`: assignments to different keys are kept as
  they are, and only these keep their number.
- `Table.get?_without_self`, `Table.get?_without_ne`: what a look-up finds after a removal.
- `Table.get?_erase_ne`: taking out a key leaves the values of the others.
- `Table.length_erase_lt`: taking out a key that is there makes the table shorter.
-/

namespace ViewMarkup

/-- Pairs of keys and values, each key once, in order of first assignment. -/
abbrev Table (κ α : Type) := List (κ × α)

namespace Table

variable {κ α : Type} [DecidableEq κ]

/-- The value of a key. -/
def get? : Table κ α → κ → Option α
  | [], _ => none
  | e :: t, k => if e.1 = k then some e.2 else get? t k

/-- Whether the key has a value. -/
def has (t : Table κ α) (k : κ) : Bool := (t.get? k).isSome

/-- The keys in order. -/
def keys (t : Table κ α) : List κ := t.map (·.1)

/-- Gives a value to a key; a new key goes to the end. -/
def put : Table κ α → κ → α → Table κ α
  | [], k, v => [(k, v)]
  | e :: t, k, v => if e.1 = k then (k, v) :: t else e :: put t k v

/-- The table without a key. -/
def erase : Table κ α → κ → Table κ α
  | [], _ => []
  | e :: t, k => if e.1 = k then t else e :: erase t k

/-- The table without all that is under a key. -/
def without : Table κ α → κ → Table κ α
  | [], _ => []
  | e :: t, k => if e.1 = k then without t k else e :: without t k

/-- Gives values to several keys, one after the other. -/
def putAll (t : Table κ α) (entries : List (κ × α)) : Table κ α :=
  entries.foldl (fun t e => t.put e.1 e.2) t

/-- The table of a list of assignments. -/
def ofList (entries : List (κ × α)) : Table κ α := putAll [] entries

theorem get?_put_self (t : Table κ α) (k : κ) (v : α) : (t.put k v).get? k = some v := by
  induction t with
  | nil => simp [put, get?]
  | cons e t ih => by_cases h : e.1 = k <;> simp [put, get?, h, ih]

theorem get?_put_ne {t : Table κ α} {k k' : κ} (v : α) (hNe : k' ≠ k) :
    (t.put k v).get? k' = t.get? k' := by
  induction t with
  | nil => simp [put, get?, Ne.symm hNe]
  | cons e t ih =>
    by_cases h : e.1 = k
    · simp [put, get?, h, Ne.symm hNe]
    · simp [put, get?, h, ih]

theorem get?_append (t t' : Table κ α) (k : κ) :
    Table.get? (t ++ t') k = (t.get? k).or (Table.get? t' k) := by
  induction t with
  | nil => rfl
  | cons e t ih => by_cases h : e.1 = k <;> simp [get?, h, ih]

theorem put_of_get?_eq_none {t : Table κ α} {k : κ} (v : α) (h : t.get? k = none) :
    t.put k v = t ++ [(k, v)] := by
  induction t with
  | nil => rfl
  | cons e t ih =>
    by_cases hk : e.1 = k
    · simp [get?, hk] at h
    · have hTail : get? t k = none := by simpa [get?, hk] using h
      simp [put, hk, ih hTail]

theorem put_of_get? {t : Table κ α} {k : κ} {v : α} (h : t.get? k = some v) : t.put k v = t := by
  induction t with
  | nil => simp [get?] at h
  | cons e t ih =>
    by_cases hk : e.1 = k
    · have hv : e.2 = v := by simpa [get?, hk] using h
      have he : (k, v) = e := Prod.ext hk.symm hv.symm
      rw [put, if_pos hk, he]
    · have hTail : get? t k = some v := by simpa [get?, hk] using h
      rw [put, if_neg hk, ih hTail]

/-- What a look-up finds is in the table. -/
theorem mem_of_get? {t : Table κ α} {k : κ} {v : α} (h : t.get? k = some v) : (k, v) ∈ t := by
  induction t with
  | nil => simp [get?] at h
  | cons e t ih =>
    by_cases hk : e.1 = k
    · have hv : e.2 = v := by simpa [get?, hk] using h
      have he : e = (k, v) := Prod.ext hk hv
      simp [he]
    · have hTail : get? t k = some v := by simpa [get?, hk] using h
      exact List.mem_cons_of_mem _ (ih hTail)

theorem get?_eq_none_iff {t : Table κ α} {k : κ} : t.get? k = none ↔ k ∉ t.keys := by
  induction t with
  | nil => simp [get?, keys]
  | cons e t ih =>
    by_cases hk : e.1 = k
    · simp [get?, keys, hk]
    · have hKeys : k ∉ keys (e :: t) ↔ k ∉ keys t := by simp [keys, Ne.symm hk]
      rw [hKeys, ← ih, get?, if_neg hk]

/-- An entry after an assignment is the one assigned, or was there before. -/
theorem eq_or_mem_of_mem_put {t : Table κ α} {k : κ} {v : α} {e : κ × α} (h : e ∈ t.put k v) :
    e = (k, v) ∨ e ∈ t := by
  induction t with
  | nil => exact .inl (List.mem_singleton.1 h)
  | cons d t ih =>
    by_cases hk : d.1 = k
    · rw [put, if_pos hk] at h
      rcases List.mem_cons.1 h with h | h
      · exact .inl h
      · exact .inr (List.mem_cons_of_mem _ h)
    · rw [put, if_neg hk] at h
      rcases List.mem_cons.1 h with h | h
      · exact .inr (h ▸ List.mem_cons_self)
      · exact (ih h).imp_right (List.mem_cons_of_mem _)

/-- An entry after several assignments is one of those, or was there before. -/
theorem mem_or_mem_of_mem_putAll {entries : List (κ × α)} {t : Table κ α} {e : κ × α}
    (h : e ∈ t.putAll entries) : e ∈ t ∨ e ∈ entries := by
  induction entries generalizing t with
  | nil => exact .inl h
  | cons d entries ih =>
    rcases ih (t := t.put d.1 d.2) h with h | h
    · rcases eq_or_mem_of_mem_put h with rfl | h
      · exact .inr List.mem_cons_self
      · exact .inl h
    · exact .inr (List.mem_cons_of_mem _ h)

/-- An assignment to a key that is there keeps the order. -/
theorem keys_put_of_mem {t : Table κ α} {k : κ} (v : α) (hMem : k ∈ t.keys) :
    (t.put k v).keys = t.keys := by
  induction t with
  | nil => simp [keys] at hMem
  | cons e t ih =>
    by_cases h : e.1 = k
    · simp [put, keys, h]
    · have hTail : k ∈ keys t := by
        simpa [keys, Ne.symm h] using hMem
      have := ih hTail
      simp only [keys] at this
      simp [put, keys, h, this]

/-- A new key goes to the end. -/
theorem keys_put_of_not_mem {t : Table κ α} {k : κ} (v : α) (hMem : k ∉ t.keys) :
    (t.put k v).keys = t.keys ++ [k] := by
  induction t with
  | nil => simp [put, keys]
  | cons e t ih =>
    simp only [keys, List.map_cons, List.mem_cons, not_or] at hMem
    have := ih hMem.2
    simp only [keys] at this
    simp [put, keys, Ne.symm hMem.1, this]

/-- Assignments to new and different keys go to the end as they are. -/
theorem putAll_of_nodup {entries : List (κ × α)} {t : Table κ α}
    (h : (t.keys ++ keys entries).Nodup) : t.putAll entries = t ++ entries := by
  induction entries generalizing t with
  | nil => exact (List.append_nil t).symm
  | cons e entries ih =>
    have hNew : e.1 ∉ t.keys := fun hMem =>
      (List.nodup_append.1 h).2.2 _ hMem _ List.mem_cons_self rfl
    have hPut : t.put e.1 e.2 = t ++ [e] := put_of_get?_eq_none _ (get?_eq_none_iff.2 hNew)
    have hRest : (keys (t ++ [e]) ++ keys entries).Nodup := by
      simpa [keys] using h
    show (t.put e.1 e.2).putAll entries = t ++ e :: entries
    rw [hPut, ih hRest, List.append_assoc]
    rfl

theorem ofList_of_nodup {entries : List (κ × α)} (h : (keys entries).Nodup) :
    ofList entries = entries :=
  putAll_of_nodup (t := []) h

theorem length_put_of_mem {t : Table κ α} {k : κ} (v : α) (hMem : k ∈ t.keys) :
    (t.put k v).length = t.length := by
  simpa [keys] using congrArg List.length (keys_put_of_mem v hMem)

theorem length_put_le (t : Table κ α) (k : κ) (v : α) : (t.put k v).length ≤ t.length + 1 := by
  by_cases hMem : k ∈ t.keys
  · rw [length_put_of_mem v hMem]
    exact Nat.le_succ _
  · rw [put_of_get?_eq_none v (get?_eq_none_iff.2 hMem), List.length_append]
    exact Nat.le_refl _

theorem length_putAll_le (entries : List (κ × α)) (t : Table κ α) :
    (t.putAll entries).length ≤ t.length + entries.length := by
  induction entries generalizing t with
  | nil => exact Nat.le_refl _
  | cons e entries ih =>
    have hRest := ih (t.put e.1 e.2)
    have hPut := length_put_le t e.1 e.2
    show ((t.put e.1 e.2).putAll entries).length ≤ _
    rw [List.length_cons]
    omega

/-- Where assignments keep their number, they are to new and different keys. -/
theorem nodup_of_length_putAll {entries : List (κ × α)} {t : Table κ α} (hKeys : t.keys.Nodup)
    (h : (t.putAll entries).length = t.length + entries.length) :
    (t.keys ++ keys entries).Nodup := by
  induction entries generalizing t with
  | nil => simpa [keys] using hKeys
  | cons e entries ih =>
    have hRest := length_putAll_le entries (t.put e.1 e.2)
    have hLength : ((t.put e.1 e.2).putAll entries).length = t.length + (entries.length + 1) := h
    have hNew : e.1 ∉ t.keys := by
      intro hMem
      rw [length_put_of_mem e.2 hMem] at hRest
      omega
    have hPut : t.put e.1 e.2 = t ++ [e] := put_of_get?_eq_none _ (get?_eq_none_iff.2 hNew)
    have hNodup : (keys (t ++ [e])).Nodup := by
      rw [← hPut, keys_put_of_not_mem e.2 hNew]
      exact List.nodup_append.2 ⟨hKeys, by simp, fun k hk l hl hEq =>
        hNew (List.mem_singleton.1 hl ▸ hEq ▸ hk)⟩
    rw [hPut] at hLength
    have := ih hNodup (by rw [hLength, List.length_append, List.length_singleton]; omega)
    simpa [keys] using this

/-- Assignments keep their number if and only if they are to different keys. -/
theorem length_ofList_eq_iff {entries : List (κ × α)} :
    (ofList entries).length = entries.length ↔ (keys entries).Nodup := by
  constructor
  · intro h
    exact nodup_of_length_putAll (t := []) List.nodup_nil (by simpa [ofList] using h)
  · intro h
    rw [ofList_of_nodup h]

theorem get?_without_self (t : Table κ α) (k : κ) : (t.without k).get? k = none := by
  induction t with
  | nil => rfl
  | cons e t ih => by_cases h : e.1 = k <;> simp [without, get?, h, ih]

theorem get?_without_ne {t : Table κ α} {k k' : κ} (hNe : k' ≠ k) :
    (t.without k).get? k' = t.get? k' := by
  induction t with
  | nil => rfl
  | cons e t ih =>
    by_cases h : e.1 = k
    · simp [without, get?, h, Ne.symm hNe, ih]
    · simp [without, get?, h, ih]

theorem get?_erase_ne {t : Table κ α} {k k' : κ} (hNe : k' ≠ k) :
    (t.erase k).get? k' = t.get? k' := by
  induction t with
  | nil => rfl
  | cons e t ih =>
    by_cases h : e.1 = k
    · simp [erase, get?, h, Ne.symm hNe]
    · simp [erase, get?, h, ih]

/-- Taking out a key that is there makes the table shorter. -/
theorem length_erase_lt {t : Table κ α} {k : κ} {v : α} (h : t.get? k = some v) :
    (t.erase k).length < t.length := by
  induction t with
  | nil => simp [get?] at h
  | cons e t ih =>
    by_cases hk : e.1 = k
    · simp [erase, hk]
    · have hTail : get? t k = some v := by simpa [get?, hk] using h
      simpa [erase, hk] using ih hTail

end Table
end ViewMarkup
