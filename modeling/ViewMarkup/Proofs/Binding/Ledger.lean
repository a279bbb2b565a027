import ViewMarkup.Proofs.Build.Commit

/-!
# Bindings by identity number

A registry of bindings cannot look an owner up without keeping it alive, so it goes by the number
that tells the owner apart from all that are alive with it. Such a number is free again as soon as
the owner is gone. An account therefore names its owner: one that names another counts for nothing,
and the next registration takes its place. A finalizer removes the account of an owner that is gone;
it may come late, when the number belongs to another owner.

`Bindings` is the same table by object, without numbers and finalizers.

## Main results

* `Ledger.of_record_self`, `Ledger.of_record_of_ne`: a new binding comes last in the account of its
  owner, and owners with other numbers have what they had.
* `Ledger.of_release_self`, `Ledger.of_release_ne`, `Ledger.release_fst`: a release empties one
  account and counts it.
* `Ledger.of_weed_self`, `Ledger.of_weed_ne`: weeding one account leaves the others alone.
* `Ledger.of_forget_ne`: a finalizer, however late, takes nothing from anyone but its own owner.
* `Bindings.prune_eq_weed`: pruning the table by object is weeding by what can be reached.
-/

namespace ViewMarkup

/-- The bindings of an owner. -/
structure Account where
  owner : ObjectId
  bindings : List Binding
deriving DecidableEq, Repr

/-- The bindings of owners by identity number, and the finalizers that are to run, each with the
number and the owner that it was made for. -/
structure Ledger where
  accounts : Table Identity Account := []
  finalizers : List (Identity × ObjectId) := []

/-! ## The operations -/

namespace Ledger

variable (number : ObjectId → Identity) (l : Ledger)

/-- The account of an owner: the one under its number, if it was made for it. -/
def account? (owner : ObjectId) : Option Account :=
  (l.accounts.get? (number owner)).filter (·.owner == owner)

/-- The bindings of an owner in the order in which they were registered. -/
def of (owner : ObjectId) : List Binding := ((l.account? number owner).map (·.bindings)).getD []

/-- The ledger with an account under the number of its owner. -/
def assign (a : Account) : Ledger := { l with accounts := l.accounts.put (number a.owner) a }

/-- The bindings with one more. The first of an owner comes with a finalizer. -/
def record (b : Binding) : Ledger :=
  match l.account? number b.owner with
  | some a => l.assign number { a with bindings := a.bindings ++ [b] }
  | none =>
    { l.assign number ⟨b.owner, [b]⟩ with
      finalizers := l.finalizers ++ [(number b.owner, b.owner)] }

/-- Registers a binding. Both paths have to lead somewhere. -/
def register (sc : Scene) (b : Binding) : Except Failure Ledger :=
  (Bindings.register [] sc b).map fun _ => l.record number b

/-- Takes the account of an owner away with its finalizer, and counts its bindings. -/
def release (owner : ObjectId) : Nat × Ledger :=
  match l.account? number owner with
  | some a =>
    (a.bindings.length,
      { accounts := l.accounts.without (number owner)
        finalizers := l.finalizers.erase (number owner, owner) })
  | none => (0, l)

/-- The bindings without those of an owner whose views are gone. -/
def weed (living : ObjectId → Bool) (owner : ObjectId) : Ledger :=
  match l.account? number owner with
  | some a => l.assign number { a with bindings := a.bindings.filter fun b => living b.view }
  | none => l

/-- The bindings of a view, of all owners in order; those of one path, if one is given. -/
def ofView (view : ObjectId) (path : Option String) : List Binding :=
  l.accounts.flatMap fun (_, a) =>
    a.bindings.filter fun b => b.view == view && path.all (· == b.viewPath)

/-- Runs a finalizer. By now the account under its number may be that of another owner. -/
def forget (key : Identity) (owner : ObjectId) : Ledger where
  accounts :=
    if (l.accounts.get? key).any (·.owner == owner) then l.accounts.without key else l.accounts
  finalizers := l.finalizers.erase (key, owner)

/-! ## What owners have -/

variable {number l} {owner other : ObjectId} {b : Binding}

theorem owner_of_account? {a : Account} (h : l.account? number owner = some a) :
    a.owner = owner := by
  simpa using (Option.filter_eq_some_iff.1 h).2

private theorem get?_of_account? {a : Account} (h : l.account? number owner = some a) :
    l.accounts.get? (number owner) = some a :=
  (Option.filter_eq_some_iff.1 h).1

theorem of_eq_of_account? {a : Account} (h : l.account? number owner = some a) :
    l.of number owner = a.bindings := by
  simp [of, h]

theorem of_eq_nil (h : l.account? number owner = none) : l.of number owner = [] := by
  simp [of, h]

/-- What an owner has depends on the accounts under its number only. -/
theorem of_congr {l' : Ledger}
    (h : l'.accounts.get? (number owner) = l.accounts.get? (number owner)) :
    l'.of number owner = l.of number owner := by
  unfold of account?
  rw [h]

/-- Under the number of an owner that has an account, nobody else has one. -/
theorem of_eq_nil_of_account? {a : Account} (h : l.account? number owner = some a)
    (hNe : other ≠ owner) (hNumber : number other = number owner) : l.of number other = [] := by
  refine of_eq_nil ?_
  have hOther : ¬ a.owner = other := fun hEq => hNe (hEq.symm.trans (owner_of_account? h))
  simp [account?, hNumber, get?_of_account? h, hOther]

theorem of_assign_self (number : ObjectId → Identity) (l : Ledger) (a : Account) :
    (l.assign number a).of number a.owner = a.bindings := by
  refine of_eq_of_account? ?_
  simp [account?, assign, Table.get?_put_self]

theorem of_assign_of_ne {a : Account} (hNe : number other ≠ number a.owner) :
    (l.assign number a).of number other = l.of number other :=
  of_congr (Table.get?_put_ne a hNe)

/-- An account takes the place of any other under its number. -/
theorem of_assign_of_eq {a : Account} (hNe : other ≠ a.owner)
    (hNumber : number other = number a.owner) : (l.assign number a).of number other = [] := by
  refine of_eq_nil ?_
  simp [account?, assign, hNumber, Table.get?_put_self, Ne.symm hNe]

/-- Exchanging the account of an owner changes nothing for anyone else. -/
theorem of_assign_ne {a a' : Account} (h : l.account? number owner = some a)
    (hOwner : a'.owner = owner) (hNe : other ≠ owner) :
    (l.assign number a').of number other = l.of number other := by
  subst hOwner
  by_cases hNumber : number other = number a'.owner
  · rw [of_assign_of_eq hNe hNumber, of_eq_nil_of_account? h hNe hNumber]
  · exact of_assign_of_ne hNumber

/-! ### Registering -/

theorem of_record_self (l : Ledger) (b : Binding) :
    (l.record number b).of number b.owner = l.of number b.owner ++ [b] := by
  unfold record
  cases h : l.account? number b.owner with
  | some a =>
    have hOwner : a.owner = b.owner := owner_of_account? h
    have hSelf := of_assign_self number l { a with bindings := a.bindings ++ [b] }
    rw [of_eq_of_account? h, ← hOwner]
    exact hSelf
  | none =>
    rw [of_eq_nil h]
    exact of_assign_self number l ⟨b.owner, [b]⟩

theorem of_record_of_ne (hNe : number other ≠ number b.owner) :
    (l.record number b).of number other = l.of number other := by
  unfold record
  cases h : l.account? number b.owner with
  | some a =>
    have hOwner : a.owner = b.owner := owner_of_account? h
    exact of_assign_of_ne (a := { a with bindings := a.bindings ++ [b] }) (hOwner ▸ hNe)
  | none => exact of_assign_of_ne (a := ⟨b.owner, [b]⟩) hNe

/-- Whoever shares the number of an owner has nothing once that owner has a binding. -/
theorem of_record_of_eq (hNe : other ≠ b.owner) (hNumber : number other = number b.owner) :
    (l.record number b).of number other = [] := by
  unfold record
  cases h : l.account? number b.owner with
  | some a =>
    have hOwner : a.owner = b.owner := owner_of_account? h
    exact of_assign_of_eq (a := { a with bindings := a.bindings ++ [b] }) (hOwner ▸ hNe)
      (hOwner ▸ hNumber)
  | none => exact of_assign_of_eq (a := ⟨b.owner, [b]⟩) hNe hNumber

/-- The ledger and the table by object take the same bindings. -/
theorem register_eq_ok_iff {sc : Scene} {l' : Ledger} (t : Bindings) :
    l.register number sc b = .ok l' ↔
      l' = l.record number b ∧ t.register sc b = .ok (t.record b) := by
  rw [register, Bindings.register_eq t]
  cases Bindings.register [] sc b with
  | error e => simp [Except.map]
  | ok u => simp [Except.map, eq_comm]

/-! ### Releasing -/

theorem release_fst (l : Ledger) (owner : ObjectId) :
    (l.release number owner).1 = (l.of number owner).length := by
  unfold release
  cases h : l.account? number owner with
  | some a => rw [of_eq_of_account? h]
  | none => rw [of_eq_nil h, List.length_nil]

theorem of_release_self (l : Ledger) (owner : ObjectId) :
    (l.release number owner).2.of number owner = [] := by
  unfold release
  cases h : l.account? number owner with
  | some a => simp [of, account?, Table.get?_without_self]
  | none => exact of_eq_nil h

theorem of_release_ne (hNe : other ≠ owner) :
    (l.release number owner).2.of number other = l.of number other := by
  unfold release
  cases h : l.account? number owner with
  | some a =>
    by_cases hNumber : number other = number owner
    · rw [of_eq_nil_of_account? h hNe hNumber]
      simp [of, account?, hNumber, Table.get?_without_self]
    · exact of_congr (Table.get?_without_ne hNumber)
  | none => rfl

/-! ### Weeding and finalizers -/

theorem of_weed_self (l : Ledger) (living : ObjectId → Bool) (owner : ObjectId) :
    (l.weed number living owner).of number owner =
      (l.of number owner).filter fun b => living b.view := by
  unfold weed
  cases h : l.account? number owner with
  | some a =>
    have hOwner : a.owner = owner := owner_of_account? h
    have hSelf := of_assign_self number l
      { a with bindings := a.bindings.filter fun b => living b.view }
    rw [of_eq_of_account? h, ← hOwner]
    exact hSelf
  | none => simp [of_eq_nil h]

theorem of_weed_ne {living : ObjectId → Bool} (hNe : other ≠ owner) :
    (l.weed number living owner).of number other = l.of number other := by
  unfold weed
  cases h : l.account? number owner with
  | some a =>
    have hOwner : a.owner = owner := owner_of_account? h
    have hWeeded : { a with bindings := a.bindings.filter fun b => living b.view }.owner = owner :=
      hOwner
    exact of_assign_ne h hWeeded hNe
  | none => rfl

/-- A finalizer takes nothing from anyone but its own owner, even if its number is theirs now. -/
theorem of_forget_ne {key : Identity} (hNe : other ≠ owner) :
    (l.forget key owner).of number other = l.of number other := by
  by_cases hKey : (l.accounts.get? key).any (·.owner == owner) = true
  · by_cases hNumber : number other = key
    · -- The account is that of the finalizer's own owner, so the other has none.
      subst hNumber
      obtain ⟨a, hGet, hOwner⟩ := (Option.any_eq_true _ _).1 hKey
      have hOther : ¬ a.owner = other := fun hEq => hNe (hEq.symm.trans (by simpa using hOwner))
      have hBefore : l.of number other = [] := of_eq_nil (by simp [account?, hGet, hOther])
      rw [hBefore]
      simp [of, account?, forget, hKey, Table.get?_without_self]
    · refine of_congr ?_
      simp only [forget, if_pos hKey]
      exact Table.get?_without_ne hNumber
  · refine of_congr ?_
    simp only [forget, if_neg hKey]

end Ledger

/-! ## The table by object -/

namespace Bindings

/-- The bindings without those of an owner whose views are gone. -/
def weed (t : Bindings) (living : ObjectId → Bool) (owner : ObjectId) : Bindings :=
  match t.get? owner with
  | some bs => t.put owner (bs.filter fun b => living b.view)
  | none => t

/-- Pruning weeds out what cannot be reached. -/
theorem prune_eq_weed (t : Bindings) (sc : Scene) (roots : List ObjectId) (owner : ObjectId) :
    t.prune sc roots owner = t.weed (sc.store.reachable (owner :: roots)).contains owner := rfl

theorem of_weed_self (t : Bindings) (living : ObjectId → Bool) (owner : ObjectId) :
    (t.weed living owner).of owner = (t.of owner).filter fun b => living b.view := by
  unfold weed of
  cases h : t.get? owner with
  | some bs => simp [Table.get?_put_self]
  | none => simp [h]

theorem of_weed_ne {t : Bindings} {living : ObjectId → Bool} {owner other : ObjectId}
    (hNe : other ≠ owner) : (t.weed living owner).of other = t.of other := by
  unfold weed of
  cases t.get? owner with
  | some bs => simp [Table.get?_put_ne _ hNe]
  | none => rfl

end Bindings
end ViewMarkup
