import ViewMarkup.Decoder
import ViewMarkup.Proofs.Outcome

/-!
# Color aliases

The table of named colors may have a name for a name. Reading a color follows such names from token
to token, where every token is the trimmed text that the table has for the one before. The tokens
are numbered here without regard to repetition: `Decoder.tokenAt` is the sequence that goes on
forever where names go round in a circle. So a sequence with a repetition never ends, and one that
ends has none.

Reading stops at the first repetition, since names that have been visited are remembered, and it
gets to one of both ends because the names still to be visited become fewer.

## Main results

* `Decoder.isSome_tokenAt_of_repeated` — a token that comes back comes back forever.
* `Decoder.followAliases_ends` — where the names lead: to a repetition, or to what is no name.
* `Decoder.readColor_tokenAt` — what is read as a color, and when names go round in a circle.
-/

namespace ViewMarkup

open Text

/-- A color literal does not go through other names. -/
theorem Color.read_ne_aliasCycle (raw : String) (chain : List String) :
    Color.read raw ≠ .error (.aliasCycle chain) := by
  intro h
  unfold Color.read at h
  split at h
  · cases h
  · dsimp only at h
    split at h
    · cases h
    · split at h <;> cases h

namespace Decoder

variable {d : Decoder} {raw : String} {m n : Nat}

/-! ## The sequence of tokens -/

/-- The tokens that a text leads to, as far as they go: first the trimmed text itself, and after a
token that is a name in the table the trimmed text that the table has for it. -/
def tokenAt (d : Decoder) (raw : String) : Nat → Option String
  | 0 => some (trim raw)
  | n + 1 => (d.tokenAt raw n).bind fun token => (d.colors.get? token).map trim

/-- Some token comes twice. -/
def Repeats (d : Decoder) (raw : String) : Prop :=
  ∃ m n token, m < n ∧ d.tokenAt raw m = some token ∧ d.tokenAt raw n = some token

theorem isSome_tokenAt_of_le (hLe : m ≤ n) (h : (d.tokenAt raw n).isSome) :
    (d.tokenAt raw m).isSome := by
  induction hLe with
  | refl => exact h
  | @step n _ ih =>
    refine ih ?_
    rw [tokenAt] at h
    cases hn : d.tokenAt raw n with
    | none => simp [hn] at h
    | some _ => rfl

theorem tokenAt_succ_of_get? {token : String} (h : d.tokenAt raw n = some token)
    (hNone : d.colors.get? token = none) : d.tokenAt raw (n + 1) = none := by
  rw [tokenAt, h, Option.bind_some, hNone, Option.map_none]

/-- What follows a token depends on the token only. -/
theorem tokenAt_add (h : d.tokenAt raw m = d.tokenAt raw n) (k : Nat) :
    d.tokenAt raw (m + k) = d.tokenAt raw (n + k) := by
  induction k with
  | zero => exact h
  | succ k ih => rw [← Nat.add_assoc, ← Nat.add_assoc, tokenAt, tokenAt, ih]

/-- A token that comes back comes back forever. -/
theorem isSome_tokenAt_of_repeated (h : d.Repeats raw) (k : Nat) :
    (d.tokenAt raw k).isSome := by
  obtain ⟨m, n, token, hLt, hm, hn⟩ := h
  induction k using Nat.strongRecOn with
  | ind k ih =>
    by_cases hk : k ≤ n
    · exact isSome_tokenAt_of_le hk (by rw [hn]; rfl)
    · -- Token `k` is the one as many places behind the first occurrence.
      obtain ⟨j, rfl⟩ := Nat.exists_eq_add_of_le (Nat.le_of_not_le hk)
      rw [← tokenAt_add (hm.trans hn.symm) j]
      exact ih (m + j) (by omega)

/-- The first tokens, as long as none of them has come twice. -/
structure Visited (d : Decoder) (raw : String) (seen : List String) : Prop where
  tokens : seen.map some = (List.range seen.length).map (d.tokenAt raw)
  nodup : seen.Nodup

namespace Visited

variable {seen : List String} {token : String}

theorem getElem? (h : d.Visited raw seen) (hn : n < seen.length) :
    seen[n]? = d.tokenAt raw n := by
  have hAt := congrArg (·[n]?) h.tokens
  simpa [hn] using hAt

/-- Where a token has been visited, there is a place for it in the sequence. -/
theorem exists_of_mem (h : d.Visited raw seen) (hMem : token ∈ seen) :
    ∃ n, n < seen.length ∧ d.tokenAt raw n = some token := by
  obtain ⟨n, hn, rfl⟩ := List.mem_iff_getElem.1 hMem
  exact ⟨n, hn, by rw [← h.getElem? hn, List.getElem?_eq_getElem hn]⟩

theorem map_concat (h : d.Visited raw seen) (hToken : d.tokenAt raw seen.length = some token) :
    (seen ++ [token]).map some = (List.range (seen.length + 1)).map (d.tokenAt raw) := by
  rw [List.map_append, h.tokens, List.range_succ, List.map_append, List.map_singleton,
    List.map_singleton, hToken]

private theorem concat (h : d.Visited raw seen) (hToken : d.tokenAt raw seen.length = some token)
    (hNew : token ∉ seen) : d.Visited raw (seen ++ [token]) := by
  refine ⟨?_, ?_⟩
  · rw [h.map_concat hToken, List.length_append, List.length_singleton]
  · exact List.nodup_append.2 ⟨h.nodup, by simp, fun x hx y hy hEq =>
      hNew (List.mem_singleton.1 hy ▸ hEq ▸ hx)⟩

end Visited

/-! ## Following names -/

/-- Names lead through different tokens, either to one that has been visited or to one that is no
name. -/
theorem followAliases_ends {unvisited : Table String String} {seen : List String} {token : String}
    (hSeen : d.Visited raw seen) (hToken : d.tokenAt raw seen.length = some token)
    (hSame : ∀ t, t ∉ seen → unvisited.get? t = d.colors.get? t) :
    (∃ seen' token', d.Visited raw seen' ∧ d.tokenAt raw seen'.length = some token' ∧
      token' ∈ seen' ∧
      followAliases unvisited seen token = .error (.aliasCycle (seen' ++ [token']))) ∨
    ∃ seen' token', d.Visited raw (seen' ++ [token']) ∧ d.colors.get? token' = none ∧
      followAliases unvisited seen token = .ok token' := by
  fun_induction followAliases unvisited seen token with
  | case1 unvisited seen token hMem => exact .inl ⟨seen, token, hSeen, hToken, hMem, rfl⟩
  | case2 unvisited seen token hNew hNone =>
    exact .inr ⟨seen, token, hSeen.concat hToken hNew, (hSame token hNew).symm.trans hNone, rfl⟩
  | case3 unvisited seen token hNew next hNext ih =>
    refine ih (hSeen.concat hToken hNew) ?_ fun t ht => ?_
    · rw [List.length_append, List.length_singleton, tokenAt, hToken, Option.bind_some,
        ← hSame token hNew, hNext, Option.map_some]
    · obtain ⟨hOld, hOther⟩ : t ∉ seen ∧ t ≠ token := by simpa using ht
      rw [Table.get?_erase_ne hOther, hSame t hOld]

/-- Reading a color follows the names from the trimmed text on. -/
theorem readColor_ends (d : Decoder) (raw : String) :
    (∃ seen token, d.Visited raw seen ∧ d.tokenAt raw seen.length = some token ∧ token ∈ seen ∧
      d.readColor raw = .error (.aliasCycle (seen ++ [token]))) ∨
    ∃ seen token, d.Visited raw (seen ++ [token]) ∧ d.colors.get? token = none ∧
      d.readColor raw = Color.read token := by
  have hStart : d.Visited raw [] := ⟨rfl, .nil⟩
  rcases followAliases_ends hStart rfl fun _ _ => rfl with
    ⟨seen, token, hSeen, hToken, hMem, hRun⟩ | ⟨seen, token, hSeen, hNone, hRun⟩
  · exact .inl ⟨seen, token, hSeen, hToken, hMem, by rw [readColor, hRun]; rfl⟩
  · exact .inr ⟨seen, token, hSeen, hNone, by rw [readColor, hRun]; rfl⟩

/-! ## Repetitions and ends -/

/-- The tokens up to a first repetition. -/
def IsCircle (d : Decoder) (raw : String) (chain : List String) : Prop :=
  ∃ n, chain.map some = (List.range (n + 1)).map (d.tokenAt raw) ∧ chain.dropLast.Nodup ∧
    ¬ chain.Nodup

private theorem take_of_map_range {tokens chain : List String}
    (hTokens : tokens.map some = (List.range m).map (d.tokenAt raw))
    (hChain : chain.map some = (List.range n).map (d.tokenAt raw)) (hLe : m ≤ n) :
    chain.take m = tokens := by
  refine (List.map_inj_right fun _ _ => Option.some.inj).1 ?_
  rw [List.map_take, hChain, hTokens, ← List.map_take, List.take_range, Nat.min_eq_left hLe]

namespace Visited

variable {seen : List String} {token : String}

private theorem isCircle (h : d.Visited raw seen) (hToken : d.tokenAt raw seen.length = some token)
    (hMem : token ∈ seen) : d.IsCircle raw (seen ++ [token]) := by
  refine ⟨seen.length, h.map_concat hToken, ?_, fun hNodup => ?_⟩
  · rw [List.dropLast_concat]
    exact h.nodup
  · exact (List.nodup_append.1 hNodup).2.2 token hMem token (List.mem_singleton_self _) rfl

private theorem repeats (h : d.Visited raw seen) (hToken : d.tokenAt raw seen.length = some token)
    (hMem : token ∈ seen) : d.Repeats raw := by
  obtain ⟨m, hLt, hm⟩ := h.exists_of_mem hMem
  exact ⟨m, seen.length, token, hLt, hm, hToken⟩

theorem tokenAt_last (h : d.Visited raw (seen ++ [token])) :
    d.tokenAt raw seen.length = some token := by
  rw [← h.getElem? (by simp), List.getElem?_concat_length]

end Visited

/-- There is one first repetition. -/
theorem IsCircle.unique {chain chain' : List String} (h : d.IsCircle raw chain)
    (h' : d.IsCircle raw chain') : chain = chain' := by
  -- A circle that is longer than another one has that one among its different tokens.
  have hNotLonger {m n : Nat} {short long : List String}
      (hShort : short.map some = (List.range (m + 1)).map (d.tokenAt raw)) (hTwice : ¬ short.Nodup)
      (hLong : long.map some = (List.range (n + 1)).map (d.tokenAt raw))
      (hDrop : long.dropLast.Nodup) : n ≤ m := by
    refine Nat.le_of_not_lt fun hLt => ?_
    have hLength : long.length = n + 1 := by simpa using congrArg List.length hLong
    have hTake := take_of_map_range hShort hLong (by omega)
    refine hTwice (hTake ▸ hDrop.sublist ?_)
    rw [List.dropLast_eq_take]
    exact (List.take_prefix_take_left (by omega)).sublist
  obtain ⟨m, hChain, hDrop, hTwice⟩ := h
  obtain ⟨n, hChain', hDrop', hTwice'⟩ := h'
  obtain rfl : m = n :=
    Nat.le_antisymm (hNotLonger hChain' hTwice' hChain hDrop)
      (hNotLonger hChain hTwice hChain' hDrop')
  exact (List.map_inj_right fun _ _ => Option.some.inj).1 (hChain.trans hChain'.symm)

/-- A token that is no name is the last one, and then none has come twice. -/
theorem not_repeats {token : String} (h : d.tokenAt raw n = some token)
    (hNone : d.colors.get? token = none) : ¬ d.Repeats raw := by
  intro hRepeats
  have hSome := isSome_tokenAt_of_repeated hRepeats (n + 1)
  rw [tokenAt_succ_of_get? h hNone] at hSome
  cases hSome

/-- There is one token at which the names end. -/
theorem eq_of_ends {token token' : String} (h : d.tokenAt raw m = some token)
    (hNone : d.colors.get? token = none) (h' : d.tokenAt raw n = some token')
    (hNone' : d.colors.get? token' = none) : token = token' := by
  have hNotLater {m n : Nat} {t t' : String} (h : d.tokenAt raw m = some t)
      (hNone : d.colors.get? t = none) (h' : d.tokenAt raw n = some t') : n ≤ m := by
    refine Nat.le_of_not_lt fun hLt => ?_
    have hThere : (d.tokenAt raw n).isSome := by
      rw [h']
      rfl
    have hSome := isSome_tokenAt_of_le hLt hThere
    rw [tokenAt_succ_of_get? h hNone] at hSome
    cases hSome
  obtain rfl : m = n := Nat.le_antisymm (hNotLater h' hNone' h) (hNotLater h hNone h')
  exact Option.some.inj (h.symm.trans h')

/-- A repetition of tokens contains a circle. -/
theorem IsCircle.repeats {chain : List String} (h : d.IsCircle raw chain) : d.Repeats raw := by
  obtain ⟨n, hChain, -, hTwice⟩ := h
  have hLength : chain.length = n + 1 := by simpa using congrArg List.length hChain
  have hAt {i : Nat} (hi : i < chain.length) : d.tokenAt raw i = some chain[i] := by
    have hGet := congrArg (·[i]?) hChain
    simpa [hi, hLength ▸ hi] using hGet.symm
  obtain ⟨i, j, hi, hj, hLt, hEq⟩ : ∃ i j, ∃ (hi : i < chain.length) (hj : j < chain.length),
      i < j ∧ chain[i] = chain[j] := by
    refine Classical.byContradiction fun hNone => ?_
    refine hTwice (List.pairwise_iff_getElem.2 fun i j hi hj hLt hEq => hNone ?_)
    exact ⟨i, j, hi, hj, hLt, hEq⟩
  exact ⟨i, j, chain[i], hLt, hAt hi, hEq ▸ hAt hj⟩

/-! ## Reading -/

/-- Reading a color follows the names in the table from the trimmed text on. It fails since names go
round in a circle if and only if some token comes twice, and the failure lists the tokens up to the
first one that has come before, this one included. Otherwise the tokens end with one that is no
name, and the answer is what this token gives as a color literal. -/
theorem readColor_tokenAt (d : Decoder) (raw : String) :
    (∀ chain, d.readColor raw = .error (.aliasCycle chain) ↔ d.IsCircle raw chain) ∧
    ((∃ chain, d.readColor raw = .error (.aliasCycle chain)) ↔ d.Repeats raw) ∧
    (¬ d.Repeats raw → ∃ n token, d.tokenAt raw n = some token ∧ d.colors.get? token = none) ∧
    (∀ n token, d.tokenAt raw n = some token → d.colors.get? token = none →
      d.readColor raw = Color.read token) ∧
    ∀ chain, (DecodeFault.aliasCycle chain).message =
      "color alias cycle: " ++ joined " -> " chain := by
  rcases d.readColor_ends raw with ⟨seen, token, hSeen, hToken, hMem, hRun⟩ |
    ⟨seen, token, hSeen, hNone, hRun⟩
  · have hRepeats : d.Repeats raw := hSeen.repeats hToken hMem
    refine ⟨fun chain => ⟨fun h => ?_, fun h => ?_⟩, ⟨fun _ => hRepeats, fun _ => ⟨_, hRun⟩⟩,
      fun hNot => absurd hRepeats hNot, fun n token' h hNone => ?_, fun _ => rfl⟩
    · rw [hRun] at h
      cases h
      exact hSeen.isCircle hToken hMem
    · rw [hRun, (hSeen.isCircle hToken hMem).unique h]
    · exact absurd hRepeats (not_repeats h hNone)
  · have hLast := hSeen.tokenAt_last
    have hNot : ¬ d.Repeats raw := not_repeats hLast hNone
    have hNoCircle (chain : List String) : d.readColor raw ≠ .error (.aliasCycle chain) := by
      rw [hRun]
      exact Color.read_ne_aliasCycle token chain
    refine ⟨fun chain => ⟨fun h => absurd h (hNoCircle chain), fun h => absurd h.repeats hNot⟩,
      ⟨fun ⟨chain, h⟩ => absurd h (hNoCircle chain), fun h => absurd h hNot⟩,
      fun _ => ⟨_, token, hLast, hNone⟩, fun n token' h hNone' => ?_, fun _ => rfl⟩
    rw [hRun, eq_of_ends hLast hNone h hNone']

/-- Two names that stand for each other, with blanks around them, and a third that leads to them. -/
example : (({ colors := [("a", " b"), ("b", "c "), ("c", "b")] } : Decoder).readColor " a ").map
    Color.toHex = .error (.aliasCycle ["a", "b", "c", "b"]) := by
  cbv

end Decoder
end ViewMarkup
