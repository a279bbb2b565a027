import ViewMarkup.Color.Literal
import ViewMarkup.Proofs.Text.Case
import ViewMarkup.Text.Blank

/-!
# Trimmed texts

What is left of a text when the blanks at its ends are gone, and which characters are none. A line
feed that closes a text without other blanks is all that trimming takes away from it.

## Main results

* `Text.head_trimList`, `Text.getLast_trimList` — a trimmed text has no blank at either end.
* `Text.trimList_eq_withoutClosingFeed` — trimming takes away a closing line feed.
-/

namespace ViewMarkup.Text

variable {c : Char} {cs : List Char}

/-! ## Characters that are no blanks -/

theorem isBlank_eq_false_of_isAlphanum (h : c.isAlphanum = true) : isBlank c = false :=
  (isAscii_of_isAlphanum h).induction
    (P := fun c => c.isAlphanum = true → isBlank c = false) (by decide +kernel) h

/-! ## Either end -/

/-- The first character of a trimmed text is no blank. -/
theorem head_trimList (h : (trimList cs).head? = some c) : isBlank c = false := by
  have hFront := List.head?_dropWhile_not isBlank cs
  rw [trimList, List.head?_reverse] at h
  obtain ⟨blanks, hSuffix⟩ := List.dropWhile_suffix (l := (cs.dropWhile isBlank).reverse) isBlank
  have hLast : (cs.dropWhile isBlank).reverse.getLast? = some c := by
    rw [← hSuffix, List.getLast?_append, h, Option.some_or]
  rw [List.getLast?_reverse] at hLast
  rwa [hLast] at hFront

/-- Neither is the last one. -/
theorem getLast_trimList (h : (trimList cs).getLast? = some c) : isBlank c = false := by
  have hBack := List.head?_dropWhile_not isBlank (cs.dropWhile isBlank).reverse
  rw [trimList, List.getLast?_reverse] at h
  rwa [h] at hBack

private theorem trimList_trimList (cs : List Char) : trimList (trimList cs) = trimList cs :=
  trimList_eq_self (fun _ => head_trimList) (fun _ => getLast_trimList)

theorem toList_trim (s : String) : (trim s).toList = trimList s.toList := String.toList_ofList

theorem trim_trim (s : String) : trim (trim s) = trim s := by
  rw [trim, toList_trim, trimList_trimList, trim]

theorem trimList_eq_self_of_forall (h : ∀ c ∈ cs, isBlank c = false) : trimList cs = cs :=
  trimList_eq_self (fun c hc => h c (List.mem_of_head? hc))
    (fun c hc => h c (List.mem_of_getLast? hc))

/-- A blank behind a text does not count. -/
theorem trimList_concat (h : isBlank c = true) : trimList (cs ++ [c]) = trimList cs := by
  rw [trimList, trimList, List.dropWhile_append]
  split
  · next hEmpty =>
    have hNone : cs.dropWhile isBlank = [] := List.isEmpty_iff.1 hEmpty
    simp [hNone, h]
  · simp [h]

/-! ## A closing line feed -/

theorem withoutClosingFeed_concat (cs : List Char) : withoutClosingFeed (cs ++ ['\n']) = cs := by
  simp [withoutClosingFeed]

theorem withoutClosingFeed_of_not_mem (h : '\n' ∉ cs) : withoutClosingFeed cs = cs :=
  if_neg fun hLast => h (List.mem_of_getLast? hLast)

/-- Nothing but a line feed is taken away. -/
theorem eq_or_eq_concat_feed (cs : List Char) :
    cs = withoutClosingFeed cs ∨ cs = withoutClosingFeed cs ++ ['\n'] := by
  by_cases h : cs.getLast? = some '\n'
  · obtain ⟨front, rfl⟩ := List.getLast?_eq_some_iff.1 h
    exact .inr (by rw [withoutClosingFeed_concat])
  · exact .inl (if_neg h).symm

/-- A closing line feed is all that is taken away where there are no other blanks. -/
theorem trimList_eq_withoutClosingFeed (h : ∀ c ∈ withoutClosingFeed cs, isBlank c = false) :
    trimList cs = withoutClosingFeed cs := by
  have hKept := trimList_eq_self_of_forall h
  rcases eq_or_eq_concat_feed cs with hcs | hcs
  · rwa [← hcs] at hKept ⊢
  · calc trimList cs
      _ = trimList (withoutClosingFeed cs ++ ['\n']) := congrArg trimList hcs
      _ = trimList (withoutClosingFeed cs) := trimList_concat (by decide)
      _ = withoutClosingFeed cs := hKept

end ViewMarkup.Text
