import Mathlib.Data.List.DropRight

/-!
# Texts that are cut

A text is cut at the first place where a separator stands, and what a class allows is taken off its
two ends.

* `Text.splitOnce`, `Text.contains` -- at the first separator, and whether there is one.
* `Text.splitOnce_found` -- **the first place**, where the separator's first character stands
  nowhere before it.
* `Text.trim`, `Text.exists_trim` -- both ends.
-/

namespace WorldstreetChain

namespace Text

variable {α : Type}

/-! ## 1. The first separator -/

section Separator

variable [DecidableEq α]

/-- `str::split_once`: what stands before the first separator, and what stands behind it. -/
def splitOnce (sep : List α) : List α → Option (List α × List α)
  | [] => if sep = [] then some ([], []) else none
  | c :: cs =>
    if sep.isPrefixOf (c :: cs) then some ([], (c :: cs).drop sep.length)
    else (splitOnce sep cs).map fun halves => (c :: halves.1, halves.2)

/-- `str::contains`. -/
def contains (sep l : List α) : Bool := (splitOnce sep l).isSome

variable {sep l a b : List α} {c : α}

theorem splitOnce_eq_some (h : splitOnce sep l = some (a, b)) : l = a ++ (sep ++ b) := by
  induction l generalizing a with
  | nil =>
    unfold splitOnce at h
    split at h
    · rename_i hsep
      cases h
      rw [hsep]
      rfl
    · cases h
  | cons c cs ih =>
    unfold splitOnce at h
    split at h
    · rename_i hlead
      cases h
      obtain ⟨rest, hrest⟩ := List.isPrefixOf_iff_prefix.mp hlead
      rw [← hrest, List.drop_left, List.nil_append]
    · obtain ⟨⟨a', b'⟩, hcs, hhalves⟩ := Option.map_eq_some_iff.mp h
      cases hhalves
      rw [ih hcs]
      rfl

theorem not_isPrefixOf_of_ne {d : α} (h : d ≠ c) : (c :: sep).isPrefixOf (d :: l) = false := by
  rw [List.isPrefixOf, beq_eq_false_iff_ne.mpr (Ne.symm h), Bool.false_and]

/-- **The first place of a separator** whose first character stands nowhere before it. -/
theorem splitOnce_found (h : c ∉ a) :
    splitOnce (c :: sep) (a ++ ((c :: sep) ++ b)) = some (a, b) := by
  induction a with
  | nil =>
    have hlead : (c :: sep).isPrefixOf (c :: (sep ++ b)) = true :=
      List.isPrefixOf_iff_prefix.mpr ⟨b, rfl⟩
    rw [List.nil_append, List.cons_append, splitOnce, if_pos hlead, ← List.cons_append,
      List.drop_left]
  | cons d a ih =>
    have hd : d ≠ c := fun hd => h (hd ▸ List.mem_cons_self)
    rw [List.cons_append, splitOnce, not_isPrefixOf_of_ne hd, if_neg Bool.false_ne_true,
      ih fun hc => h (List.mem_cons_of_mem d hc)]
    rfl

theorem splitOnce_eq_none (h : c ∉ l) : splitOnce (c :: sep) l = none := by
  induction l with
  | nil => rfl
  | cons d l ih =>
    have hd : d ≠ c := fun hd => h (hd ▸ List.mem_cons_self)
    rw [splitOnce, not_isPrefixOf_of_ne hd, if_neg Bool.false_ne_true,
      ih fun hc => h (List.mem_cons_of_mem d hc)]
    rfl

end Separator

/-! ## 2. The ends -/

section Ends

/-- `str::trim_matches`, with a class of characters. -/
def trim (p : α → Bool) (l : List α) : List α := (l.dropWhile p).rdropWhile p

variable {l s t : List α} {c : α} {p : α → Bool}

/-- What is taken off the ends is of the class. -/
theorem exists_trim (p : α → Bool) (l : List α) : ∃ s t, (∀ c ∈ s, p c = true) ∧
    (∀ c ∈ t, p c = true) ∧ l = s ++ (trim p l ++ t) := by
  refine ⟨l.takeWhile p, (l.dropWhile p).rtakeWhile p, fun c hc => List.mem_takeWhile_imp hc,
    fun c hc => List.mem_rtakeWhile_imp hc, ?_⟩
  unfold trim
  rw [List.rdropWhile_append_rtakeWhile, List.takeWhile_append_dropWhile]

theorem dropWhile_append_of_all (h : ∀ c ∈ s, p c = true) (l : List α) :
    (s ++ l).dropWhile p = l.dropWhile p := by
  rw [List.dropWhile_append, if_pos (by rw [List.dropWhile_eq_nil_iff.mpr h]; rfl)]

theorem rdropWhile_append_of_all (h : ∀ c ∈ t, p c = true) (l : List α) :
    (l ++ t).rdropWhile p = l.rdropWhile p := by
  unfold List.rdropWhile
  rw [List.reverse_append, dropWhile_append_of_all fun c hc => h c (List.mem_reverse.mp hc)]

/-- **A text whose ends are not of the class** is what is left of it between ends that are. -/
theorem trim_append (hs : ∀ c ∈ s, p c = true) (ht : ∀ c ∈ t, p c = true)
    (hfirst : ∀ c, l.head? = some c → p c = false)
    (hlast : ∀ c, l.getLast? = some c → p c = false) : trim p (s ++ (l ++ t)) = l := by
  unfold trim
  rw [dropWhile_append_of_all hs]
  cases l with
  | nil =>
    rw [List.nil_append, List.dropWhile_eq_nil_iff.mpr ht]
    rfl
  | cons c l =>
    have hc : ¬ p c = true := by
      rw [hfirst c rfl]
      exact Bool.false_ne_true
    rw [List.cons_append, List.dropWhile_cons_of_neg hc, ← List.cons_append,
      rdropWhile_append_of_all ht]
    refine List.rdropWhile_eq_self_iff.mpr fun hne hp => ?_
    rw [hlast _ (List.getLast?_eq_some_getLast hne)] at hp
    cases hp

end Ends

end Text

end WorldstreetChain
