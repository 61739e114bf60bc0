import Mathlib.Data.List.Basic
import Mathlib.Algebra.Order.Ring.Int

/-!
# Texts put together from fields

A text is a list of characters. When its fields are joined, what tells them apart again is a
character that one of them cannot contain.

* `Text.first_inj`, `Text.last_inj` -- the text up to a character, and the text after its last
  occurrence.
* `Text.numeral_inj` -- a numeral at the end, after a label that does not end in a digit.
-/

namespace WorldstreetChain

namespace Text

/-- What stands before the first occurrence of a character is read off the text. -/
theorem first_inj {α : Type} {c : α} {xs xs' ys ys' : List α} (hx : c ∉ xs) (hx' : c ∉ xs')
    (h : xs ++ c :: ys = xs' ++ c :: ys') : xs = xs' ∧ ys = ys' := by
  induction xs generalizing xs' with
  | nil =>
    cases xs' with
    | nil => exact ⟨rfl, (List.cons.inj h).2⟩
    | cons d xs' =>
      refine absurd ?_ hx'
      rw [(List.cons.inj h).1]
      exact List.mem_cons_self
  | cons d xs ih =>
    cases xs' with
    | nil =>
      refine absurd ?_ hx
      rw [← (List.cons.inj h).1]
      exact List.mem_cons_self
    | cons d' xs' =>
      obtain ⟨hd, h⟩ := List.cons.inj h
      obtain ⟨hxs, hys⟩ := ih (fun hm => hx (List.mem_cons_of_mem _ hm))
        (fun hm => hx' (List.mem_cons_of_mem _ hm)) h
      rw [hd, hxs]
      exact ⟨rfl, hys⟩

/-- What stands after the last occurrence of a character is read off the text. -/
theorem last_inj {α : Type} {c : α} {xs xs' ys ys' : List α} (hy : c ∉ ys) (hy' : c ∉ ys')
    (h : xs ++ c :: ys = xs' ++ c :: ys') : xs = xs' ∧ ys = ys' := by
  have hr := congrArg List.reverse h
  simp only [List.reverse_append, List.reverse_cons, List.append_assoc, List.singleton_append]
    at hr
  obtain ⟨hys, hxs⟩ := first_inj (fun hm => hy (List.mem_reverse.mp hm))
    (fun hm => hy' (List.mem_reverse.mp hm)) hr
  exact ⟨List.reverse_injective hxs, List.reverse_injective hys⟩

theorem not_mem_toString {c : Char} (hc : c.isDigit = false) (n : Nat) :
    c ∉ (toString n).toList := by
  rw [Nat.toString_eq_repr, Nat.toList_repr]
  intro hm
  have hd := Nat.isDigit_of_mem_toDigits (by decide) (by decide) hm
  rw [hc] at hd
  cases hd

theorem toString_toList_inj {n m : Nat} (h : (toString n).toList = (toString m).toList) :
    n = m := by
  rw [Nat.toString_eq_repr, Nat.toString_eq_repr, Nat.toList_repr, Nat.toList_repr] at h
  have hv := congrArg (fun ds => Nat.ofDigitChars 10 ds 0) h
  simpa only [Nat.ofDigitChars_ten_toDigits] using hv

/-- **A numeral at the end of a text** is read off it, with what stands before its label. -/
theorem numeral_inj {xs xs' label : List Char} {c : Char} {n m : Nat} (hc : c.isDigit = false)
    (h : xs ++ label ++ c :: (toString n).toList = xs' ++ label ++ c :: (toString m).toList) :
    xs = xs' ∧ n = m := by
  obtain ⟨hxs, hn⟩ := last_inj (not_mem_toString hc n) (not_mem_toString hc m) h
  exact ⟨List.append_cancel_right hxs, toString_toList_inj hn⟩

end Text

end WorldstreetChain
