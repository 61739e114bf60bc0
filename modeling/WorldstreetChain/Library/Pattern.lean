import WorldstreetChain.Library.Text

/-!
# Patterns that are searched for in texts

A pattern is a row of literal texts and captured runs of characters of a class. A run takes as
many characters as it can and gives back as many as the rest of the pattern needs; a search takes
the leftmost place where the pattern fits.

* `Pattern.matchAt`, `Pattern.search` -- what a pattern captures at the front of a text, and in it.
* `Pattern.search_fits` -- **what is captured** is of the run's class and length.
* `Pattern.search_renders` -- **reading back**: a pattern finds in a text what it was made from, if
  each run stops where its class ends.
-/

namespace WorldstreetChain

namespace Pattern

/-- A literal text, or a captured run of a class with a least and perhaps a greatest length. -/
inductive Piece where
  | text (s : List Char)
  | run (least : Nat) (most : Option Nat) (p : Char → Bool)

/-- The longest run of a class at the front of a text. -/
def longest (most : Option Nat) (p : Char → Bool) (cs : List Char) : Nat :=
  match most with
  | none => (cs.takeWhile p).length
  | some m => min m (cs.takeWhile p).length

/-- What the runs capture where the pattern fits the front of a text, longer runs first. -/
def matchAt : List Piece → List Char → Option (List (List Char))
  | [], _ => some []
  | .text s :: ps, cs => if s.isPrefixOf cs then matchAt ps (cs.drop s.length) else none
  | .run least most p :: ps, cs =>
    ((List.range (longest most p cs + 1)).reverse.filter (least ≤ ·)).findSome? fun n =>
      (matchAt ps (cs.drop n)).map (cs.take n :: ·)

/-- What the runs capture at the leftmost place where the pattern fits. -/
def search (ps : List Piece) : List Char → Option (List (List Char))
  | [] => matchAt ps []
  | c :: cs => (matchAt ps (c :: cs)).or (search ps cs)

/-! ## 1. What is captured -/

/-- The captured runs have the classes and the lengths of the pattern. -/
inductive Fits : List Piece → List (List Char) → Prop where
  | nil : Fits [] []
  | text {ps : List Piece} {gs : List (List Char)} (s : List Char) (h : Fits ps gs) :
      Fits (.text s :: ps) gs
  | run {ps : List Piece} {gs : List (List Char)} {least : Nat} {most : Option Nat}
      {p : Char → Bool} (g : List Char) (hclass : ∀ c ∈ g, p c = true)
      (hleast : least ≤ g.length) (hmost : ∀ m, most = some m → g.length ≤ m) (h : Fits ps gs) :
      Fits (.run least most p :: ps) (g :: gs)

theorem longest_le_most {most : Option Nat} {p : Char → Bool} {cs : List Char} {m : Nat}
    (h : most = some m) : longest most p cs ≤ m := by
  subst h
  exact Nat.min_le_left _ _

theorem longest_le_takeWhile (most : Option Nat) (p : Char → Bool) (cs : List Char) :
    longest most p cs ≤ (cs.takeWhile p).length := by
  cases most with
  | none => exact Nat.le_refl _
  | some m => exact Nat.min_le_right _ _

theorem takeWhile_take {p : Char → Bool} {cs : List Char} {n : Nat}
    (h : n ≤ (cs.takeWhile p).length) : ∀ c ∈ cs.take n, p c = true := by
  intro c hc
  have hpre : cs.take n <+: cs.takeWhile p := by
    refine List.prefix_of_prefix_length_le (List.take_prefix n cs) (List.takeWhile_prefix p) ?_
    rw [List.length_take]
    omega
  exact List.all_eq_true.mp List.all_takeWhile c (hpre.subset hc)

theorem matchAt_fits {ps : List Piece} {cs : List Char} {gs : List (List Char)}
    (h : matchAt ps cs = some gs) : Fits ps gs := by
  induction ps generalizing cs gs with
  | nil =>
    cases h
    exact .nil
  | cons piece ps ih =>
    cases piece with
    | text s =>
      unfold matchAt at h
      split at h
      · exact .text s (ih h)
      · cases h
    | run least most p =>
      unfold matchAt at h
      obtain ⟨n, hn, h⟩ := List.exists_of_findSome?_eq_some h
      obtain ⟨gs, hgs, rfl⟩ := Option.map_eq_some_iff.mp h
      obtain ⟨hrange, hleast⟩ := List.mem_filter.mp hn
      have hle : n ≤ longest most p cs :=
        Nat.lt_succ_iff.mp (List.mem_range.mp (List.mem_reverse.mp hrange))
      have htake := hle.trans (longest_le_takeWhile most p cs)
      have hlength : (cs.take n).length = n := by
        rw [List.length_take]
        exact Nat.min_eq_left (htake.trans (List.takeWhile_prefix p).length_le)
      refine .run _ (takeWhile_take htake) ?_ (fun m hm => ?_) (ih hgs)
      · rw [hlength]
        exact of_decide_eq_true hleast
      · rw [hlength]
        exact hle.trans (longest_le_most hm)

theorem search_fits {ps : List Piece} {cs : List Char} {gs : List (List Char)}
    (h : search ps cs = some gs) : Fits ps gs := by
  induction cs with
  | nil => exact matchAt_fits h
  | cons c cs ih =>
    rcases Option.or_eq_some_iff.mp h with h | ⟨-, h⟩
    · exact matchAt_fits h
    · exact ih h

/-! ## 2. Reading back -/

/-- The text is made from the pattern and the runs, and no run can be made longer. -/
inductive Renders : List Piece → List (List Char) → List Char → Prop where
  | nil (rest : List Char) : Renders [] [] rest
  | text {ps : List Piece} {gs : List (List Char)} {cs : List Char} (s : List Char)
      (h : Renders ps gs cs) : Renders (.text s :: ps) gs (s ++ cs)
  | run {ps : List Piece} {gs : List (List Char)} {cs : List Char} {least : Nat}
      {most : Option Nat} {p : Char → Bool} (g : List Char) (hclass : ∀ c ∈ g, p c = true)
      (hleast : least ≤ g.length) (hmost : ∀ m, most = some m → g.length ≤ m)
      (hends : ∀ c, cs.head? = some c → p c = false) (h : Renders ps gs cs) :
      Renders (.run least most p :: ps) (g :: gs) (g ++ cs)

theorem takeWhile_run {p : Char → Bool} {g cs : List Char} (hclass : ∀ c ∈ g, p c = true)
    (hends : ∀ c, cs.head? = some c → p c = false) : (g ++ cs).takeWhile p = g := by
  rw [List.takeWhile_append_of_pos hclass]
  cases cs with
  | nil => simp
  | cons c cs => rw [List.takeWhile_cons, if_neg (by rw [hends c rfl]; decide), List.append_nil]

theorem matchAt_renders {ps : List Piece} {gs : List (List Char)} {cs : List Char}
    (h : Renders ps gs cs) : matchAt ps cs = some gs := by
  induction h with
  | nil rest => rfl
  | @text ps gs cs s h ih =>
    have hpre : s.isPrefixOf (s ++ cs) = true :=
      List.isPrefixOf_iff_prefix.mpr (List.prefix_append s cs)
    rw [matchAt, if_pos hpre, List.drop_left, ih]
  | @run ps gs cs least most p g hclass hleast hmost hends h ih =>
    have hlongest : longest most p (g ++ cs) = g.length := by
      cases most with
      | none => rw [longest, takeWhile_run hclass hends]
      | some m => rw [longest, takeWhile_run hclass hends, Nat.min_eq_right (hmost m rfl)]
    -- the longest run is tried first
    rw [matchAt, hlongest, List.range_succ, List.reverse_append, List.reverse_singleton,
      List.singleton_append, List.filter_cons, if_pos (decide_eq_true hleast), List.findSome?_cons,
      List.drop_left, ih, List.take_left]
    rfl

/-- A pattern that begins with a character is not found where that character is missing. -/
theorem search_append {c : Char} {s : List Char} {ps : List Piece} {pre : List Char}
    (hs : s.head? = some c) (hc : c ∉ pre) (cs : List Char) :
    search (.text s :: ps) (pre ++ cs) = search (.text s :: ps) cs := by
  induction pre with
  | nil => rfl
  | cons d pre ih =>
    have hpre : ¬ s.isPrefixOf (d :: (pre ++ cs)) = true := by
      rw [List.isPrefixOf_iff_prefix]
      intro hp
      rcases hp with ⟨rest, hp⟩
      cases s with
      | nil => cases hs
      | cons c' s =>
        cases hs
        exact hc (List.mem_cons.mpr (Or.inl (List.cons.inj hp).1))
    rw [List.cons_append, search, matchAt, if_neg hpre, Option.none_or]
    exact ih fun hm => hc (List.mem_cons_of_mem d hm)

/-- **Reading back**: a search finds what the text was made from. -/
theorem search_renders {c : Char} {s : List Char} {ps : List Piece} {gs : List (List Char)}
    {pre cs : List Char} (hs : s.head? = some c) (hc : c ∉ pre)
    (h : Renders (.text s :: ps) gs cs) : search (.text s :: ps) (pre ++ cs) = some gs := by
  rw [search_append hs hc]
  cases cs with
  | nil => exact matchAt_renders h
  | cons d cs => rw [search, matchAt_renders h, Option.some_or]

end Pattern

end WorldstreetChain
