import Mathlib.Algebra.Order.Ring.Int
import Mathlib.Algebra.BigOperators.Group.List.Basic
import Mathlib.Data.List.Infix

/-!
# Runs of a machine driven by inputs

A machine is a total function `next : σ → ι → σ` (the state a call leaves behind, whether it
succeeded or not); a run is a list of inputs. What a run meets on its way is stated in two
forms, and the rules connect them:

* `Throughout next P s is` -- every state of the run satisfies `P`, the first and the last included;
* `EachStep next C s is` -- every input satisfies `C` at the state it is applied to;
* `EachStep.invariant`, `EachStep.throughout` -- a property kept by the steps that satisfy `C`
  holds at the end, and throughout;
* `EachStep.throughout_iff_guarded` -- a property each step keeps exactly under a guard holds
  throughout exactly if every step is guarded;
* `EachStep.throughout_iff_of_invariant` -- the same where the property rests on an invariant;
* `EachStep.iff_of_invariant` -- two conditions that agree under an invariant agree along runs;
* `EachStep.measure` -- a measure that each step changes by a known amount changes over the run
  by the sum of those amounts;
* `mem_emitted`, `EachStep.emitted_nodup` -- what the steps of a run emit; where a step marks what
  it emits, and emits only what is unmarked, a run emits everything at most once.
-/

namespace WorldstreetChain

universe u v

variable {σ : Type u} {ι : Type v}

/-- The state a list of inputs leads to. -/
def runs (next : σ → ι → σ) (s : σ) (is : List ι) : σ := is.foldl next s

/-- Every state of the run satisfies `P`. -/
def Throughout (next : σ → ι → σ) (P : σ → Prop) : σ → List ι → Prop
  | s, [] => P s
  | s, i :: is => P s ∧ Throughout next P (next s i) is

/-- Every input satisfies `C` at the state it is applied to. -/
def EachStep (next : σ → ι → σ) (C : σ → ι → Prop) : σ → List ι → Prop
  | _, [] => True
  | s, i :: is => C s i ∧ EachStep next C (next s i) is

/-- Whether every step meets a decidable condition can be computed. -/
def EachStep.decide {next : σ → ι → σ} {C : σ → ι → Prop} [∀ s i, Decidable (C s i)] :
    ∀ s is, Decidable (EachStep next C s is)
  | _, [] => isTrue trivial
  | s, i :: is => @instDecidableAnd _ _ inferInstance (EachStep.decide (next s i) is)

instance {next : σ → ι → σ} {C : σ → ι → Prop} [∀ s i, Decidable (C s i)] (s : σ) (is : List ι) :
    Decidable (EachStep next C s is) :=
  EachStep.decide s is

/-- Whether every state meets a decidable condition can be computed. -/
def Throughout.decide {next : σ → ι → σ} {P : σ → Prop} [∀ s, Decidable (P s)] :
    ∀ s is, Decidable (Throughout next P s is)
  | s, [] => inferInstanceAs (Decidable (P s))
  | s, i :: is => @instDecidableAnd _ _ inferInstance (Throughout.decide (next s i) is)

instance {next : σ → ι → σ} {P : σ → Prop} [∀ s, Decidable (P s)] (s : σ) (is : List ι) :
    Decidable (Throughout next P s is) :=
  Throughout.decide s is

section Rules

variable {next : σ → ι → σ} {P : σ → Prop} {C : σ → ι → Prop}

@[simp] theorem runs_nil (s : σ) : runs next s [] = s := rfl

@[simp] theorem runs_cons (s : σ) (i : ι) (is : List ι) :
    runs next s (i :: is) = runs next (next s i) is := rfl

theorem runs_append (s : σ) (is js : List ι) :
    runs next s (is ++ js) = runs next (runs next s is) js :=
  List.foldl_append ..

theorem Throughout.head {s : σ} {is : List ι} (h : Throughout next P s is) : P s := by
  cases is with
  | nil => exact h
  | cons i is => exact h.1

theorem Throughout.last {s : σ} {is : List ι} (h : Throughout next P s is) :
    P (runs next s is) := by
  induction is generalizing s with
  | nil => exact h
  | cons i is ih => exact ih h.2

theorem throughout_and {Q : σ → Prop} {s : σ} {is : List ι} :
    Throughout next (fun s => P s ∧ Q s) s is ↔ Throughout next P s is ∧ Throughout next Q s is := by
  induction is generalizing s with
  | nil => exact Iff.rfl
  | cons i is ih =>
    constructor
    · rintro ⟨⟨hP, hQ⟩, h⟩
      exact ⟨⟨hP, (ih.mp h).1⟩, hQ, (ih.mp h).2⟩
    · rintro ⟨⟨hP, h⟩, hQ, h'⟩
      exact ⟨⟨hP, hQ⟩, ih.mpr ⟨h, h'⟩⟩

/-- Every state of the run is the one some prefix of the inputs leads to. -/
theorem throughout_iff {s : σ} {is : List ι} :
    Throughout next P s is ↔ ∀ pre, pre <+: is → P (runs next s pre) := by
  induction is generalizing s with
  | nil =>
    constructor
    · rintro h pre hp
      rw [List.prefix_nil.mp hp]
      exact h
    · exact fun h => h [] (List.prefix_refl _)
  | cons i is ih =>
    constructor
    · rintro ⟨h0, h⟩ pre hp
      cases pre with
      | nil => exact h0
      | cons j pre =>
        obtain ⟨rfl, hp'⟩ := List.cons_prefix_cons.mp hp
        exact ih.mp h pre hp'
    · intro h
      refine ⟨h [] (List.nil_prefix), ih.mpr fun pre hp => ?_⟩
      exact h (i :: pre) (List.cons_prefix_cons.mpr ⟨rfl, hp⟩)

theorem eachStep_append {s : σ} {is js : List ι} :
    EachStep next C s (is ++ js) ↔ EachStep next C s is ∧ EachStep next C (runs next s is) js := by
  induction is generalizing s with
  | nil => simp [EachStep]
  | cons i is ih => simp only [List.cons_append, EachStep, ih, runs_cons, and_assoc]

/-- A condition on the inputs alone. -/
theorem EachStep.of_forall {D : ι → Prop} {s : σ} {is : List ι} (h : ∀ i ∈ is, D i) :
    EachStep next (fun _ i => D i) s is := by
  induction is generalizing s with
  | nil => trivial
  | cons i is ih =>
    exact ⟨h i List.mem_cons_self, ih fun j hj => h j (List.mem_cons_of_mem _ hj)⟩

theorem EachStep.mono {C' : σ → ι → Prop} (hC : ∀ s i, C s i → C' s i) {s : σ} {is : List ι}
    (h : EachStep next C s is) : EachStep next C' s is := by
  induction is generalizing s with
  | nil => trivial
  | cons i is ih => exact ⟨hC s i h.1, ih h.2⟩

theorem EachStep.and {C' : σ → ι → Prop} {s : σ} {is : List ι} (h : EachStep next C s is)
    (h' : EachStep next C' s is) : EachStep next (fun s i => C s i ∧ C' s i) s is := by
  induction is generalizing s with
  | nil => trivial
  | cons i is ih => exact ⟨⟨h.1, h'.1⟩, ih h.2 h'.2⟩

/-- **The invariant rule**, with every state on the way. -/
theorem EachStep.throughout (hstep : ∀ s i, C s i → P s → P (next s i)) {s : σ} {is : List ι}
    (h : EachStep next C s is) (h0 : P s) : Throughout next P s is := by
  induction is generalizing s with
  | nil => exact h0
  | cons i is ih => exact ⟨h0, ih h.2 (hstep s i h.1 h0)⟩

/-- **The invariant rule.** -/
theorem EachStep.invariant (hstep : ∀ s i, C s i → P s → P (next s i)) {s : σ} {is : List ι}
    (h : EachStep next C s is) (h0 : P s) : P (runs next s is) :=
  (h.throughout hstep h0).last

/-- **The exactness rule**: where a step from a good state keeps it good exactly under a guard,
    every state of a run is good exactly if every step meets its guard. -/
theorem EachStep.throughout_iff_guarded {G : σ → ι → Prop}
    (hstep : ∀ s i, C s i → P s → (P (next s i) ↔ G s i)) {s : σ} {is : List ι}
    (h : EachStep next C s is) (h0 : P s) : Throughout next P s is ↔ EachStep next G s is := by
  induction is generalizing s with
  | nil => exact iff_of_true h0 trivial
  | cons i is ih =>
    constructor
    · rintro ⟨-, ht⟩
      exact ⟨(hstep s i h.1 h0).mp ht.head, (ih h.2 ht.head).mp ht⟩
    · rintro ⟨hg, hgs⟩
      have h1 := (hstep s i h.1 h0).mpr hg
      exact ⟨h0, (ih h.2 h1).mpr hgs⟩

/-- **The exactness rule with an invariant**: where a guarded step keeps the invariant, the
    invariant implies what is asked for, and a step that leaves what is asked for was guarded, every
    state of a run is as asked for exactly if every step meets its guard. -/
theorem EachStep.throughout_iff_of_invariant {G : σ → ι → Prop} {I : σ → Prop}
    (hkept : ∀ s i, C s i → I s → G s i → I (next s i)) (hI : ∀ s, I s → P s)
    (hguard : ∀ s i, C s i → I s → P (next s i) → G s i) {s : σ} {is : List ι}
    (h : EachStep next C s is) (h0 : I s) : Throughout next P s is ↔ EachStep next G s is := by
  induction is generalizing s with
  | nil => exact iff_of_true (hI s h0) trivial
  | cons i is ih =>
    constructor
    · rintro ⟨-, ht⟩
      have hg := hguard s i h.1 h0 ht.head
      exact ⟨hg, (ih h.2 (hkept s i h.1 h0 hg)).mp ht⟩
    · rintro ⟨hg, hgs⟩
      exact ⟨hI s h0, (ih h.2 (hkept s i h.1 h0 hg)).mpr hgs⟩

/-- Where two conditions agree on states with an invariant that every step keeps, a run meets one
    exactly if it meets the other. -/
theorem EachStep.iff_of_invariant {C' : σ → ι → Prop} {I : σ → Prop}
    (hkept : ∀ s i, I s → I (next s i)) (hiff : ∀ s i, I s → (C s i ↔ C' s i)) {s : σ}
    {is : List ι} (h0 : I s) : EachStep next C s is ↔ EachStep next C' s is := by
  induction is generalizing s with
  | nil => exact Iff.rfl
  | cons i is ih => exact and_congr (hiff s i h0) (ih (hkept s i h0))

/-- **The accounting rule**: what each step adds to a measure adds up over the run. -/
theorem EachStep.measure {m : σ → ℤ} {d : ι → ℤ}
    (hstep : ∀ s i, C s i → m (next s i) = m s + d i) {s : σ} {is : List ι}
    (h : EachStep next C s is) : m (runs next s is) = m s + (is.map d).sum := by
  induction is generalizing s with
  | nil => simp
  | cons i is ih =>
    rw [runs_cons, ih h.2, hstep s i h.1, List.map_cons, List.sum_cons]
    omega

end Rules

/-! ### What a run emits -/

section Emitted

variable {κ : Type*} {next : σ → ι → σ} {C : σ → ι → Prop}

/-- What the steps of a run emit, the oldest first. -/
def emitted (next : σ → ι → σ) (emits : σ → ι → Option κ) : σ → List ι → List κ
  | _, [] => []
  | s, i :: is => (emits s i).toList ++ emitted next emits (next s i) is

/-- What is emitted is emitted by some step of the run. -/
theorem mem_emitted {emits : σ → ι → Option κ} {s : σ} {is : List ι} {k : κ} :
    k ∈ emitted next emits s is ↔
      ∃ pre i post, is = pre ++ i :: post ∧ emits (runs next s pre) i = some k := by
  induction is generalizing s with
  | nil => simp [emitted]
  | cons i is ih =>
    rw [emitted, List.mem_append, Option.mem_toList, ih]
    constructor
    · rintro (h | ⟨pre, j, post, rfl, h⟩)
      · exact ⟨[], i, is, rfl, h⟩
      · exact ⟨i :: pre, j, post, rfl, h⟩
    · rintro ⟨pre, j, post, his, h⟩
      cases pre with
      | nil =>
        cases his
        exact Or.inl h
      | cons i' pre =>
        cases his
        exact Or.inr ⟨pre, j, post, rfl, h⟩

/-- **The rule of marks**: what is emitted was not marked before and is marked from then on, so
    nothing is emitted twice. -/
theorem EachStep.emitted_nodup {emits : σ → ι → Option κ} (marked : σ → κ → Prop)
    (hnew : ∀ s i k, C s i → emits s i = some k → ¬ marked s k ∧ marked (next s i) k)
    (hkept : ∀ s i k, C s i → marked s k → marked (next s i) k) {s : σ} {is : List ι}
    (h : EachStep next C s is) :
    (emitted next emits s is).Nodup ∧ ∀ k ∈ emitted next emits s is, ¬ marked s k := by
  induction is generalizing s with
  | nil => exact ⟨List.nodup_nil, fun k hk => by cases hk⟩
  | cons i is ih =>
    obtain ⟨hnodup, hunmarked⟩ := ih h.2
    have hback : ∀ k ∈ emitted next emits (next s i) is, ¬ marked s k :=
      fun k hk hm => hunmarked k hk (hkept s i k h.1 hm)
    rw [emitted]
    cases he : emits s i with
    | none => exact ⟨hnodup, hback⟩
    | some k =>
      obtain ⟨hold, hmarked⟩ := hnew s i k h.1 he
      refine ⟨List.nodup_cons.mpr ⟨fun hk => hunmarked k hk hmarked, hnodup⟩, fun j hj => ?_⟩
      rcases List.mem_cons.mp hj with rfl | hj
      · exact hold
      · exact hback j hj

end Emitted

end WorldstreetChain
