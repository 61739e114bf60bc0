import Mathlib.Data.Nat.Notation
import Mathlib.Tactic.TypeStar

/-!
# Fallible calls: errors, panics and updates in place

A call of the modelled language ends in one of three ways: a value, an error its caller can
inspect, or a panic, which unwinds the thread and hands no value to anybody.

* `Fault ε` -- what a call ends with when it yields no value; `Outcome ε α` is its result type.
* `rejectIf`, `orFail`, `orPanic` -- the early returns (`if c { return Err(e) }`, `ok_or(e)?`,
  `expect`), each with the rule that inverts it under a bind.
* `Applied ε σ α` -- the result of a call that updates a state in place: the state it leaves
  behind is there after an error too.
* `Applied.AllOrNothing s x` -- a failure leaves `s` behind.
* `Avoids x e` -- the call does not end in the error `e`.
-/

namespace WorldstreetChain

universe u v

/-- Why a call yields no value: an error returned to the caller, or a panic. -/
inductive Fault (ε : Type u) where
  | err (e : ε)
  | panic
  deriving DecidableEq, Repr

abbrev Outcome (ε : Type u) (α : Type v) := Except (Fault ε) α

namespace Outcome

variable {ε : Type u} {α β : Type v}

instance [DecidableEq ε] [DecidableEq α] : DecidableEq (Outcome ε α)
  | .ok a, .ok b => decidable_of_iff (a = b) (by simp)
  | .error e, .error f => decidable_of_iff (e = f) (by simp)
  | .ok _, .error _ => isFalse (by simp)
  | .error _, .ok _ => isFalse (by simp)

/-- `Result::is_ok`. -/
def isOk : Outcome ε α → Bool
  | .ok _ => true
  | .error _ => false

@[simp] theorem isOk_ok (a : α) : isOk (ε := ε) (.ok a : Except (Fault ε) α) = true := rfl

@[simp] theorem isOk_error (e : Fault ε) : isOk (α := α) (.error e : Except (Fault ε) α) = false :=
  rfl

/-- Whether the call panicked. -/
def isPanic : Outcome ε α → Bool
  | .error .panic => true
  | _ => false

theorem isOk_iff {x : Outcome ε α} : isOk x = true ↔ ∃ a, x = .ok a := by
  cases x <;> simp

theorem ok_bind (a : α) (f : α → Outcome ε β) : ((.ok a : Outcome ε α) >>= f) = f a := rfl

/-- **The bind rule**: a sequence that yields a value went through a value. -/
theorem bind_eq_ok {x : Outcome ε α} {f : α → Outcome ε β} {b : β} :
    (x >>= f) = .ok b ↔ ∃ a, x = .ok a ∧ f a = .ok b := by
  cases x with
  | error e => simp [bind, Except.bind]
  | ok a => simp [bind, Except.bind]

/-- `map_err`: another error, while a panic stays one. -/
def mapErr {ε' : Type u} (f : ε → ε') (x : Outcome ε α) : Outcome ε' α :=
  match x with
  | .ok a => .ok a
  | .error (.err e) => .error (.err (f e))
  | .error .panic => .error .panic

@[simp] theorem mapErr_ok {ε' : Type u} (f : ε → ε') (a : α) :
    mapErr f (.ok a : Except (Fault ε) α) = .ok a := rfl

@[simp] theorem mapErr_eq_ok {ε' : Type u} {f : ε → ε'} {x : Outcome ε α} {a : α} :
    mapErr f x = .ok a ↔ x = .ok a := by
  unfold mapErr
  split <;> simp

end Outcome

section EarlyReturn

variable {ε : Type u}

/-- `if c { return Err(e) }`. -/
def rejectIf (c : Prop) [Decidable c] (e : ε) : Outcome ε PUnit :=
  if c then .error (.err e) else .ok ⟨⟩

/-- `o.ok_or(e)?`. -/
def orFail {α : Type v} (o : Option α) (e : ε) : Outcome ε α :=
  match o with
  | some a => .ok a
  | none => .error (.err e)

/-- `o.expect(..)`. -/
def orPanic {α : Type v} (o : Option α) : Outcome ε α :=
  match o with
  | some a => .ok a
  | none => .error .panic

theorem rejectIf_eq_ok {c : Prop} [Decidable c] {e : ε} {x : PUnit} :
    rejectIf c e = .ok x ↔ ¬ c := by
  unfold rejectIf
  split <;> simp_all

@[simp] theorem rejectIf_pos {c : Prop} [Decidable c] {e : ε} (h : c) :
    rejectIf c e = .error (.err e) := if_pos h

@[simp] theorem rejectIf_neg {c : Prop} [Decidable c] {e : ε} (h : ¬ c) :
    rejectIf c e = .ok ⟨⟩ := if_neg h

theorem orFail_eq_ok {α : Type v} {o : Option α} {e : ε} {a : α} :
    orFail o e = .ok a ↔ o = some a := by
  cases o <;> simp [orFail]

theorem orFail_eq_error {α : Type v} {o : Option α} {e : ε} {f : Fault ε} :
    orFail o e = .error f ↔ o = none ∧ f = .err e := by
  cases o <;> simp [orFail, eq_comm]

@[simp] theorem orFail_some {α : Type v} (a : α) (e : ε) : orFail (some a) e = .ok a := rfl

@[simp] theorem orFail_none {α : Type v} (e : ε) : orFail (none : Option α) e = .error (.err e) :=
  rfl

theorem orPanic_eq_ok {α : Type v} {o : Option α} {a : α} :
    orPanic (ε := ε) o = .ok a ↔ o = some a := by
  cases o <;> simp [orPanic]

@[simp] theorem orPanic_some {α : Type v} (a : α) : orPanic (ε := ε) (some a) = .ok a := rfl

/-- Past a test: the test did not fire and the rest succeeded. -/
theorem rejectIf_bind_eq_ok {α : Type} {c : Prop} [Decidable c] {e : ε}
    {f : PUnit → Outcome ε α} {a : α} :
    (rejectIf c e >>= f) = .ok a ↔ ¬ c ∧ f ⟨⟩ = .ok a := by
  by_cases h : c
  · simp [h, bind, Except.bind]
  · simp [h, bind, Except.bind]

theorem orFail_bind_eq_ok {α β : Type v} {o : Option α} {e : ε} {f : α → Outcome ε β} {b : β} :
    (orFail o e >>= f) = .ok b ↔ ∃ a, o = some a ∧ f a = .ok b := by
  simp only [Outcome.bind_eq_ok, orFail_eq_ok]

/-! ### Panics -/

/-- A sequence panics where one of its parts does, the later ones where they are reached. -/
theorem bind_eq_panic {α β : Type v} {x : Outcome ε α} {f : α → Outcome ε β} :
    (x >>= f) = .error .panic ↔ x = .error .panic ∨ ∃ a, x = .ok a ∧ f a = .error .panic := by
  cases x with
  | error e => simp [bind, Except.bind]
  | ok a => simp [bind, Except.bind]

theorem rejectIf_bind_eq_panic {α : Type} {c : Prop} [Decidable c] {e : ε}
    {f : PUnit → Outcome ε α} :
    (rejectIf c e >>= f) = .error .panic ↔ ¬ c ∧ f ⟨⟩ = .error .panic := by
  by_cases h : c
  · simp [h, bind, Except.bind]
  · simp [h, bind, Except.bind]

theorem orFail_bind_eq_panic {α β : Type v} {o : Option α} {e : ε} {f : α → Outcome ε β} :
    (orFail o e >>= f) = .error .panic ↔ ∃ a, o = some a ∧ f a = .error .panic := by
  cases o <;> simp [orFail, bind, Except.bind]

/-! ### Errors that cannot occur -/

/-- The call does not end in the error `e`. -/
def Avoids {α : Type v} (x : Outcome ε α) (e : ε) : Prop := x ≠ .error (.err e)

theorem avoids_ok {α : Type v} (a : α) (e : ε) : Avoids (.ok a : Except (Fault ε) α) e := nofun

theorem avoids_rejectIf {c : Prop} [Decidable c] {e f : ε} (h : f ≠ e) :
    Avoids (rejectIf c f) e := by
  unfold rejectIf
  split
  · exact fun hf => h (Fault.err.inj (Except.error.inj hf))
  · exact avoids_ok _ _

theorem avoids_orFail {α : Type v} {o : Option α} {e f : ε} (h : f ≠ e) :
    Avoids (orFail o f) e := by
  cases o with
  | none => exact fun hf => h (Fault.err.inj (Except.error.inj hf))
  | some a => exact avoids_ok _ _

/-- A sequence avoids an error if each of its parts does, the later ones where they are reached. -/
theorem Avoids.bind {α β : Type v} {x : Outcome ε α} {f : α → Outcome ε β} {e : ε}
    (hx : Avoids x e) (hf : ∀ a, x = .ok a → Avoids (f a) e) : Avoids (x >>= f) e := by
  cases x with
  | error g => exact fun h => hx (congrArg Except.error (Except.error.inj h))
  | ok a => exact hf a rfl

/-- Past a test for another error. -/
theorem Avoids.reject {α : Type} {c : Prop} [Decidable c] {e f : ε} {k : PUnit → Outcome ε α}
    (h : f ≠ e) (hk : ¬ c → Avoids (k ⟨⟩) e) : Avoids (rejectIf c f >>= k) e :=
  (avoids_rejectIf h).bind fun _ hc => hk (rejectIf_eq_ok.mp hc)

/-- Past a lookup that fails with another error. -/
theorem Avoids.lookup {α β : Type} {o : Option α} {e f : ε} {k : α → Outcome ε β}
    (h : f ≠ e) (hk : ∀ a, o = some a → Avoids (k a) e) : Avoids (orFail o f >>= k) e :=
  (avoids_orFail h).bind fun a ho => hk a (orFail_eq_ok.mp ho)

end EarlyReturn

/-- What a call updating a state in place leaves behind: its result and the state, which after
    an error is whatever had been written by then. -/
structure Applied (ε σ α : Type) where
  result : Outcome ε α
  state : σ

namespace Applied

variable {ε σ α : Type}

/-- The call that works on a clone and assigns it back only at the end. -/
def ofClone (s : σ) (r : Outcome ε (α × σ)) : Applied ε σ α :=
  match r with
  | .ok (a, s') => ⟨.ok a, s'⟩
  | .error e => ⟨.error e, s⟩

/-- The same call with its value turned into another. -/
def map {β : Type} (f : α → β) (x : Applied ε σ α) : Applied ε σ β :=
  ⟨x.result.map f, x.state⟩

/-- `r?` where the state is `s` by then: an error ends the call and leaves `s` behind. -/
def attempt {β : Type} (s : σ) (r : Outcome ε β) (k : β → Applied ε σ α) : Applied ε σ α :=
  match r with
  | .ok b => k b
  | .error e => ⟨.error e, s⟩

/-- One call after another: an error of the first ends both, and the state it leaves stays. -/
def andThen {β : Type} (x : Applied ε σ α) (k : α → σ → Applied ε σ β) : Applied ε σ β :=
  match x.result with
  | .ok a => k a x.state
  | .error e => ⟨.error e, x.state⟩

variable {β : Type} {s s' : σ} {a : α} {e : Fault ε}

theorem andThen_of_ok {x : Applied ε σ α} {k : α → σ → Applied ε σ β} (h : x.result = .ok a) :
    x.andThen k = k a x.state := by
  unfold andThen
  rw [h]

theorem andThen_of_error {x : Applied ε σ α} {k : α → σ → Applied ε σ β}
    (h : x.result = .error e) : x.andThen k = ⟨.error e, x.state⟩ := by
  unfold andThen
  rw [h]

/-- **The rule of sequences**: what holds behind the first call and is kept by the second holds
    behind both. -/
theorem andThen_rule {x : Applied ε σ α} {k : α → σ → Applied ε σ β} {P : σ → Prop}
    (hx : P x.state) (hk : ∀ a, x.result = .ok a → P (k a x.state).state) :
    P (x.andThen k).state := by
  unfold andThen
  cases h : x.result with
  | ok a => exact hk a h
  | error e => exact hx

theorem mk_eq_ok {x : Outcome ε α} : (⟨x, s⟩ : Applied ε σ α) = ⟨.ok a, s'⟩ ↔ x = .ok a ∧ s = s' := by
  simp

theorem eq_of_result {x : Applied ε σ α} {r : Outcome ε α} (h : x.result = r) :
    x = ⟨r, x.state⟩ := by
  rw [← h]

theorem map_eq_ok {f : α → β} {x : Applied ε σ α} {b : β} :
    x.map f = ⟨.ok b, s'⟩ ↔ ∃ a, x = ⟨.ok a, s'⟩ ∧ f a = b := by
  obtain ⟨r, s⟩ := x
  cases r with
  | error e => simp [map, Except.map]
  | ok a =>
    constructor
    · rintro ⟨⟩
      exact ⟨a, rfl, rfl⟩
    · rintro ⟨_, ⟨⟩, rfl⟩
      rfl

theorem map_result_eq_ok {f : α → β} {x : Applied ε σ α} {b : β} :
    (x.map f).result = .ok b ↔ ∃ a, x.result = .ok a ∧ f a = b := by
  obtain ⟨r, s⟩ := x
  cases r <;> simp [map, Except.map]

theorem map_eq_error {f : α → β} {x : Applied ε σ α} :
    x.map f = ⟨.error e, s'⟩ ↔ x = ⟨.error e, s'⟩ := by
  obtain ⟨r, s⟩ := x
  cases r <;> simp [map, Except.map]

/-- What holds of the state and of every one the clone can become holds in the end. -/
theorem ofClone_rule {P : σ → Prop} {r : Outcome ε (α × σ)} (h0 : P s)
    (h : ∀ a s', r = .ok (a, s') → P s') : P (ofClone s r).state := by
  cases r with
  | error e => exact h0
  | ok x => exact h x.1 x.2 rfl

theorem ofClone_result_eq_error {r : Outcome ε (α × σ)} :
    (ofClone s r).result = .error e ↔ r = .error e := by
  cases r with
  | error e => simp [ofClone]
  | ok x => simp [ofClone]

theorem ofClone_eq_ok {r : Outcome ε (α × σ)} :
    ofClone s r = ⟨.ok a, s'⟩ ↔ r = .ok (a, s') := by
  cases r with
  | error e => simp [ofClone]
  | ok x => simp [ofClone, Prod.ext_iff]

/-- A call on a clone that fails leaves the state as it was. -/
theorem ofClone_eq_error {r : Outcome ε (α × σ)} :
    ofClone s r = ⟨.error e, s'⟩ ↔ r = .error e ∧ s = s' := by
  cases r with
  | error e => simp [ofClone]
  | ok x => simp [ofClone]

@[simp] theorem attempt_ok (s : σ) (b : β) (k : β → Applied ε σ α) :
    attempt s (.ok b) k = k b := rfl

theorem attempt_of_ok {r : Outcome ε β} {b : β} {k : β → Applied ε σ α} (h : r = .ok b) :
    attempt s r k = k b := by
  rw [h, attempt_ok]

/-- Where what follows leaves the state as it is then, that state is left. -/
theorem attempt_state {r : Outcome ε β} {k : β → Applied ε σ α} (h : ∀ b, (k b).state = s) :
    (attempt s r k).state = s := by
  cases r with
  | ok b => exact h b
  | error e => rfl

theorem attempt_eq_ok {r : Outcome ε β} {k : β → Applied ε σ α} :
    attempt s r k = ⟨.ok a, s'⟩ ↔ ∃ b, r = .ok b ∧ k b = ⟨.ok a, s'⟩ := by
  cases r <;> simp [attempt]

theorem attempt_result_eq_error {r : Outcome ε β} {k : β → Applied ε σ α} :
    (attempt s r k).result = .error e ↔
      r = .error e ∨ ∃ b, r = .ok b ∧ (k b).result = .error e := by
  cases r <;> simp [attempt]

theorem attempt_eq_error {r : Outcome ε β} {k : β → Applied ε σ α} :
    attempt s r k = ⟨.error e, s'⟩ ↔
      (r = .error e ∧ s = s') ∨ ∃ b, r = .ok b ∧ k b = ⟨.error e, s'⟩ := by
  cases r <;> simp [attempt]

/-! ### All or nothing -/

/-- A call that starts at `s` and fails leaves `s` behind. -/
def AllOrNothing (s : σ) (x : Applied ε σ α) : Prop := ∀ e s', x = ⟨.error e, s'⟩ → s' = s

end Applied

end WorldstreetChain
