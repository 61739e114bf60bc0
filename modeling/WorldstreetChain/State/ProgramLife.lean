import WorldstreetChain.State.Processed
import WorldstreetChain.State.Registry

/-!
# The life of a program

What the state keeps of a program is a summary of what has been applied to it. The abstract
program is a machine of its own: it is unborn, lives with a store of keys, or is dead; its moves
are the operations that took effect.

* `Life`, `Life.step`, `Life.Allows` -- the abstract program.
* `State.effective` -- the operations that took effect.
* `State.program_registry_refines` -- **the registry is a summary of the moves**, which are all
  allowed; what a key holds is the value it was last set to.
-/

namespace WorldstreetChain

open Std
open Postcard (utf8)

/-! ## 1. The abstract program -/

/-- A program before it is deployed, while it is open, and after it has been closed. -/
inductive Life where
  | unborn
  | alive (package : List UInt8) (creator : Address) (deployedAtHeight : U64)
      (storage : String → Option String)
  | dead (closedAtHeight : U64)

namespace Life

variable (E : Env) (id : String)

/-- What an operation on the program makes of it. -/
def move (l : Life) (o : ProgramOperation) (height : U64) : Life :=
  match o.kind, l with
  | .deploy, _ => .alive o.package (E.crypto.addressFromPublicKey o.publicKey) height fun _ => none
  | .storageSet, .alive package creator deployed storage =>
    .alive package creator deployed fun key => if key = o.key then some o.value else storage key
  | .close, _ => .dead height
  | _, l => l

def step (l : Life) : Operation → Life
  | .program o height => if o.programId = id then l.move E o height else l
  | _ => l

/-- The operation is signed, and its signer may make the move: anybody deploys what is unborn and
    calls what lives; the creator alone stores and closes. -/
def Permits (l : Life) (o : ProgramOperation) : Prop :=
  E.crypto.verify o.publicKey (utf8 (State.programMessage E o)) o.signature = true ∧
  match o.kind, l with
  | .deploy, .unborn => True
  | .call, .alive _ _ _ _ => True
  | .storageSet, .alive _ creator _ _ | .close, .alive _ creator _ _ =>
    E.crypto.addressFromPublicKey o.publicKey = creator
  | _, _ => False

def Allows (l : Life) : Operation → Prop
  | .program o _ => o.programId = id → l.Permits E o
  | _ => True

/-- What a program that lives has under a key. -/
def lookup (l : Life) (key : String) : Option String :=
  match l with
  | .alive _ _ _ storage => storage key
  | _ => none

/-- The value an operation sets the key of the program to. -/
def written (key : String) : Operation → Option String
  | .program o _ =>
    if o.programId = id ∧ o.kind = .storageSet ∧ o.key = key then some o.value else none
  | _ => none

end Life

namespace State

variable {E : Env} {s t : State} {op : Operation} {id : String}

/-- The program as the state has it. -/
def life (s : State) (id : String) : Life :=
  match s.programs[id]?, s.closedPrograms[id]? with
  | some r, _ => .alive r.package r.creator r.deployedAtHeight fun key => r.storage[key]?
  | none, some height => .dead height
  | none, none => .unborn

/-- The operations that take effect, in order. -/
def effective (E : Env) : State → List Operation → List Operation
  | _, [] => []
  | s, op :: ops =>
    if (s.apply E op).result = .ok true then op :: effective E (s.next E op) ops
    else effective E (s.next E op) ops

/-! ## 2. One operation -/

theorem life_of_same (hp : t.programs = s.programs) (hc : t.closedPrograms = s.closedPrograms)
    (id : String) : t.life id = s.life id := by
  unfold life
  rw [hp, hc]

/-- What does not take effect leaves the program alone. -/
theorem life_next_of_not (h : (s.apply E op).result ≠ .ok true) (id : String) :
    (s.next E op).life id = s.life id := by
  rcases next_or (E := E) s op with hsame | happlied | hresidue
  · rw [hsame]
  · exact absurd (congrArg Applied.result happlied) h
  · generalize s.next E op = t at hresidue
    cases hresidue <;> exact life_of_same rfl rfl id

/-- A program that is called lives. -/
theorem programs_of_call {o : ProgramOperation} {height : U64}
    (h : s.apply E (.program o height) = ⟨.ok true, t⟩) (hk : o.kind = .call) :
    ∃ r, s.programs[o.programId]? = some r := by
  obtain ⟨-, hm⟩ := applyProgramOperation_true h
  obtain ⟨-, -, _, _, _, _, _, -, -, -, he, -⟩ := applyProgramOperationMut_steps hm
  unfold programEffect at he
  rw [hk] at he
  obtain ⟨-, he⟩ := rejectIf_bind_eq_ok.mp he
  obtain ⟨r, hr, -⟩ := orFail_bind_eq_ok.mp he
  exact ⟨r, hr⟩

theorem life_alive {r : ProgramRecord} (h : s.programs[id]? = some r) :
    s.life id = .alive r.package r.creator r.deployedAtHeight fun key => r.storage[key]? := by
  unfold life
  rw [h]

theorem life_unborn (hp : s.programs[id]? = none) (hc : s.closedPrograms[id]? = none) :
    s.life id = .unborn := by
  unfold life
  rw [hp, hc]

theorem life_dead {height : U64} (hp : s.programs[id]? = none)
    (hc : s.closedPrograms[id]? = some height) : s.life id = .dead height := by
  unfold life
  rw [hp, hc]

/-- A program operation on another program. -/
theorem life_of_ne {o : ProgramOperation} {owner : Address} {height : U64}
    (he : RegistryEffect E s.programs s.closedPrograms o owner height t.programs t.closedPrograms)
    (hne : o.programId ≠ id) : t.life id = s.life id := by
  have hget : t.programs[id]? = s.programs[id]? ∧
      t.closedPrograms[id]? = s.closedPrograms[id]? := by
    generalize t.programs = programs, t.closedPrograms = closed at he
    cases he with
    | deploy package hk hnew hd hid =>
      rw [getElem?_insert_string, if_neg hne]
      exact ⟨rfl, rfl⟩
    | call hk => exact ⟨rfl, rfl⟩
    | storageSet r hk hr hc =>
      rw [getElem?_insert_string, if_neg hne]
      exact ⟨rfl, rfl⟩
    | close r hk hr hc =>
      rw [getElem?_erase_string, if_neg hne, getElem?_insert_string, if_neg hne]
      exact ⟨rfl, rfl⟩
  unfold life
  rw [hget.1, hget.2]

/-- An applied operation on the program itself is an allowed move. -/
theorem life_of_program {o : ProgramOperation} {height : U64}
    (h : s.apply E (.program o height) = ⟨.ok true, t⟩) :
    (s.life o.programId).Permits E o ∧
      t.life o.programId = (s.life o.programId).move E o height := by
  obtain ⟨-, hm⟩ := applyProgramOperation_true h
  obtain ⟨hvalid, -⟩ := applyProgramOperationMut_steps hm
  have hcalled := programs_of_call h
  have he := applyProgramOperationMut_registry hm
  unfold Life.Permits Life.move
  generalize hp : t.programs = programs, hc : t.closedPrograms = closed at he
  cases he with
  | deploy package hk hnew hd hid =>
    have hborn : s.life o.programId = .unborn :=
      life_unborn (ExtTreeMap.getElem?_eq_none hnew.1) (ExtTreeMap.getElem?_eq_none hnew.2)
    have hget : t.programs[o.programId]? =
        some ⟨o.package, E.crypto.addressFromPublicKey o.publicKey, height, ∅⟩ := by
      rw [hp, getElem?_insert_string, if_pos rfl]
    rw [hborn, hk, life_alive hget]
    refine ⟨⟨hvalid.signed, trivial⟩, ?_⟩
    have hempty : (fun key => (∅ : BTreeMap String String)[key]?) = fun _ => none :=
      funext fun key => ExtTreeMap.getElem?_empty
    rw [hempty]
  | call hk =>
    obtain ⟨r, hr⟩ := hcalled hk
    have hget : t.programs[o.programId]? = some r := hp ▸ hr
    rw [life_alive hr, life_alive hget, hk]
    exact ⟨⟨hvalid.signed, trivial⟩, rfl⟩
  | storageSet r hk hr hcreator =>
    have hget : t.programs[o.programId]? =
        some { r with storage := r.storage.insert o.key o.value } := by
      rw [hp, getElem?_insert_string, if_pos rfl]
    rw [life_alive hr, life_alive hget, hk]
    refine ⟨⟨hvalid.signed, hcreator.symm⟩, ?_⟩
    have hstored : (fun key => (r.storage.insert o.key o.value)[key]?) =
        fun key => if key = o.key then some o.value else r.storage[key]? :=
      funext fun key => BTreeMap.getElem?_insert_ite _ _ _ _
    rw [hstored]
  | close r hk hr hcreator =>
    have hget : t.programs[o.programId]? = none := by
      rw [hp, getElem?_erase_string, if_pos rfl]
    have hgone : t.closedPrograms[o.programId]? = some height := by
      rw [hc, getElem?_insert_string, if_pos rfl]
    rw [life_alive hr, life_dead hget hgone, hk]
    exact ⟨⟨hvalid.signed, hcreator.symm⟩, rfl⟩

/-- **The step lemma**: what takes effect is an allowed move. -/
theorem life_next (hop : (s.apply E op).result = .ok true) (id : String) :
    (s.life id).Allows E id op ∧ (s.next E op).life id = (s.life id).step E id op := by
  have happly := apply_eq hop
  by_cases hprogram : ∃ o height, op = .program o height
  · obtain ⟨o, height, rfl⟩ := hprogram
    by_cases hid : o.programId = id
    · subst hid
      obtain ⟨hpermits, hmove⟩ := life_of_program happly
      refine ⟨fun _ => hpermits, hmove.trans ?_⟩
      show _ = if o.programId = o.programId then _ else _
      rw [if_pos rfl]
    · refine ⟨fun heq => absurd heq hid, ?_⟩
      obtain ⟨-, hm⟩ := applyProgramOperation_true happly
      rw [life_of_ne (applyProgramOperationMut_registry hm) hid]
      show _ = if o.programId = id then _ else _
      rw [if_neg hid]
  · obtain ⟨hp, hc⟩ := (Writes.of_apply happly).programs fun o height he =>
      hprogram ⟨o, height, he⟩
    have hsame := life_of_same hp hc id
    cases op with
    | program o height => exact absurd ⟨o, height, rfl⟩ hprogram
    | _ => exact ⟨trivial, hsame⟩

/-! ## 3. Runs -/

theorem life_runs (ops : List Operation) (id : String) :
    EachStep (Life.step E id) (Life.Allows E id) (s.life id) (effective E s ops) ∧
      (runs (next E) s ops).life id = runs (Life.step E id) (s.life id) (effective E s ops) := by
  induction ops generalizing s with
  | nil => exact ⟨trivial, rfl⟩
  | cons op ops ih =>
    obtain ⟨hallowed, hlife⟩ := ih (s := s.next E op)
    by_cases hop : (s.apply E op).result = .ok true
    · obtain ⟨hallows, hstep⟩ := life_next hop id
      rw [hstep] at hallowed hlife
      rw [effective, if_pos hop]
      exact ⟨⟨hallows, hallowed⟩, hlife⟩
    · rw [life_next_of_not hop] at hallowed hlife
      rw [effective, if_neg hop]
      exact ⟨hallowed, hlife⟩

end State

namespace Life

variable {E : Env} {id key : String} {l : Life} {op : Operation} {o : ProgramOperation}
  {height : U64}

/-! ## 4. What a key holds -/

/-- A permitted move that does not close the program sets the key, or leaves it. -/
theorem lookup_move (h : l.Permits E o) (hopen : ∀ closed, l.move E o height ≠ .dead closed) :
    (l.move E o height).lookup key =
      (if o.kind = .storageSet ∧ o.key = key then some o.value else none).or (l.lookup key) := by
  obtain ⟨-, h⟩ := h
  unfold move at hopen ⊢
  cases hk : o.kind with
  | deploy =>
    simp only [hk] at h
    cases l with
    | unborn => rfl
    | _ => exact h.elim
  | call =>
    rw [if_neg (fun hc => by cases hc.1), Option.none_or]
  | storageSet =>
    simp only [hk] at h
    cases l with
    | alive package creator deployed storage =>
      show (if key = o.key then some o.value else storage key) = _
      by_cases hkey : o.key = key
      · rw [if_pos hkey.symm, if_pos ⟨rfl, hkey⟩]
        rfl
      · rw [if_neg (Ne.symm hkey), if_neg fun hc => hkey hc.2]
        rfl
    | _ => exact h.elim
  | close =>
    simp only [hk] at hopen
    exact absurd rfl (hopen height)

theorem step_program : l.step E id (.program o height) =
    if o.programId = id then l.move E o height else l :=
  rfl

theorem written_program : written id key (.program o height) =
    if o.programId = id ∧ o.kind = .storageSet ∧ o.key = key then some o.value else none :=
  rfl

theorem lookup_step (h : l.Allows E id op) (hopen : ∀ closed, l.step E id op ≠ .dead closed) :
    (l.step E id op).lookup key = (written id key op).or (l.lookup key) := by
  cases op with
  | program o height =>
    simp only [step_program] at hopen ⊢
    rw [written_program]
    by_cases hid : o.programId = id
    · simp only [if_pos hid] at hopen ⊢
      rw [lookup_move (h hid) hopen]
      simp only [hid, true_and]
    · rw [if_neg hid, if_neg fun hc => hid hc.1, Option.none_or]
  | _ => exact (Option.none_or).symm

/-- The dead stay dead. -/
theorem step_dead {closed : U64} (h : (dead closed).Allows E id op) :
    (dead closed).step E id op = .dead closed := by
  cases op with
  | program o height =>
    rw [step_program]
    by_cases hid : o.programId = id
    · obtain ⟨-, hnone⟩ := h hid
      cases hk : o.kind <;>
      · simp only [hk] at hnone
    · rw [if_neg hid]
  | _ => rfl

theorem runs_dead {closed : U64} {ops : List Operation}
    (h : EachStep (step E id) (Allows E id) (.dead closed) ops) :
    runs (step E id) (.dead closed) ops = .dead closed := by
  induction ops with
  | nil => rfl
  | cons op ops ih =>
    obtain ⟨hop, hrest⟩ := h
    rw [step_dead hop] at hrest
    show runs _ (step E id _ op) ops = _
    rw [step_dead hop]
    exact ih hrest

/-- **The last write wins**: a key of a program that is not closed holds the value it was last
    set to. -/
theorem lookup_runs {ops : List Operation} (h : EachStep (step E id) (Allows E id) l ops)
    (hopen : ∀ closed, runs (step E id) l ops ≠ .dead closed) :
    (runs (step E id) l ops).lookup key =
      (ops.reverse.findSome? (written id key)).or (l.lookup key) := by
  induction ops generalizing l with
  | nil => rfl
  | cons op ops ih =>
    obtain ⟨hop, hrest⟩ := h
    have hstep : ∀ closed, l.step E id op ≠ .dead closed := fun closed hdead => by
      refine hopen closed ?_
      show runs _ (l.step E id op) ops = _
      rw [hdead] at hrest ⊢
      exact runs_dead hrest
    show (runs _ (l.step E id op) ops).lookup key = _
    rw [ih hrest hopen, lookup_step hop hstep, List.reverse_cons, List.findSome?_append,
      List.findSome?_singleton, Option.or_assoc]

end Life

namespace State

variable {E : Env} {s : State} {id : String}

/-- **The registry is a summary of the moves.** For every program, in every state reached from a
    genesis, whatever was tried: the operations that took effect are allowed moves of the abstract
    program, in their order; the state has of the program what these moves make of it; and while
    the program is open each key holds the value it was last set to. -/
theorem program_registry_refines {genesis : GenesisConfig} {s₀ : State}
    (hg : fromGenesis genesis = .ok s₀) {ops : List Operation}
    (hs : s = runs (next E) s₀ ops) (id : String) :
    EachStep (Life.step E id) (Life.Allows E id) .unborn (effective E s₀ ops) ∧
      s.life id = runs (Life.step E id) .unborn (effective E s₀ ops) ∧
      ∀ r, s.programs[id]? = some r → ∀ key, r.storage[key]? =
        (effective E s₀ ops).reverse.findSome? (Life.written id key) := by
  have hunborn : s₀.life id = .unborn := by
    obtain ⟨accounts, rfl⟩ := fromGenesis_eq_ok hg
    exact life_unborn ExtTreeMap.getElem?_empty ExtTreeMap.getElem?_empty
  obtain ⟨hallowed, hlife⟩ := life_runs (E := E) (s := s₀) ops id
  rw [hunborn] at hallowed hlife
  rw [← hs] at hlife
  refine ⟨hallowed, hlife, fun r hr key => ?_⟩
  have halive := life_alive hr
  have hopen : ∀ closed, runs (Life.step E id) .unborn (effective E s₀ ops) ≠ .dead closed :=
    fun closed hdead => by
      rw [← hlife, halive] at hdead
      cases hdead
  have hlookup : Life.lookup _ key = _ := Life.lookup_runs hallowed hopen
  rw [← hlife, halive] at hlookup
  rw [show (Life.unborn).lookup key = none from rfl, Option.or_none] at hlookup
  exact hlookup

end State

namespace Sample

def deployed : ProgramOperation := programOperation .deploy 0 500 (packageBytes 0) "" ""

/-- A program is deployed, and a key of it is set twice. -/
def storedRun : List Operation :=
  [.program deployed 1, .program (programOperation .storageSet 1 10 (packageBytes 0) "k" "v") 2,
    .program (programOperation .storageSet 2 10 (packageBytes 0) "k" "w") 3]

theorem evaluated_storedRun :
    (((runs (State.next .standIn) (genesisState 1) storedRun).programs[deployed.programId]?).map
      fun r => r.storage["k"]?) = some (some "w") := by
  decide +kernel

end Sample

namespace State

/-- The key holds what it was last set to. -/
theorem program_registry_refines_stored :
    (effective .standIn (Sample.genesisState 1) Sample.storedRun).reverse.findSome?
      (Life.written Sample.deployed.programId "k") = some "w" := by
  obtain ⟨r, hr, hkey⟩ := Option.map_eq_some_iff.mp Sample.evaluated_storedRun
  obtain ⟨-, -, hstored⟩ := program_registry_refines (Sample.fromGenesis_genesis 1) rfl
    Sample.deployed.programId
  exact (hstored r hr "k").symm.trans hkey

end State

end WorldstreetChain
