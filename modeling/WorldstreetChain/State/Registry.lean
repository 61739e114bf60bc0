import WorldstreetChain.State.Operation

/-!
# The program registry

A program is deployed under the id of its package, is stored to and closed by its creator only,
and its id is never used again.

* `State.Registered` -- the invariant: no id is open and closed, and every package decodes to a
  package with the id it is filed under.
* `State.RecordStep` -- **the rule of one operation** for one record.
* `State.program_life_cycle` -- every run from a genesis keeps the invariant, and every operation in
  it obeys the rule.
-/

namespace WorldstreetChain

open Std
open Postcard (utf8)

namespace State

variable {E : Env} {s t : State} {op : Operation} {id : String}

/-! ## 1. The invariant and the rule -/

structure Registered (E : Env) (s : State) : Prop where
  disjoint : ∀ id, id ∈ s.programs → id ∉ s.closedPrograms
  decodes : ∀ (id : String) (r : ProgramRecord), s.programs[id]? = some r →
    ∃ package, ProgramPackage.decode E.crypto E.runtime r.package = .ok package ∧
      package.programId = id

/-- A program operation of the kind on program `id`, under a key of `a` that its signature verifies
    for. -/
def ProgramActsOn (E : Env) (op : Operation) (id : String) (kind : ProgramOperationKind)
    (a : Address) : Prop :=
  ∃ o height, op = .program o height ∧ o.programId = id ∧ o.kind = kind ∧
    E.crypto.addressFromPublicKey o.publicKey = a ∧
    E.crypto.verify o.publicKey (utf8 (programMessage E o)) o.signature = true

/-- **The rule of one operation** for a record: what it may find in the record's place. -/
inductive RecordStep (E : Env) (op : Operation) (id : String) (r : ProgramRecord) :
    Option ProgramRecord → Prop where
  | kept : RecordStep E op id r (some r)
  | stored (storage : BTreeMap String String) (h : ProgramActsOn E op id .storageSet r.creator) :
      RecordStep E op id r (some { r with storage })
  | closed (h : ProgramActsOn E op id .close r.creator) : RecordStep E op id r none

/-- The invariant is about the open and the closed programs. -/
theorem Registered.of_same (h : Registered E s) (hp : t.programs = s.programs)
    (hc : t.closedPrograms = s.closedPrograms) : Registered E t := by
  refine ⟨fun id hid => ?_, fun id r hr => h.decodes id r (hp ▸ hr)⟩
  rw [hc]
  exact h.disjoint id (hp ▸ hid)

theorem fromGenesis_registered {genesis : GenesisConfig} (h : fromGenesis genesis = .ok s) :
    Registered E s := by
  obtain ⟨accounts, rfl⟩ := fromGenesis_eq_ok h
  refine ⟨fun id hid => ?_, fun id r hr => ?_⟩
  · exact absurd hid ExtTreeMap.not_mem_empty
  · have hnone : (∅ : BTreeMap String ProgramRecord)[id]? = none := ExtTreeMap.getElem?_empty
    rw [ofAccounts, hnone] at hr
    cases hr

/-! ## 2. One operation -/

/-- An entry after an insertion: the new one under its key, the old one elsewhere. -/
theorem getElem?_insert_string {β : Type} (m : BTreeMap String β) (k id : String) (v : β) :
    (m.insert k v)[id]? = if k = id then some v else m[id]? := by
  rw [ExtTreeMap.getElem?_insert]
  by_cases h : k = id
  · rw [if_pos h, if_pos (by rw [h]; exact compare_self)]
  · rw [if_neg h, if_neg fun hc => h (LawfulEqOrd.eq_of_compare hc)]

theorem getElem?_erase_string {β : Type} (m : BTreeMap String β) (k id : String) :
    (m.erase k)[id]? = if k = id then none else m[id]? := by
  rw [ExtTreeMap.getElem?_erase]
  by_cases h : k = id
  · rw [if_pos h, if_pos (by rw [h]; exact compare_self)]
  · rw [if_neg h, if_neg fun hc => h (LawfulEqOrd.eq_of_compare hc)]

section Effect

variable {o : ProgramOperation} {owner : Address} {height : U64}
  {programs programs' : BTreeMap String ProgramRecord} {closed closed' : BTreeMap String U64}

/-- A closed id stays closed. -/
theorem RegistryEffect.closed_mono
    (h : RegistryEffect E programs closed o owner height programs' closed')
    (hid : id ∈ closed) : id ∈ closed' := by
  cases h with
  | deploy package hk hnew hd hp => exact hid
  | call hk => exact hid
  | storageSet record hk hr hc => exact hid
  | close record hk hr hc => exact ExtTreeMap.mem_insert.mpr (Or.inr hid)

/-- No id becomes open and closed. -/
theorem RegistryEffect.disjoint
    (h : RegistryEffect E programs closed o owner height programs' closed')
    (hdisj : ∀ id, id ∈ programs → id ∉ closed) : ∀ id, id ∈ programs' → id ∉ closed' := by
  intro id hid
  rw [ExtTreeMap.mem_iff_isSome_getElem?] at hid
  cases h with
  | deploy package hk hnew hd hp =>
    rw [getElem?_insert_string] at hid
    by_cases hk : o.programId = id
    · exact hk ▸ hnew.2
    · rw [if_neg hk] at hid
      exact hdisj id (ExtTreeMap.mem_iff_isSome_getElem?.mpr hid)
  | call hk => exact hdisj id (ExtTreeMap.mem_iff_isSome_getElem?.mpr hid)
  | storageSet record hk hr hc =>
    refine hdisj id (ExtTreeMap.mem_iff_isSome_getElem?.mpr ?_)
    rw [getElem?_insert_string] at hid
    by_cases hk : o.programId = id
    · rw [← hk, hr]
      rfl
    · rwa [if_neg hk] at hid
  | close record hk hr hc =>
    rw [getElem?_erase_string] at hid
    by_cases hk : o.programId = id
    · rw [if_pos hk] at hid
      cases hid
    · rw [if_neg hk] at hid
      have hopen := hdisj id (ExtTreeMap.mem_iff_isSome_getElem?.mpr hid)
      rw [ExtTreeMap.mem_iff_isSome_getElem?, getElem?_insert_string, if_neg hk,
        ← ExtTreeMap.mem_iff_isSome_getElem?]
      exact hopen

/-- Every record found afterwards is one found before with another storage, or a new one whose
    package decodes to its id. -/
theorem RegistryEffect.decodes
    (h : RegistryEffect E programs closed o owner height programs' closed')
    (hdec : ∀ (id : String) (r : ProgramRecord), programs[id]? = some r →
      ∃ package, ProgramPackage.decode E.crypto E.runtime r.package = .ok package ∧
        package.programId = id) {r : ProgramRecord} (hr : programs'[id]? = some r) :
    ∃ package, ProgramPackage.decode E.crypto E.runtime r.package = .ok package ∧
      package.programId = id := by
  cases h with
  | deploy package hk hnew hd hp =>
    rw [getElem?_insert_string] at hr
    by_cases hk : o.programId = id
    · rw [if_pos hk] at hr
      cases hr
      exact ⟨package, hd, hp.trans hk⟩
    · rw [if_neg hk] at hr
      exact hdec id r hr
  | call hk => exact hdec id r hr
  | storageSet record hk hrec hc =>
    rw [getElem?_insert_string] at hr
    by_cases hk : o.programId = id
    · rw [if_pos hk] at hr
      cases hr
      exact hdec id record (hk ▸ hrec)
    · rw [if_neg hk] at hr
      exact hdec id r hr
  | close record hk hrec hc =>
    rw [getElem?_erase_string] at hr
    by_cases hk : o.programId = id
    · rw [if_pos hk] at hr
      cases hr
    · rw [if_neg hk] at hr
      exact hdec id r hr

/-- What becomes of a record under a signed program operation. -/
theorem RegistryEffect.recordStep
    (h : RegistryEffect E programs closed o (E.crypto.addressFromPublicKey o.publicKey) height
      programs' closed')
    (hsig : E.crypto.verify o.publicKey (utf8 (programMessage E o)) o.signature = true)
    {r : ProgramRecord} (hr : programs[id]? = some r) :
    RecordStep E (.program o height) id r programs'[id]? := by
  cases h with
  | deploy package hk hnew hd hp =>
    rw [getElem?_insert_string]
    by_cases hk : o.programId = id
    · -- a deployment is to an id that is not open
      refine absurd ?_ hnew.1
      rw [hk, ExtTreeMap.mem_iff_isSome_getElem?, hr]
      rfl
    · rw [if_neg hk, hr]
      exact .kept
  | call hk =>
    rw [hr]
    exact .kept
  | storageSet record hk hrec hc =>
    rw [getElem?_insert_string]
    by_cases hid : o.programId = id
    · rw [hid, hr] at hrec
      cases hrec
      rw [if_pos hid]
      exact .stored _ ⟨o, height, rfl, hid, hk, hc.symm, hsig⟩
    · rw [if_neg hid, hr]
      exact .kept
  | close record hk hrec hc =>
    rw [getElem?_erase_string]
    by_cases hid : o.programId = id
    · rw [hid, hr] at hrec
      cases hrec
      rw [if_pos hid]
      exact .closed ⟨o, height, rfl, hid, hk, hc.symm, hsig⟩
    · rw [if_neg hid, hr]
      exact .kept

end Effect

/-- The step to `t` leaves the registry alone or is the effect of a signed program operation. -/
def RegistryStep (E : Env) (s : State) (op : Operation) (t : State) : Prop :=
  (t.programs = s.programs ∧ t.closedPrograms = s.closedPrograms) ∨
    ∃ o height, op = .program o height ∧
      E.crypto.verify o.publicKey (utf8 (programMessage E o)) o.signature = true ∧
      RegistryEffect E s.programs s.closedPrograms o
        (E.crypto.addressFromPublicKey o.publicKey) height t.programs t.closedPrograms

theorem next_registry (E : Env) (s : State) (op : Operation) :
    RegistryStep E s op (s.next E op) := by
  by_cases hop : ∃ o height, op = .program o height
  · obtain ⟨o, height, rfl⟩ := hop
    refine next_cases (R := RegistryStep E s _) (Or.inl ⟨rfl, rfl⟩) (fun t h => Or.inr ?_)
      fun t h => ?_
    · obtain ⟨-, hm⟩ := applyProgramOperation_true h
      obtain ⟨hv, -, -⟩ := applyProgramOperationMut_eq_ok hm
      exact ⟨o, height, rfl, hv.signed, applyProgramOperationMut_registry hm⟩
    · cases h
  · exact Or.inl (next_writes.programs fun o height h => hop ⟨o, height, h⟩)

theorem registered_next (h : Registered E s) : Registered E (s.next E op) := by
  rcases next_registry E s op with ⟨hp, hc⟩ | ⟨o, height, -, -, he⟩
  · exact h.of_same hp hc
  · exact ⟨he.disjoint h.disjoint, fun id r hr => he.decodes h.decodes hr⟩

theorem mem_closedPrograms_next (h : id ∈ s.closedPrograms) :
    id ∈ (s.next E op).closedPrograms := by
  rcases next_registry E s op with ⟨-, hc⟩ | ⟨o, height, -, -, he⟩
  · rwa [hc]
  · exact he.closed_mono h

theorem next_recordStep {r : ProgramRecord} (hr : s.programs[id]? = some r) :
    RecordStep E op id r (s.next E op).programs[id]? := by
  rcases next_registry E s op with ⟨hp, -⟩ | ⟨o, height, rfl, hsig, he⟩
  · rw [hp, hr]
    exact .kept
  · exact he.recordStep hsig hr

/-! ## 3. Runs -/

theorem registered_runs (h : Registered E s) (ops : List Operation) :
    Registered E (runs (next E) s ops) := by
  induction ops generalizing s with
  | nil => exact h
  | cons op ops ih => exact ih (registered_next h)

theorem mem_closedPrograms_runs (h : id ∈ s.closedPrograms) (ops : List Operation) :
    id ∈ (runs (next E) s ops).closedPrograms := by
  induction ops generalizing s with
  | nil => exact h
  | cons op ops ih => exact ih (mem_closedPrograms_next h)

/-- **The life cycle of programs.** In every state reached from a genesis, whatever operations
    were tried: no id is open and closed; an id closed stays closed and never opens again; every
    record's package decodes to a package with its id; and the next operation obeys the rule for
    every record. -/
theorem program_life_cycle {genesis : GenesisConfig} (hg : fromGenesis genesis = .ok s)
    (ops : List Operation) :
    let t := runs (next E) s ops
    (∀ id, ¬ (id ∈ t.programs ∧ id ∈ t.closedPrograms)) ∧
    (∀ id later, id ∈ t.closedPrograms →
      id ∈ (runs (next E) t later).closedPrograms ∧ id ∉ (runs (next E) t later).programs) ∧
    (∀ (id : String) (r : ProgramRecord), t.programs[id]? = some r →
      ∃ package, ProgramPackage.decode E.crypto E.runtime r.package = .ok package ∧
        package.programId = id) ∧
    ∀ (id : String) (r : ProgramRecord) op, t.programs[id]? = some r →
      RecordStep E op id r (t.next E op).programs[id]? := by
  intro t
  have ht : Registered E t := registered_runs (fromGenesis_registered hg) ops
  refine ⟨fun id h => ht.disjoint id h.1 h.2, fun id later h => ?_, ht.decodes,
    fun id r op hr => next_recordStep hr⟩
  have hclosed : id ∈ (runs (next E) t later).closedPrograms := mem_closedPrograms_runs h later
  exact ⟨hclosed, fun hopen => (registered_runs ht later).disjoint id hopen hclosed⟩

/-- The sample package deployed. -/
theorem program_life_cycle_deploy :
    let t := runs (next .standIn) (Sample.genesisState 1)
      [.program (Sample.programOperation .deploy 0 500 (Sample.packageBytes 0) "" "") 1]
    t.programs.size = 1 ∧
      ∀ (id : String) (r : ProgramRecord), t.programs[id]? = some r →
        ∃ package, ProgramPackage.decode .standIn .standIn r.package = .ok package ∧
          package.programId = id := by
  refine ⟨by decide +kernel, ?_⟩
  exact (program_life_cycle (Sample.fromGenesis_genesis 1) _).2.2.1

end State

end WorldstreetChain
