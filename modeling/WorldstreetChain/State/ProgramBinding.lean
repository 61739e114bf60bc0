import WorldstreetChain.Library.Text
import WorldstreetChain.State.Registry

/-!
# What a program authorization binds

The owner of a program signs a text. It names the action, the chain, the program, the nonce and
the fee; a call's gas limit and a storage write's key and value follow. The package of a
deployment is in it through its program id only, which comes from the WASM module.

* `State.programMessage_binds` -- **what two operations with one text agree in.**
* `State.program_authorization_binds` -- two operations under one signature that are both accepted
  in a state have one effect, where the text says enough.
-/

namespace WorldstreetChain

open Std
open Postcard (utf8)

/-- A signature verifies for at most one message under a key. -/
def Crypto.SignatureBinds (C : Crypto) : Prop :=
  ∀ key message message' signature, C.verify key message signature = true →
    C.verify key message' signature = true → message = message'

namespace State

variable {E : Env} {s t t' : State} {o o' : ProgramOperation}

/-! ## 1. The text -/

/-- The text in front of the program id. -/
def messageHead (o : ProgramOperation) : String :=
  "Intertrain Program Authorization\nAction: " ++ programAction o.kind
    ++ "\nChain ID: " ++ o.chainId ++ "\nProgram ID: "

/-- The text between the program id and the fee. -/
def messagePayer (E : Env) (o : ProgramOperation) : String :=
  "\nOwner: " ++ E.crypto.displayAddress (E.crypto.addressFromPublicKey o.publicKey)
    ++ "\nNonce: " ++ toString o.nonce.toNat ++ "\nFee: "

/-- The text after the fee. -/
def messageTail (o : ProgramOperation) : String :=
  (if o.kind = .call then "\nGas Limit: " ++ toString o.gasLimit.toNat else "")
    ++ (if o.kind = .storageSet then "\nKey: " ++ o.key ++ "\nValue: " ++ o.value else "")

theorem programMessage_toList (E : Env) (o : ProgramOperation) :
    (programMessage E o).toList = (messageHead o).toList ++ (o.programId.toList ++
      ((messagePayer E o).toList ++ ((toString o.fee.toNat).toList ++
        (messageTail o).toList))) := by
  unfold programMessage messageHead messagePayer messageTail
  simp only [String.toList_append]
  simp only [List.append_assoc]

/-- The payer's text begins with a line break and ends with a blank. -/
theorem messagePayer_toList (E : Env) (o : ProgramOperation) :
    ∃ label, (messagePayer E o).toList = ('\n' :: label) ++ [' '] := by
  have hfirst : "\nOwner: ".toList = '\n' :: "Owner: ".toList := by decide
  have hlast : "\nFee: ".toList = "\nFee:".toList ++ [' '] := by decide
  refine ⟨"Owner: ".toList ++ ((E.crypto.displayAddress (E.crypto.addressFromPublicKey
    o.publicKey)).toList ++ ("\nNonce: ".toList ++ ((toString o.nonce.toNat).toList ++
      "\nFee:".toList))), ?_⟩
  rw [← List.cons_append, ← hfirst]
  unfold messagePayer
  simp only [String.toList_append]
  simp only [List.append_assoc]
  exact congrArg (fun l => "\nOwner: ".toList ++ (_ ++ ("\nNonce: ".toList ++ (_ ++ l)))) hlast

/-- No action is the beginning of another. -/
theorem programAction_inj {kind kind' : ProgramOperationKind} {rest rest' : List Char}
    (h : (programAction kind).toList ++ rest = (programAction kind').toList ++ rest') :
    kind' = kind := by
  cases kind <;> cases kind' <;> first | rfl | simp [programAction] at h

/-- The action is read off the text. -/
theorem kind_of_message (h : (programMessage E o).toList = (programMessage E o').toList) :
    o'.kind = o.kind := by
  rw [programMessage_toList, programMessage_toList] at h
  unfold messageHead at h
  simp only [String.toList_append] at h
  simp only [List.append_assoc] at h
  exact programAction_inj (List.append_cancel_left h)

theorem isDigit_blank : (' ').isDigit = false := by decide

theorem isDigit_newline : ('\n').isDigit = false := by decide

/-- Neither the program id nor the key has a line break. -/
def PlainFields (o : ProgramOperation) : Prop :=
  '\n' ∉ o.programId.toList ∧ '\n' ∉ o.key.toList

/-- What decides the effect of an operation: the program and, by its kind, the package, the gas
    limit or the key and value. -/
structure SameEffectFields (o o' : ProgramOperation) : Prop where
  kind : o'.kind = o.kind
  programId : o'.programId = o.programId
  package : o.kind = .deploy → o'.package = o.package
  gasLimit : o.kind = .call → o'.gasLimit = o.gasLimit
  write : o.kind = .storageSet → o'.key = o.key ∧ o'.value = o.value

/-- Two operations of one chain, key and nonce have one text around their own fields. -/
structure SameFrame (o o' : ProgramOperation) : Prop where
  chainId : o'.chainId = o.chainId
  publicKey : o'.publicKey = o.publicKey
  nonce : o'.nonce = o.nonce

/-- With one text they agree in what follows the head. -/
theorem message_cancel (hframe : SameFrame o o')
    (h : (programMessage E o).toList = (programMessage E o').toList) :
    o.programId.toList ++ ((messagePayer E o).toList ++ ((toString o.fee.toNat).toList ++
        (messageTail o).toList)) =
      o'.programId.toList ++ ((messagePayer E o).toList ++ ((toString o'.fee.toNat).toList ++
        (messageTail o').toList)) := by
  have hkind := kind_of_message h
  have hhead : messageHead o' = messageHead o := by
    unfold messageHead
    rw [hkind, hframe.chainId]
  have hpayer : messagePayer E o' = messagePayer E o := by
    unfold messagePayer
    rw [hframe.publicKey, hframe.nonce]
  rw [programMessage_toList, programMessage_toList, hhead, hpayer] at h
  exact List.append_cancel_left h

/-- With the fee at the end, the program id is read off from there. -/
theorem programId_of_fee {xs xs' : List Char} {n m : Nat}
    (h : xs ++ ((messagePayer E o).toList ++ (toString n).toList) =
      xs' ++ ((messagePayer E o).toList ++ (toString m).toList)) : xs = xs' ∧ n = m := by
  obtain ⟨label, hpayer⟩ := messagePayer_toList E o
  rw [hpayer] at h
  simp only [List.append_assoc, List.cons_append, List.nil_append] at h
  refine @Text.numeral_inj xs xs' ('\n' :: label) ' ' n m isDigit_blank ?_
  simpa only [List.append_assoc, List.cons_append, List.nil_append] using h

/-- Nothing but the fee at the end: a deployment or a close. -/
theorem message_binds_plain (hframe : SameFrame o o')
    (h : (programMessage E o).toList = (programMessage E o').toList)
    (hk : o.kind = .deploy ∨ o.kind = .close) : o'.programId = o.programId := by
  have htail : ∀ p : ProgramOperation, p.kind = .deploy ∨ p.kind = .close →
      (messageTail p).toList = [] := fun p hp => by
    rcases hp with hp | hp
    · rw [messageTail, hp]
      rfl
    · rw [messageTail, hp]
      rfl
  have hcancel := message_cancel hframe h
  rw [htail o hk, htail o' (kind_of_message h ▸ hk), List.append_nil, List.append_nil] at hcancel
  exact (String.toList_inj.mp (programId_of_fee hcancel).1).symm

theorem messageTail_call (hk : o.kind = .call) :
    (messageTail o).toList = "\nGas Limit:".toList ++ ' ' :: (toString o.gasLimit.toNat).toList := by
  have hlabel : "\nGas Limit: ".toList = "\nGas Limit:".toList ++ [' '] := by decide
  have htail : messageTail o = "\nGas Limit: " ++ toString o.gasLimit.toNat ++ "" := by
    rw [messageTail, if_pos hk, if_neg (by rw [hk]; decide)]
  rw [htail, String.append_empty, String.toList_append, hlabel, List.append_assoc]
  rfl

/-- The gas limit at the end: a call. -/
theorem message_binds_call (hframe : SameFrame o o')
    (h : (programMessage E o).toList = (programMessage E o').toList) (hk : o.kind = .call) :
    o'.programId = o.programId ∧ o'.gasLimit = o.gasLimit := by
  have hcancel := message_cancel hframe h
  rw [messageTail_call hk, messageTail_call ((kind_of_message h).trans hk)] at hcancel
  simp only [← List.append_assoc] at hcancel
  obtain ⟨hrest, hgas⟩ := Text.numeral_inj isDigit_blank hcancel
  simp only [List.append_assoc] at hrest
  exact ⟨(String.toList_inj.mp (programId_of_fee hrest).1).symm,
    (BitVec.eq_of_toNat_eq hgas).symm⟩

theorem messageTail_storageSet (hk : o.kind = .storageSet) :
    (messageTail o).toList =
      '\n' :: ("Key: ".toList ++ (o.key.toList ++
        '\n' :: ("Value: ".toList ++ o.value.toList))) := by
  have hkey : "\nKey: ".toList = '\n' :: "Key: ".toList := by decide
  have hvalue : "\nValue: ".toList = '\n' :: "Value: ".toList := by decide
  have htail : messageTail o = "" ++ ("\nKey: " ++ o.key ++ "\nValue: " ++ o.value) := by
    rw [messageTail, if_neg (by rw [hk]; decide), if_pos hk]
  rw [htail, String.empty_append, String.toList_append, String.toList_append,
    String.toList_append, hkey, hvalue]
  simp only [List.append_assoc, List.cons_append]

/-- The key and the value at the end: a storage write. Both are free texts, so the fields are told
    apart by line breaks alone. -/
theorem message_binds_storageSet (hframe : SameFrame o o')
    (h : (programMessage E o).toList = (programMessage E o').toList) (hk : o.kind = .storageSet)
    (hplain : PlainFields o) (hplain' : PlainFields o') :
    o'.programId = o.programId ∧ o'.key = o.key ∧ o'.value = o.value := by
  obtain ⟨label, hpayer⟩ := messagePayer_toList E o
  have hcancel := message_cancel hframe h
  rw [messageTail_storageSet hk, messageTail_storageSet ((kind_of_message h).trans hk),
    hpayer] at hcancel
  simp only [List.append_assoc, List.cons_append, List.nil_append] at hcancel
  obtain ⟨hid, hcancel⟩ := Text.first_inj hplain.1 hplain'.1 hcancel
  have hfee := (List.cons.inj (List.append_cancel_left hcancel)).2
  obtain ⟨-, hfields⟩ := Text.first_inj (Text.not_mem_toString isDigit_newline _)
    (Text.not_mem_toString isDigit_newline _) hfee
  obtain ⟨hkey, hfields⟩ := Text.first_inj hplain.2 hplain'.2 (List.append_cancel_left hfields)
  have hvalue := List.append_cancel_left hfields
  exact ⟨(String.toList_inj.mp hid).symm, (String.toList_inj.mp hkey).symm,
    (String.toList_inj.mp hvalue).symm⟩

/-- **Two operations with one text** agree in whatever decides their effect, except for a
    deployment's package, and in a storage write up to line breaks in the fields. -/
theorem programMessage_binds (hframe : SameFrame o o')
    (h : (programMessage E o).toList = (programMessage E o').toList)
    (hpackage : o.kind = .deploy → o'.package = o.package)
    (hplain : o.kind = .storageSet → PlainFields o ∧ PlainFields o') : SameEffectFields o o' := by
  have hkind := kind_of_message h
  cases hk : o.kind with
  | deploy =>
    refine ⟨hkind, message_binds_plain hframe h (Or.inl hk), hpackage, ?_, ?_⟩
    · simp [hk]
    · simp [hk]
  | call =>
    obtain ⟨hid, hgas⟩ := message_binds_call hframe h hk
    refine ⟨hkind, hid, hpackage, fun _ => hgas, ?_⟩
    simp [hk]
  | storageSet =>
    obtain ⟨hp, hp'⟩ := hplain hk
    obtain ⟨hid, hwrite⟩ := message_binds_storageSet hframe h hk hp hp'
    refine ⟨hkind, hid, hpackage, ?_, fun _ => hwrite⟩
    simp [hk]
  | close =>
    refine ⟨hkind, message_binds_plain hframe h (Or.inr hk), hpackage, ?_, ?_⟩
    · simp [hk]
    · simp [hk]

/-! ## 2. The effect -/

theorem SameEffectFields.programEffect (h : SameEffectFields o o') (s : State) (owner : Address)
    (height : U64) : s.programEffect E o' owner height = s.programEffect E o owner height := by
  unfold State.programEffect
  rw [h.kind]
  cases hk : o.kind with
  | deploy =>
    unfold programDeploy
    rw [h.programId, h.package hk]
  | call =>
    unfold programCall
    rw [h.programId, h.gasLimit hk]
  | storageSet =>
    unfold programStorageSet
    rw [h.programId, (h.write hk).1, (h.write hk).2]
  | close =>
    unfold programClose
    rw [h.programId]

theorem SameEffectFields.requiredMaxFee (h : SameEffectFields o o') (s : State) :
    s.requiredMaxFee o' = s.requiredMaxFee o := by
  unfold State.requiredMaxFee
  rw [h.kind]
  cases hk : o.kind with
  | deploy => rw [h.package hk]
  | call => rw [h.gasLimit hk]
  | storageSet => rfl
  | close => rfl

theorem programFeePaid_congr (h : o'.kind = o.kind) (s : State) (required : Amount)
    (gasUsed : U64) : s.programFeePaid o' required gasUsed = s.programFeePaid o required gasUsed := by
  unfold programFeePaid
  rw [h]

/-- The states differ in the receipt at most: in its id, and in the gas limit it notes. -/
def SameButReceipt (E : Env) (o o' : ProgramOperation) (t t' : State) : Prop :=
  ∃ (u : State) (r : ProgramReceiptRecord),
    t = u.insertProgramReceipt (E.crypto.programOperationId o)
      { r with operationId := E.crypto.programOperationId o, gasLimit := o.gasLimit } ∧
    t' = u.insertProgramReceipt (E.crypto.programOperationId o')
      { r with operationId := E.crypto.programOperationId o', gasLimit := o'.gasLimit }

/-- **Operations that agree in what decides their effect have one effect.** -/
theorem SameEffectFields.sameButReceipt (h : SameEffectFields o o')
    (hkey : o'.publicKey = o.publicKey) {height : U64} {id id' : Hash}
    (ho : s.applyProgramOperationMut E o height = .ok (id, t))
    (ho' : s.applyProgramOperationMut E o' height = .ok (id', t')) :
    SameButReceipt E o o' t t' := by
  obtain ⟨-, rfl, required, s1, outcome, paid, s2, hreq, -, -, he, hp, hc, rfl⟩ :=
    applyProgramOperationMut_steps ho
  obtain ⟨-, rfl, required', s1', outcome', paid', s2', hreq', -, -, he', hp', hc', rfl⟩ :=
    applyProgramOperationMut_steps ho'
  rw [hkey] at he' hc'
  rw [h.programEffect, he] at he'
  cases he'
  rw [h.requiredMaxFee, hreq] at hreq'
  cases hreq'
  rw [programFeePaid_congr h.kind, hp] at hp'
  cases hp'
  rw [hc] at hc'
  cases hc'
  refine ⟨s2, programReceipt o (E.crypto.programOperationId o) outcome paid, rfl, ?_⟩
  unfold programReceipt
  rw [h.kind, h.programId]

/-- Both states have the new program: under one id, of one creator, at one height, with packages
    that decode to that id. -/
def SameDeployment (E : Env) (s : State) (o o' : ProgramOperation) (height : U64)
    (t t' : State) : Prop :=
  ∃ package package',
    ProgramPackage.decode E.crypto E.runtime o.package = .ok package ∧
    ProgramPackage.decode E.crypto E.runtime o'.package = .ok package' ∧
    package.programId = o.programId ∧ package'.programId = o.programId ∧
    t.programs = s.programs.insert o.programId
      { package := o.package
        creator := E.crypto.addressFromPublicKey o.publicKey
        deployedAtHeight := height
        storage := ∅ } ∧
    t'.programs = s.programs.insert o.programId
      { package := o'.package
        creator := E.crypto.addressFromPublicKey o.publicKey
        deployedAtHeight := height
        storage := ∅ }

theorem deploy_registry {height : U64} {id : Hash} (hk : o.kind = .deploy)
    (h : s.applyProgramOperationMut E o height = .ok (id, t)) :
    ∃ package, ProgramPackage.decode E.crypto E.runtime o.package = .ok package ∧
      package.programId = o.programId ∧
      t.programs = s.programs.insert o.programId
        { package := o.package
          creator := E.crypto.addressFromPublicKey o.publicKey
          deployedAtHeight := height
          storage := ∅ } := by
  have hr := applyProgramOperationMut_registry h
  generalize t.programs = programs at hr ⊢
  generalize t.closedPrograms = closed at hr
  cases hr with
  | deploy package _ hnew hd hid => exact ⟨package, hd, hid, rfl⟩
  | call hc =>
    rw [hk] at hc
    cases hc
  | storageSet record hc =>
    rw [hk] at hc
    cases hc
  | close record hc =>
    rw [hk] at hc
    cases hc

/-- Two deployments that go through leave one registry behind, receipts apart, only with one
    package. -/
theorem package_of_sameButReceipt {height : U64}
    (hsame : SameButReceipt E o o' t t') (hid : o'.programId = o.programId)
    (hk : o.kind = .deploy) (hk' : o'.kind = .deploy)
    (h : s.applyProgramOperation E o height = ⟨.ok true, t⟩)
    (h' : s.applyProgramOperation E o' height = ⟨.ok true, t'⟩) : o'.package = o.package := by
  obtain ⟨v, r, rfl, rfl⟩ := hsame
  obtain ⟨-, -, -, hp⟩ := deploy_registry hk (applyProgramOperation_true h).2
  obtain ⟨-, -, -, hp'⟩ := deploy_registry hk' (applyProgramOperation_true h').2
  have hlookup := congrArg (fun m : BTreeMap String ProgramRecord =>
    m[o.programId]?.map ProgramRecord.package) (hp'.symm.trans hp)
  simp only [hid, ExtTreeMap.getElem?_insert_self, Option.map_some,
    Option.some.injEq] at hlookup
  exact hlookup

/-! ## 3. The result -/

/-- **What an authorization binds.** Two operations under one key and one signature, both accepted
    in a state at one height, are of one kind, and for a call of one gas limit. Two calls and two
    closes leave states that differ in the receipt at most; so do two storage writes without line
    breaks in program id and key, and two deployments of the same package bytes. Any two
    deployments are of the same program id, by the same creator, at the same height. -/
theorem program_authorization_binds (hbind : E.crypto.SignatureBinds)
    (hkey : o'.publicKey = o.publicKey) (hsig : o'.signature = o.signature) {height : U64}
    (h : s.applyProgramOperation E o height = ⟨.ok true, t⟩)
    (h' : s.applyProgramOperation E o' height = ⟨.ok true, t'⟩) :
    o'.kind = o.kind ∧ (o.kind = .call → o'.gasLimit = o.gasLimit) ∧
      ((o.kind = .deploy → o'.package = o.package) →
        (o.kind = .storageSet → PlainFields o ∧ PlainFields o') → SameButReceipt E o o' t t') ∧
      (o.kind = .deploy → SameDeployment E s o o' height t t') := by
  obtain ⟨-, hm⟩ := applyProgramOperation_true h
  obtain ⟨-, hm'⟩ := applyProgramOperation_true h'
  obtain ⟨hv, -, -⟩ := applyProgramOperationMut_steps hm
  obtain ⟨hv', -, -⟩ := applyProgramOperationMut_steps hm'
  have hsigned' := hv'.signed
  rw [hkey, hsig] at hsigned'
  have hmessage : (programMessage E o).toList = (programMessage E o').toList :=
    congrArg String.toList (Postcard.utf8_inj (hbind _ _ _ _ hv.signed hsigned'))
  have hnonce : o'.nonce = o.nonce := by
    rw [← hv'.nonce, hkey, hv.nonce]
  have hframe : SameFrame o o' := ⟨hv'.chainId.trans hv.chainId.symm, hkey, hnonce⟩
  have hkind := kind_of_message hmessage
  refine ⟨hkind, fun hk => (message_binds_call hframe hmessage hk).2, fun hpackage hplain => ?_,
    fun hk => ?_⟩
  · exact (programMessage_binds hframe hmessage hpackage hplain).sameButReceipt hkey hm hm'
  · have hid := message_binds_plain hframe hmessage (Or.inl hk)
    obtain ⟨package, hd, hp, ht⟩ := deploy_registry hk hm
    obtain ⟨package', hd', hp', ht'⟩ := deploy_registry (hkind.trans hk) hm'
    rw [hid] at hp' ht'
    rw [hkey] at ht'
    exact ⟨package, package', hd, hd', hp, hp', ht, ht'⟩

/-- A program operation that went through, as the function for it answers. -/
theorem apply_program {height : U64} (h : (s.apply E (.program o height)).result = .ok true) :
    s.applyProgramOperation E o height = ⟨.ok true, s.next E (.program o height)⟩ :=
  apply_eq h

end State

namespace Sample

/-- A deployment of the sample package, with the given byte in its header and the signature for the
    package with a zero there. -/
def deploy (reserved : UInt8) : ProgramOperation :=
  { programOperation .deploy 0 500 (packageBytes 0) "" "" with package := packageBytes reserved }

/-- Signatures verify for the text of the deployment and for nothing else. -/
def deployOnly : Env :=
  { Env.standIn with
    crypto := { Crypto.standIn with
      ed25519Verify := fun _ message _ =>
        message == utf8 (State.programMessage .standIn (deploy 0)) } }

theorem deployOnly_signatureBinds : deployOnly.crypto.SignatureBinds := by
  intro key message message' signature h h'
  exact (eq_of_beq h).trans (eq_of_beq h').symm

end Sample

namespace State

/-- Both packages deploy. -/
theorem deploys_zero :
    ((Sample.genesisState 1).apply Sample.deployOnly (.program (Sample.deploy 0) 1)).result =
      .ok true := by
  decide +kernel

theorem deploys_one :
    ((Sample.genesisState 1).apply Sample.deployOnly (.program (Sample.deploy 1) 1)).result =
      .ok true := by
  decide +kernel

/-- Two packages under one signature. -/
theorem program_authorization_binds_deploy :
    SameDeployment Sample.deployOnly (Sample.genesisState 1) (Sample.deploy 0) (Sample.deploy 1) 1
      ((Sample.genesisState 1).next Sample.deployOnly (.program (Sample.deploy 0) 1))
      ((Sample.genesisState 1).next Sample.deployOnly (.program (Sample.deploy 1) 1)) := by
  have hkey : (Sample.deploy 1).publicKey = (Sample.deploy 0).publicKey := rfl
  have hsig : (Sample.deploy 1).signature = (Sample.deploy 0).signature := rfl
  have h := program_authorization_binds Sample.deployOnly_signatureBinds hkey hsig
    (apply_program deploys_zero) (apply_program deploys_one)
  exact h.2.2.2 rfl

/-- The two deployments carry one key and one signature, and leave different packages behind. -/
theorem package_not_bound :
    Sample.deployOnly.crypto.SignatureBinds ∧
      (Sample.deploy 1).publicKey = (Sample.deploy 0).publicKey ∧
      (Sample.deploy 1).signature = (Sample.deploy 0).signature ∧
      (Sample.genesisState 1).applyProgramOperation Sample.deployOnly (Sample.deploy 0) 1 =
        ⟨.ok true, (Sample.genesisState 1).next Sample.deployOnly (.program (Sample.deploy 0) 1)⟩ ∧
      (Sample.genesisState 1).applyProgramOperation Sample.deployOnly (Sample.deploy 1) 1 =
        ⟨.ok true, (Sample.genesisState 1).next Sample.deployOnly (.program (Sample.deploy 1) 1)⟩ ∧
      ¬ SameButReceipt Sample.deployOnly (Sample.deploy 0) (Sample.deploy 1)
        ((Sample.genesisState 1).next Sample.deployOnly (.program (Sample.deploy 0) 1))
        ((Sample.genesisState 1).next Sample.deployOnly (.program (Sample.deploy 1) 1)) := by
  refine ⟨Sample.deployOnly_signatureBinds, rfl, rfl, apply_program deploys_zero,
    apply_program deploys_one, fun hsame => ?_⟩
  have hne : Sample.packageBytes 1 ≠ Sample.packageBytes 0 := by decide +kernel
  exact hne (package_of_sameButReceipt hsame rfl rfl rfl (apply_program deploys_zero)
    (apply_program deploys_one))

end State

end WorldstreetChain
