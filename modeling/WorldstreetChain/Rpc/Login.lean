import WorldstreetChain.Rpc.Bridge

/-!
# Login challenges (`auth_challenge`, `auth_verify`)

A challenge is handed out under a random nonce and kept in a table behind a lock. A verification
takes the lock twice: it looks the challenge up and copies it, checks signature and expiry without
the lock, and removes the nonce, whether it is still there or not. Nothing else leaves the table.

* `Rpc.createChallenge`, `Rpc.verifyChallenge` -- the handlers; the second is `lookupChallenge`,
  `checkChallenge` and `consumeChallenge` in a row.
* `Rpc.LoginServer.next` -- any number of requests, interleaved at their locks.
* `Rpc.challenges_single_use` -- **a nonce is accepted no more often than it was issued**, in every
  run in which each removal finds its nonce.
* `Rpc.login_available_iff` -- **refusals for capacity are due to live challenges**, exactly if no
  challenge is asked for while the table is full and holds an expired one.
-/

namespace WorldstreetChain

open Std

namespace Rpc

/-! ## 1. The handlers -/

structure LoginChallenge where
  chainId : String
  address : Address
  domain : String
  issuedAt : U64
  expiresAt : U64
  deriving DecidableEq

/-- The pending challenges, by nonce. -/
abbrev Challenges := BTreeMap String LoginChallenge

structure ChallengeParams where
  address : String
  domain : String

structure VerifyParams where
  address : String
  domain : String
  nonce : String
  publicKey : String
  signature : String

structure ChallengeReply where
  nonce : String
  message : String
  issuedAt : U64
  expiresAt : U64

structure SessionReply where
  authenticated : Bool
  address : String
  sessionToken : String

def loginTtlSeconds : U64 := 300

def maxPendingChallenges : Nat := 10000

/-- What `getrandom::fill` yields: the bytes, or the text of its error. -/
abbrev Random (k : Nat) := Except String (Vector UInt8 k)

def filled {k : Nat} : Random k → Outcome RpcError (Vector UInt8 k)
  | .ok bytes => .ok bytes
  | .error text => .error (.err (.reply (-32000) text))

section Handlers

-- `chainId` is the one of the node's configuration.
variable (E : Env) (ctx : Context) (chainId : String)

def formatLoginMessageForChain (chainId domain : String) (address : Address) (nonce : String)
    (issuedAt expiresAt : U64) : String :=
  "Intertrain Login\n\nDomain: " ++ domain ++ "\nChain ID: " ++ chainId ++ "\nAddress: " ++
    E.crypto.displayAddress address ++ "\nNonce: " ++ nonce ++ "\nIssued At: " ++
    toString issuedAt.toNat ++ "\nExpires At: " ++ toString expiresAt.toNat

/-- What a new challenge consists of, in front of the lock. -/
def prepareChallenge (p : ChallengeParams) (random : Random 24) (now : U64) :
    Outcome RpcError (String × LoginChallenge) := do
  let address ← parseAddress ctx p.address
  rejectIf (State.isBlank p.domain = true ∨ 255 < p.domain.utf8ByteSize)
    (.reply (-32602) "domain must be 1-255 bytes")
  let nonceBytes ← filled random
  let expiresAt ← Unsigned.add E.overflowChecks now loginTtlSeconds
  .ok (hexString nonceBytes.toList,
    { chainId, address, domain := p.domain, issuedAt := now, expiresAt })

def createChallenge (p : ChallengeParams) (random : Random 24) (now : U64)
    (challenges : Challenges) : Applied RpcError Challenges ChallengeReply :=
  .attempt challenges (prepareChallenge E ctx chainId p random now) fun (nonce, challenge) =>
  .attempt challenges (rejectIf (maxPendingChallenges ≤ challenges.size)
    (.reply (-32029) "too many pending login challenges")) fun _ =>
  ⟨.ok
    { nonce
      message := formatLoginMessageForChain E challenge.chainId challenge.domain
        challenge.address nonce challenge.issuedAt challenge.expiresAt
      issuedAt := challenge.issuedAt
      expiresAt := challenge.expiresAt },
    challenges.insert nonce challenge⟩

/-- A verification behind its lookup: what it was asked, and its copy of the challenge. -/
structure Flight where
  nonce : String
  address : Address
  domain : String
  publicKey : PublicKey
  signature : Signature
  challenge : LoginChallenge

/-- The keys of a request. -/
def parseKeys (p : VerifyParams) : Outcome RpcError (PublicKey × Signature) := do
  let publicKeyBytes ← orFail (hexDecode p.publicKey.toList)
    (.reply (-32602) "public_key must be hex")
  let signatureBytes ← orFail (hexDecode p.signature.toList)
    (.reply (-32602) "signature must be hex")
  if h : publicKeyBytes.length = 32 ∧ signatureBytes.length = 64 then
    .ok (⟨⟨publicKeyBytes.toArray, h.1⟩⟩, ⟨⟨signatureBytes.toArray, h.2⟩⟩)
  else .error (.err (.reply (-32602) "public_key or signature has the wrong length"))

/-- The first lock: the challenge is copied. -/
def lookupChallenge (p : VerifyParams) (challenges : Challenges) : Outcome RpcError Flight := do
  let address ← parseAddress ctx p.address
  let (publicKey, signature) ← parseKeys p
  rejectIf (E.crypto.addressFromPublicKey publicKey ≠ address)
    (.reply (-32001) "public key does not derive address")
  let challenge ← orFail challenges[p.nonce]?
    (.reply (-32004) "challenge not found or already used")
  .ok { nonce := p.nonce, address, domain := p.domain, publicKey, signature, challenge }

/-- Without a lock: binding, expiry and signature. -/
def checkChallenge (f : Flight) (now : U64) : Outcome RpcError Unit := do
  rejectIf (f.challenge.address ≠ f.address ∨ f.challenge.domain ≠ f.domain
    ∨ f.challenge.expiresAt < now) (.reply (-32004) "challenge is invalid or expired")
  let message := formatLoginMessageForChain E f.challenge.chainId f.domain f.address f.nonce
    f.challenge.issuedAt f.challenge.expiresAt
  rejectIf (E.crypto.verify f.publicKey (Postcard.utf8 message) f.signature = false)
    (.reply (-32001) "invalid login signature")
  .ok ()

/-- The second lock: the nonce is removed, if it is there, and a session is granted. -/
def consumeChallenge (f : Flight) (random : Random 32) (challenges : Challenges) :
    Applied RpcError Challenges SessionReply :=
  let challenges : Challenges := challenges.erase f.nonce
  .attempt challenges (filled random) fun tokenBytes =>
  ⟨.ok
    { authenticated := true
      address := E.crypto.displayAddress f.address
      sessionToken := hexString tokenBytes.toList },
    challenges⟩

def verifyChallenge (p : VerifyParams) (now : U64) (random : Random 32)
    (challenges : Challenges) : Applied RpcError Challenges SessionReply :=
  .attempt challenges (lookupChallenge E ctx p challenges) fun f =>
  .attempt challenges (checkChallenge E f now) fun _ =>
  consumeChallenge E f random challenges

end Handlers

/-! ## 2. Requests side by side -/

/-- The table, and the verifications behind their lookup, each with whether it has passed its
    checks. -/
structure LoginServer where
  challenges : Challenges
  flights : List (Flight × Bool)

/-- A request for a challenge, or a part of a verification: its lookup, its checks, its removal. -/
inductive LoginEvent where
  | challenge (p : ChallengeParams) (random : Random 24) (now : U64)
  | lookup (p : VerifyParams)
  | check (i : Nat) (now : U64)
  | remove (i : Nat) (random : Random 32)

namespace LoginServer

def start : LoginServer := ⟨∅, []⟩

variable (E : Env) (ctx : Context) (chainId : String) (s : LoginServer)

def next : LoginEvent → LoginServer
  | .challenge p random now =>
    { s with challenges := (createChallenge E ctx chainId p random now s.challenges).state }
  | .lookup p =>
    match lookupChallenge E ctx p s.challenges with
    | .ok f => { s with flights := s.flights ++ [(f, false)] }
    | .error _ => s
  | .check i now =>
    match s.flights[i]? with
    | some (f, false) =>
      if (checkChallenge E f now).isOk then { s with flights := s.flights.set i (f, true) }
      else { s with flights := s.flights.eraseIdx i }
    | _ => s
  | .remove i random =>
    match s.flights[i]? with
    | some (f, true) =>
      { challenges := (consumeChallenge E f random s.challenges).state
        flights := s.flights.eraseIdx i }
    | _ => s

/-- The nonce of a challenge that is handed out. -/
def issues : LoginEvent → Option String
  | .challenge p random now =>
    match (createChallenge E ctx chainId p random now s.challenges).result with
    | .ok reply => some reply.nonce
    | .error _ => none
  | _ => none

/-- The nonce for which a session is granted. -/
def accepts : LoginEvent → Option String
  | .remove i random =>
    match s.flights[i]? with
    | some (f, true) =>
      if (consumeChallenge E f random s.challenges).result.isOk then some f.nonce else none
    | _ => none
  | _ => none

variable {E ctx chainId s} {e : LoginEvent} {nonce : String}

/-- **A request alone** is its three parts in a row. -/
theorem verifyChallenge_alone (p : VerifyParams) (now : U64) (random : Random 32)
    (challenges : Challenges) :
    runs (next E ctx chainId) ⟨challenges, []⟩ [.lookup p, .check 0 now, .remove 0 random] =
      ⟨(verifyChallenge E ctx p now random challenges).state, []⟩ := by
  unfold verifyChallenge
  simp only [runs_cons, runs_nil, next]
  cases hl : lookupChallenge E ctx p challenges with
  | error e => rfl
  | ok f =>
    simp only [List.nil_append, List.getElem?_cons_zero, List.set_cons_zero,
      List.eraseIdx_cons_zero, Applied.attempt_ok]
    cases hc : checkChallenge E f now with
    | error e => rfl
    | ok u => rfl

/-! ## 3. What an event does to the table -/

/-- Nothing, or a challenge is issued, or a nonce is removed. -/
inductive TableStep (E : Env) (ctx : Context) (chainId : String) (s : LoginServer) :
    LoginEvent → Prop where
  | quiet (e : LoginEvent) (hsame : (next E ctx chainId s e).challenges = s.challenges)
      (hissues : issues E ctx chainId s e = none) (haccepts : accepts E s e = none) :
      TableStep E ctx chainId s e
  | issued (p : ChallengeParams) (random : Random 24) (now : U64) (nonce : String)
      (challenge : LoginChallenge)
      (hprepare : prepareChallenge E ctx chainId p random now = .ok (nonce, challenge))
      (hroom : s.challenges.size < maxPendingChallenges)
      (hnext : (next E ctx chainId s (.challenge p random now)).challenges =
        s.challenges.insert nonce challenge)
      (hissues : issues E ctx chainId s (.challenge p random now) = some nonce) :
      TableStep E ctx chainId s (.challenge p random now)
  | removed (i : Nat) (random : Random 32) (f : Flight) (hf : s.flights[i]? = some (f, true))
      (hnext : (next E ctx chainId s (.remove i random)).challenges =
        s.challenges.erase f.nonce)
      (haccepts : accepts E s (.remove i random) = none ∨
        accepts E s (.remove i random) = some f.nonce) :
      TableStep E ctx chainId s (.remove i random)

theorem next_challenge {p : ChallengeParams} {random : Random 24} {now : U64} {nonce : String}
    {challenge : LoginChallenge}
    (hprepare : prepareChallenge E ctx chainId p random now = .ok (nonce, challenge))
    (hroom : s.challenges.size < maxPendingChallenges) :
    (next E ctx chainId s (.challenge p random now)).challenges =
      s.challenges.insert nonce challenge := by
  unfold next createChallenge
  simp only [hprepare, Applied.attempt_ok, rejectIf_neg (Nat.not_le.mpr hroom)]

theorem tableStep_challenge (p : ChallengeParams) (random : Random 24) (now : U64) :
    TableStep E ctx chainId s (.challenge p random now) := by
  cases hp : prepareChallenge E ctx chainId p random now with
  | error e =>
    have hc : createChallenge E ctx chainId p random now s.challenges =
        ⟨.error e, s.challenges⟩ := by
      unfold createChallenge
      rw [hp]
      rfl
    refine .quiet _ ?_ ?_ rfl
    · rw [next, hc]
    · rw [issues, hc]
  | ok r =>
    obtain ⟨nonce, challenge⟩ := r
    by_cases hfull : maxPendingChallenges ≤ s.challenges.size
    · have hc : createChallenge E ctx chainId p random now s.challenges = ⟨.error (.err
          (.reply (-32029) "too many pending login challenges")), s.challenges⟩ := by
        unfold createChallenge
        simp only [hp, Applied.attempt_ok, rejectIf_pos hfull]
        rfl
      refine .quiet _ ?_ ?_ rfl
      · rw [next, hc]
      · rw [issues, hc]
    · have hroom := Nat.not_le.mp hfull
      refine .issued p random now nonce challenge hp hroom (next_challenge hp hroom) ?_
      unfold issues createChallenge
      simp only [hp, Applied.attempt_ok, rejectIf_neg hfull]

theorem tableStep_remove (i : Nat) (random : Random 32) :
    TableStep E ctx chainId s (.remove i random) := by
  cases hf : s.flights[i]? with
  | none =>
    refine .quiet _ ?_ rfl ?_
    · rw [next, hf]
    · rw [accepts, hf]
  | some r =>
    obtain ⟨f, verified⟩ := r
    cases verified with
    | false =>
      refine .quiet _ ?_ rfl ?_
      · rw [next, hf]
      · rw [accepts, hf]
    | true =>
      have herase : (consumeChallenge E f random s.challenges).state =
          s.challenges.erase f.nonce := by
        unfold consumeChallenge
        exact Applied.attempt_state fun _ => rfl
      refine .removed i random f hf ?_ ?_
      · rw [next, hf]
        exact herase
      · rw [accepts, hf]
        dsimp only
        split
        · exact Or.inr rfl
        · exact Or.inl rfl

/-- **The table rule.** -/
theorem table_step (E : Env) (ctx : Context) (chainId : String) (s : LoginServer)
    (e : LoginEvent) : TableStep E ctx chainId s e := by
  cases e with
  | challenge p random now => exact tableStep_challenge p random now
  | lookup p =>
    refine .quiet _ ?_ rfl rfl
    rw [next]
    split <;> rfl
  | check i now =>
    refine .quiet _ ?_ rfl rfl
    rw [next]
    split
    · split <;> rfl
    · rfl
  | remove i random => exact tableStep_remove i random

/-! ## 4. Single use -/

/-- A removal finds its nonce in the table: nobody has removed it since the lookup. -/
def Undisturbed (s : LoginServer) : LoginEvent → Prop
  | .remove i _ => ∀ f, s.flights[i]? = some (f, true) → f.nonce ∈ s.challenges
  | _ => True

/-- How often a nonce stands in the table. -/
def pending (nonce : String) (s : LoginServer) : Nat := if nonce ∈ s.challenges then 1 else 0

/-- **One event**: a nonce is accepted out of the table, and put there when it is issued. -/
theorem accepted_step (h : Undisturbed s e) :
    (accepts E s e).toList.count nonce + pending nonce (next E ctx chainId s e) ≤
      (issues E ctx chainId s e).toList.count nonce + pending nonce s := by
  cases table_step E ctx chainId s e with
  | quiet _ hsame hissues haccepts =>
    rw [hissues, haccepts, pending, hsame]
    exact Nat.le_refl _
  | issued p random now k challenge _ _ hnext hissues =>
    simp only [hissues, pending, hnext, ExtTreeMap.mem_insert]
    by_cases hk : k = nonce
    · subst hk
      simp [accepts]
    · have hne : ¬ compare k nonce = .eq := fun hc => hk (LawfulEqOrd.eq_of_compare hc)
      simp [accepts, hne, hk]
  | removed i random f hf hnext haccepts =>
    have hthere := h f hf
    simp only [pending, hnext, ExtTreeMap.mem_erase]
    by_cases hk : f.nonce = nonce
    · subst hk
      rcases haccepts with ha | ha <;> simp [ha, issues, hthere]
    · rcases haccepts with ha | ha <;> simp [ha, issues, hk]

/-- **A nonce is accepted no more often than it was issued** and stood in the table. -/
theorem accepted_le {events : List LoginEvent}
    (h : EachStep (next E ctx chainId) Undisturbed s events) :
    (emitted (next E ctx chainId) (accepts E) s events).count nonce ≤
      (emitted (next E ctx chainId) (issues E ctx chainId) s events).count nonce +
        pending nonce s := by
  induction events generalizing s with
  | nil => exact Nat.zero_le _
  | cons e events ih =>
    have hrest := ih h.2
    have hstep : (accepts E s e).toList.count nonce + pending nonce (next E ctx chainId s e) ≤
        (issues E ctx chainId s e).toList.count nonce + pending nonce s := accepted_step h.1
    rw [emitted, emitted, List.count_append, List.count_append]
    omega

/-- **A challenge is single-use**: in every run of interleaved requests in which each removal finds
    its nonce, a nonce is accepted no more often than it was issued, so at most once if no nonce is
    issued twice. -/
theorem challenges_single_use (E : Env) (ctx : Context) (chainId : String)
    {events : List LoginEvent} (h : EachStep (next E ctx chainId) Undisturbed start events) :
    (∀ nonce, (emitted (next E ctx chainId) (accepts E) start events).count nonce ≤
      (emitted (next E ctx chainId) (issues E ctx chainId) start events).count nonce) ∧
    ((emitted (next E ctx chainId) (issues E ctx chainId) start events).Nodup →
      (emitted (next E ctx chainId) (accepts E) start events).Nodup) := by
  have hcount : ∀ nonce, (emitted (next E ctx chainId) (accepts E) start events).count nonce ≤
      (emitted (next E ctx chainId) (issues E ctx chainId) start events).count nonce :=
    fun nonce => accepted_le h
  refine ⟨hcount, fun hissued => List.nodup_iff_count_le_one.mpr fun nonce => ?_⟩
  exact Nat.le_trans (hcount nonce) (List.nodup_iff_count_le_one.mp hissued nonce)

theorem lookupChallenge_nonce {p : VerifyParams} {challenges : Challenges} {f : Flight}
    (h : lookupChallenge E ctx p challenges = .ok f) : f.nonce ∈ challenges := by
  unfold lookupChallenge at h
  obtain ⟨address, -, h⟩ := Outcome.bind_eq_ok.mp h
  obtain ⟨⟨publicKey, signature⟩, -, h⟩ := Outcome.bind_eq_ok.mp h
  obtain ⟨-, h⟩ := rejectIf_bind_eq_ok.mp h
  obtain ⟨challenge, hc, h⟩ := orFail_bind_eq_ok.mp h
  cases h
  exact ExtTreeMap.mem_iff_isSome_getElem?.mpr (by rw [hc]; rfl)

theorem flights_challenge (s : LoginServer) (p : ChallengeParams) (random : Random 24)
    (now : U64) : (next E ctx chainId s (.challenge p random now)).flights = s.flights := rfl

/-- A request alone finds its nonce, and leaves no other in flight. -/
theorem undisturbed_alone (p : VerifyParams) (now : U64) (random : Random 32)
    (halone : s.flights = []) :
    EachStep (next E ctx chainId) Undisturbed s [.lookup p, .check 0 now, .remove 0 random] ∧
      (runs (next E ctx chainId) s [.lookup p, .check 0 now, .remove 0 random]).flights = [] := by
  obtain ⟨challenges, flights⟩ := s
  cases halone
  cases hl : lookupChallenge E ctx p challenges with
  | error e =>
    refine ⟨⟨trivial, trivial, fun f hf => ?_, trivial⟩, by simp [next, hl]⟩
    simp only [next, hl] at hf
    cases hf
  | ok g =>
    cases hc : (checkChallenge E g now).isOk with
    | false =>
      refine ⟨⟨trivial, trivial, fun f hf => ?_, trivial⟩, by simp [next, hl, hc]⟩
      simp only [next, hl, hc, List.nil_append, List.getElem?_cons_zero] at hf
      cases hf
    | true =>
      refine ⟨⟨trivial, trivial, fun f hf => ?_, trivial⟩, by simp [next, hl, hc]⟩
      simp only [next, hl, hc, List.nil_append, List.getElem?_cons_zero] at hf ⊢
      cases hf
      exact lookupChallenge_nonce hl

end LoginServer

end Rpc

namespace Sample

open Rpc

/-- A decoder that knows the account's address. -/
def loginContext : Rpc.Context where
  operatorToken := ""
  parseAddress text :=
    if text = Crypto.standIn.displayAddress address then .ok address else .error "unknown"

def loginBytes : Vector UInt8 24 := Vector.replicate 24 5

def loginParams : ChallengeParams where
  address := Crypto.standIn.displayAddress address
  domain := "app.example"

/-- The account's answer to the challenge that is made at time 1 of random bytes. -/
def answerTo (random : Vector UInt8 24) : VerifyParams :=
  let nonce := hexString random.toList
  let message := formatLoginMessageForChain .standIn chainId "app.example" address nonce 1 301
  { address := Crypto.standIn.displayAddress address
    domain := "app.example"
    nonce := nonce
    publicKey := hexString publicKey.bytes.toList
    signature := hexString (Crypto.standIn.sign keyPair (Postcard.utf8 message)).bytes.toList }

def loginAnswer : VerifyParams := answerTo loginBytes

def otherBytes : Vector UInt8 24 := Vector.replicate 24 8

def sessionBytes : Random 32 := .ok (Vector.replicate 32 6)

/-- Two challenges are handed out. -/
def handedOut : List LoginEvent :=
  [.challenge loginParams (.ok loginBytes) 1, .challenge loginParams (.ok otherBytes) 1]

/-- They are answered one after the other. -/
def twoLogins : List LoginEvent :=
  handedOut ++
    ([.lookup (answerTo otherBytes), .check 0 2, .remove 0 sessionBytes] ++
      [.lookup loginAnswer, .check 0 2, .remove 0 sessionBytes])

/-- The answer is sent twice, the second before the first has removed the nonce. -/
def doubleLogin : List LoginEvent :=
  [.challenge loginParams (.ok loginBytes) 1, .lookup loginAnswer, .lookup loginAnswer, .check 0 2,
    .check 1 2, .remove 0 sessionBytes, .remove 0 sessionBytes]

end Sample

namespace Rpc.LoginServer

/-- Two logins, one after the other. -/
theorem challenges_single_use_logins :
    (∀ nonce, (emitted (next .standIn Sample.loginContext Sample.chainId) (accepts .standIn) start
        Sample.twoLogins).count nonce ≤ (emitted (next .standIn Sample.loginContext Sample.chainId)
          (issues .standIn Sample.loginContext Sample.chainId) start
            Sample.twoLogins).count nonce) ∧
    ((emitted (next .standIn Sample.loginContext Sample.chainId)
        (issues .standIn Sample.loginContext Sample.chainId) start Sample.twoLogins).Nodup →
      (emitted (next .standIn Sample.loginContext Sample.chainId) (accepts .standIn) start
        Sample.twoLogins).Nodup) := by
  have halone : (runs (next .standIn Sample.loginContext Sample.chainId) start
      Sample.handedOut).flights = [] := by
    unfold Sample.handedOut
    rw [runs_cons, runs_cons, runs_nil, flights_challenge, flights_challenge]
    rfl
  obtain ⟨hother, hrest⟩ := undisturbed_alone (Sample.answerTo Sample.otherBytes) 2
    Sample.sessionBytes halone
  obtain ⟨hfirst, -⟩ := undisturbed_alone Sample.loginAnswer 2 Sample.sessionBytes hrest
  exact challenges_single_use .standIn Sample.loginContext Sample.chainId
    (eachStep_append.mpr ⟨⟨trivial, trivial, trivial⟩, eachStep_append.mpr ⟨hother, hfirst⟩⟩)

/-- Two sessions for one challenge. -/
theorem double_login_accepted :
    emitted (next .standIn Sample.loginContext Sample.chainId)
        (issues .standIn Sample.loginContext Sample.chainId) start Sample.doubleLogin =
          [Sample.loginAnswer.nonce] ∧
      emitted (next .standIn Sample.loginContext Sample.chainId) (accepts .standIn) start
        Sample.doubleLogin = [Sample.loginAnswer.nonce, Sample.loginAnswer.nonce] := by
  decide +kernel

variable {E : Env} {ctx : Context} {chainId : String} {s : LoginServer} {e : LoginEvent}

/-! ## 5. Capacity -/

/-- How many pending challenges have not expired. -/
def live (challenges : Challenges) (now : U64) : Nat :=
  (challenges.toList.filter fun e => ¬ e.2.expiresAt < now).length

/-- A refusal for capacity means that as many challenges are live as may be pending. -/
def Available (E : Env) (ctx : Context) (chainId : String) (s : LoginServer) : LoginEvent → Prop
  | .challenge p random now =>
    (createChallenge E ctx chainId p random now s.challenges).result =
      .error (.err (.reply (-32029) "too many pending login challenges")) →
    maxPendingChallenges ≤ live s.challenges now
  | _ => True

/-- A challenge that can be made is not asked for while the table is full and holds an expired
    one. -/
def NoneExpiredWhenFull (E : Env) (ctx : Context) (chainId : String) (s : LoginServer) :
    LoginEvent → Prop
  | .challenge p random now =>
    (prepareChallenge E ctx chainId p random now).isOk = true →
    maxPendingChallenges ≤ s.challenges.size →
    ∀ (nonce : String) (c : LoginChallenge), s.challenges[nonce]? = some c → ¬ c.expiresAt < now
  | _ => True

theorem live_le (challenges : Challenges) (now : U64) : live challenges now ≤ challenges.size := by
  rw [← ExtTreeMap.length_toList]
  exact List.length_filter_le _ _

/-- All are live exactly if none has expired. -/
theorem live_eq_iff {challenges : Challenges} {now : U64} :
    live challenges now = challenges.size ↔
      ∀ (nonce : String) (c : LoginChallenge), challenges[nonce]? = some c →
        ¬ c.expiresAt < now := by
  rw [← ExtTreeMap.length_toList, live, List.length_filter_eq_length_iff]
  constructor
  · intro h nonce c hc
    simpa using h (nonce, c) (ExtTreeMap.mem_toList_iff_getElem?_eq_some.mpr hc)
  · rintro h ⟨nonce, c⟩ hc
    simpa using h nonce c (ExtTreeMap.mem_toList_iff_getElem?_eq_some.mp hc)

/-- The preparation fails for other reasons. -/
theorem prepareChallenge_avoids {p : ChallengeParams} {random : Random 24} {now : U64} :
    Avoids (prepareChallenge E ctx chainId p random now)
      (.reply (-32029) "too many pending login challenges") := by
  unfold prepareChallenge
  refine Avoids.bind ?_ fun _ _ => .reject (by simp) fun _ => .bind ?_ fun _ _ =>
    .bind ?_ fun _ _ => avoids_ok _ _
  · unfold parseAddress
    split
    · exact avoids_ok _ _
    · exact nofun
  · cases random with
    | ok bytes => exact avoids_ok _ _
    | error text => exact nofun
  · exact Unsigned.add_avoids

/-- **When a challenge is refused for capacity**: it can be made and the table is full. -/
theorem createChallenge_refused_iff {p : ChallengeParams} {random : Random 24} {now : U64}
    {challenges : Challenges} :
    (createChallenge E ctx chainId p random now challenges).result =
        .error (.err (.reply (-32029) "too many pending login challenges")) ↔
      (prepareChallenge E ctx chainId p random now).isOk = true ∧
        maxPendingChallenges ≤ challenges.size := by
  unfold createChallenge
  cases hp : prepareChallenge E ctx chainId p random now with
  | error e =>
    refine iff_of_false (fun h => ?_) fun h => ?_
    · have he : e = .err (.reply (-32029) "too many pending login challenges") :=
        Except.error.inj h
      exact prepareChallenge_avoids (hp.trans (congrArg Except.error he))
    · cases h.1
  | ok r =>
    by_cases hfull : maxPendingChallenges ≤ challenges.size
    · simp only [Applied.attempt_ok, rejectIf_pos hfull]
      exact iff_of_true rfl ⟨rfl, hfull⟩
    · simp only [Applied.attempt_ok, rejectIf_neg hfull]
      exact iff_of_false (fun h => by cases h) fun h => hfull h.2

/-- The table never holds more than the maximum. -/
theorem size_next (h : s.challenges.size ≤ maxPendingChallenges) :
    (next E ctx chainId s e).challenges.size ≤ maxPendingChallenges := by
  cases table_step E ctx chainId s e with
  | quiet _ hsame =>
    rw [hsame]
    exact h
  | issued p random now nonce challenge _ hroom hnext =>
    rw [hnext]
    have hinsert := ExtTreeMap.size_insert_le (t := s.challenges) (k := nonce) (v := challenge)
    omega
  | removed i random f hf hnext =>
    rw [hnext]
    exact Nat.le_trans ExtTreeMap.size_erase_le h

/-- **One event** is available exactly if no challenge has expired in a full table. -/
theorem available_iff (h : s.challenges.size ≤ maxPendingChallenges) :
    Available E ctx chainId s e ↔ NoneExpiredWhenFull E ctx chainId s e := by
  cases e with
  | challenge p random now =>
    unfold Available NoneExpiredWhenFull
    simp only [createChallenge_refused_iff, and_imp]
    refine imp_congr_right fun _ => imp_congr_right fun hfull => ?_
    have hsize : s.challenges.size = maxPendingChallenges := Nat.le_antisymm h hfull
    rw [← live_eq_iff, hsize]
    have hle := live_le s.challenges now
    exact ⟨fun hlive => by omega, fun hlive => by omega⟩
  | _ => exact Iff.rfl

/-- **Login stays available**: in every run every refusal for capacity is due to as many live
    challenges as may be pending, if and only if no challenge is asked for while the table is full
    and holds an expired one. -/
theorem login_available_iff (E : Env) (ctx : Context) (chainId : String)
    (events : List LoginEvent) :
    EachStep (next E ctx chainId) (Available E ctx chainId) start events ↔
      EachStep (next E ctx chainId) (NoneExpiredWhenFull E ctx chainId) start events :=
  EachStep.iff_of_invariant (I := fun s => s.challenges.size ≤ maxPendingChallenges)
    (fun _ _ h => size_next h) (fun _ _ h => available_iff h) (Nat.zero_le _)

end Rpc.LoginServer

namespace Sample

open Rpc

/-- The nonces count up. -/
def countedBytes (i : Nat) : Vector UInt8 24 := ⟨(Unsigned.beBytes 24 i).toArray, by simp⟩

/-- `k` challenges are asked for at time 0, and none is answered. -/
def flood (k : Nat) : List LoginEvent :=
  (List.range k).map fun i => .challenge loginParams (.ok (countedBytes i)) 0

end Sample

namespace Rpc.LoginServer

open Sample (countedBytes flood loginContext loginParams)

/-- A challenge of the flood. -/
def floodChallenge (now : U64) : LoginChallenge where
  chainId := Sample.chainId
  address := Sample.address
  domain := "app.example"
  issuedAt := now
  expiresAt := now + 300

theorem prepare_flood (bytes : Vector UInt8 24) {now : U64}
    (h : now.toNat + loginTtlSeconds.toNat < 2 ^ 64) :
    prepareChallenge .standIn loginContext Sample.chainId loginParams (.ok bytes) now =
      .ok (hexString bytes.toList, floodChallenge now) := by
  have haddress : parseAddress loginContext loginParams.address = .ok Sample.address := by
    unfold parseAddress loginContext loginParams
    simp only [if_true]
  have hdomain : ¬ (State.isBlank loginParams.domain = true ∨
      255 < loginParams.domain.utf8ByteSize) := by decide +kernel
  unfold prepareChallenge
  rw [haddress, rejectIf_neg hdomain, filled, Unsigned.add_of_lt h]
  rfl

theorem counted_nonce_inj {i j : Nat} (hi : i < 256 ^ 24) (hj : j < 256 ^ 24)
    (h : hexString (countedBytes i).toList = hexString (countedBytes j).toList) : i = j := by
  have hbytes := flatMap_hexByte_injective (String.ofList_injective h)
  have hcount : Unsigned.beBytes 24 i = Unsigned.beBytes 24 j := hbytes
  rw [← Unsigned.ofBeBytes_beBytes hi, hcount, Unsigned.ofBeBytes_beBytes hj]

/-- The challenges of the flood stand in the table, and nothing else does. -/
theorem flood_challenges {k : Nat} (hk : k ≤ maxPendingChallenges) :
    (runs (next .standIn loginContext Sample.chainId) start (flood k)).challenges.size = k ∧
    ∀ (nonce : String) (c : LoginChallenge),
      (runs (next .standIn loginContext Sample.chainId) start (flood k)).challenges[nonce]? =
          some c →
        c.expiresAt = 300 ∧ ∃ i < k, nonce = hexString (countedBytes i).toList := by
  induction k with
  | zero => exact ⟨rfl, fun nonce c hc => by cases hc⟩
  | succ k ih =>
    obtain ⟨hsize, hentries⟩ := ih (Nat.le_of_succ_le hk)
    have hflood : flood (k + 1) = flood k ++ [.challenge loginParams (.ok (countedBytes k)) 0] := by
      rw [flood, List.range_succ, List.map_append]
      rfl
    have hroom : (runs (next .standIn loginContext Sample.chainId) start
        (flood k)).challenges.size < maxPendingChallenges := hsize.symm ▸ hk
    have hprepare := prepare_flood (countedBytes k) (show (0 : U64).toNat + _ < _ by decide)
    rw [hflood, runs_append, runs_cons, runs_nil, next_challenge hprepare hroom]
    have hfresh : hexString (countedBytes k).toList ∉ (runs (next .standIn loginContext
        Sample.chainId) start (flood k)).challenges := by
      intro hmem
      obtain ⟨i, hi, hnonce⟩ := (hentries _ _ (ExtTreeMap.getElem?_eq_some_getElem hmem)).2
      have hbound : maxPendingChallenges < 256 ^ 24 := by decide
      have heq := counted_nonce_inj (by omega) (by omega) hnonce
      omega
    refine ⟨?_, fun nonce c hc => ?_⟩
    · have hcontains := fun h => hfresh (ExtTreeMap.mem_iff_contains.mpr h)
      exact ExtTreeMap.size_insert.trans ((if_neg hcontains).trans (congrArg (· + 1) hsize))
    · rw [ExtTreeMap.getElem?_insert] at hc
      split at hc
      case isTrue heq =>
        cases hc
        exact ⟨rfl, k, Nat.lt_succ_self k, (LawfulEqOrd.eq_of_compare heq).symm⟩
      case isFalse =>
        obtain ⟨hexpires, i, hi, hnonce⟩ := hentries nonce c hc
        exact ⟨hexpires, i, Nat.lt_succ_of_lt hi, hnonce⟩

/-- Ten thousand abandoned challenges, all expired at time 301, and the next one is refused. -/
theorem expired_challenges_block_login :
    (createChallenge .standIn loginContext Sample.chainId loginParams (.ok Sample.loginBytes) 301
        (runs (next .standIn loginContext Sample.chainId) start
          (flood maxPendingChallenges)).challenges).result =
      .error (.err (.reply (-32029) "too many pending login challenges")) ∧
    live (runs (next .standIn loginContext Sample.chainId) start
      (flood maxPendingChallenges)).challenges 301 = 0 := by
  obtain ⟨hsize, hentries⟩ := flood_challenges (Nat.le_refl maxPendingChallenges)
  constructor
  · rw [createChallenge_refused_iff, prepare_flood Sample.loginBytes (by decide)]
    exact ⟨rfl, Nat.le_of_eq hsize.symm⟩
  · rw [live, List.length_eq_zero_iff, List.filter_eq_nil_iff]
    rintro ⟨nonce, c⟩ hc
    have hexpires := (hentries nonce c (ExtTreeMap.mem_toList_iff_getElem?_eq_some.mp hc)).1
    simp [hexpires]

end Rpc.LoginServer

end WorldstreetChain
