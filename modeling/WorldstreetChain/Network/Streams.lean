import WorldstreetChain.Network.Session

/-!
# What a connection reads

A frame does not depend on the pieces in which it arrives. So a connection reads what the other
side has written, in its order, whatever happens on other connections in between; and one that
does not greet with the chain and the genesis of the node moves nothing.

* `readMessage_append` -- a frame is read as soon as it is there.
* `Hub.reads` -- the messages read on a connection.
* `Hub.reads_written` -- **what is read was written**, in this order, and the rest is still there.
* `Hub.stranger_invisible` -- **a stranger moves nothing**: the peer and all other connections are
  as if nothing had ever arrived from it.
-/

namespace WorldstreetChain

open Std

/-- **A frame that has arrived is read**, whatever comes behind it. -/
theorem readMessage_append {bytes rest : List UInt8} {message : NetworkMessage}
    (h : readMessage bytes = .ok (message, rest)) (more : List UInt8) :
    readMessage (bytes ++ more) = .ok (message, rest ++ more) := by
  unfold readMessage at h ⊢
  obtain ⟨hfour, h⟩ := rejectIf_bind_eq_ok.mp h
  obtain ⟨hlength, h⟩ := rejectIf_bind_eq_ok.mp h
  obtain ⟨hwhole, h⟩ := rejectIf_bind_eq_ok.mp h
  obtain ⟨m, hm, h⟩ := orFail_bind_eq_ok.mp h
  cases h
  have htake : (bytes ++ more).take 4 = bytes.take 4 :=
    List.take_append_of_le_length (by omega)
  have hdrop : (bytes ++ more).drop 4 = bytes.drop 4 ++ more :=
    List.drop_append_of_le_length (by omega)
  rw [htake, hdrop]
  generalize bytes.drop 4 = payload at hwhole hm ⊢
  generalize Unsigned.ofBeBytes (bytes.take 4) = length at hlength hwhole hm ⊢
  refine rejectIf_bind_eq_ok.mpr ⟨?_, rejectIf_bind_eq_ok.mpr ⟨hlength,
    rejectIf_bind_eq_ok.mpr ⟨?_, orFail_bind_eq_ok.mpr ⟨message, ?_, ?_⟩⟩⟩⟩
  · rw [List.length_append]
    omega
  · rw [List.length_append]
    omega
  · rw [List.take_append_of_le_length (by omega)]
    exact hm
  · rw [List.drop_append_of_le_length (by omega)]

namespace Hub

variable {E : Env} {P : Peer} {C : Connection} {io : Io} {H H' : Hub} {i : Nat}
  {events : List Event}

/-! ## 1. What arrives -/

/-- The bytes the event brings to the `i`-th connection. -/
def brings (i : Nat) : Event → List UInt8
  | .arrive j bytes => if j = i then bytes else []
  | _ => []

def arrivals (i : Nat) (events : List Event) : List UInt8 := events.flatMap (brings i)

/-- The event is one of the `i`-th connection alone. -/
def concerns (i : Nat) : Event → Bool
  | .arrive j _ | .go _ j | .fail j => j == i
  | _ => false

/-- An event of another connection leaves this one alone. -/
theorem getElem?_next (hi : i < H.connections.length) {e : Event} (he : concerns i e = false) :
    (H.next E e).connections[i]? = H.connections[i]? := by
  cases e with
  | connect initiator =>
    show (H.connect initiator).connections[i]? = _
    unfold connect
    cases H.localHello with
    | error e => rfl
    | ok hello => exact List.getElem?_append_left hi
  | call c => rfl
  | arrive j bytes =>
    have hj : j ≠ i := by simpa [concerns] using he
    cases hC : H.connections[j]? with
    | none => rw [(next_absent hC).1 bytes]
    | some C =>
      rw [next_arrive hC]
      exact List.getElem?_set_ne hj
  | go io j =>
    have hj : j ≠ i := by simpa [concerns] using he
    cases hC : H.connections[j]? with
    | none => rw [(next_absent hC).2.1 io]
    | some C =>
      rw [next_go hC]
      exact List.getElem?_set_ne hj
  | fail j =>
    have hj : j ≠ i := by simpa [concerns] using he
    cases hC : H.connections[j]? with
    | none => rw [(next_absent hC).2.2]
    | some C =>
      rw [next_fail hC]
      split
      · exact List.getElem?_set_ne hj
      · rfl

/-! ## 2. Inboxes -/

theorem inbox_send (C : Connection) (ms : List NetworkMessage) : (C.send ms).inbox = C.inbox := by
  induction ms generalizing C with
  | nil => rfl
  | cons m ms ih =>
    unfold Connection.send
    split
    · exact ih _
    · rfl

theorem inbox_greet (C : Connection) (m : NetworkMessage) : (C.greet m).inbox = C.inbox := by
  unfold Connection.greet
  split
  · exact inbox_send _ _
  · rfl

theorem inbox_handle (C : Connection) (m : NetworkMessage) :
    (handle E P C m).2.inbox = C.inbox := by
  cases m with
  | hello chainId genesisHash height nodeId => rfl
  | transactions ts => rfl
  | getBlocks first last =>
    unfold handle
    dsimp only
    split
    · exact inbox_send _ _
    · rfl
  | blocks blocks =>
    unfold handle
    dsimp only
    split <;> rfl
  | getMempool =>
    unfold handle
    dsimp only
    split
    · exact inbox_send _ _
    · rfl
  | transaction t =>
    unfold handle
    dsimp only
    split <;> rfl
  | vote v =>
    unfold handle
    dsimp only
    split <;> rfl

theorem inbox_continueTask (C : Connection) (request : Option (U64 × U64)) (task : Task) :
    (continueTask E io P C request task).2.inbox = C.inbox := by
  cases task with
  | finalizing S =>
    unfold continueTask
    dsimp only
    split <;> rfl
  | importing blocks votes =>
    cases blocks with
    | nil => exact inbox_send _ _
    | cons b rest =>
      unfold continueTask
      dsimp only
      split <;> rfl

theorem inbox_continueSubmitting (C : Connection) (ts : List Transaction) :
    (continueSubmitting E P C ts).2.inbox = C.inbox := by
  cases ts with
  | nil => rfl
  | cons t rest =>
    unfold continueSubmitting
    dsimp only
    split <;> rfl

/-! ## 3. What is read -/

/-- The message the connection's next turn reads. -/
def readsNext (C : Connection) : Option NetworkMessage :=
  match C.stage with
  | .greeting | .serving =>
    match readMessage C.inbox with
    | .ok (m, _) => some m
    | .error _ => none
  | _ => none

/-- The message the event reads on the `i`-th connection. -/
def reads (i : Nat) (H : Hub) : Event → Option NetworkMessage
  | .go _ j => if j = i then H.connections[i]?.bind readsNext else none
  | _ => none

/-- Messages as they are written, one after the other. -/
def frames : List NetworkMessage → Outcome NetworkError (List UInt8)
  | [] => .ok []
  | m :: ms => do
    let frame ← writeMessage m
    let rest ← frames ms
    .ok (frame ++ rest)

/-- **The first frame is the first message.** -/
theorem frames_read {ms : List NetworkMessage} {inbox tail rest : List UInt8}
    {message : NetworkMessage} (h : frames ms = .ok (inbox ++ tail))
    (hread : readMessage inbox = .ok (message, rest)) :
    ∃ ms', ms = message :: ms' ∧ frames ms' = .ok (rest ++ tail) := by
  have hall := readMessage_append hread tail
  cases ms with
  | nil =>
    have hnil : [] = inbox ++ tail := Except.ok.inj h
    rw [← hnil] at hall
    cases hall
  | cons m ms =>
    obtain ⟨frame, hframe, h⟩ := Outcome.bind_eq_ok.mp h
    obtain ⟨more, hmore, h⟩ := Outcome.bind_eq_ok.mp h
    have hbytes : frame ++ more = inbox ++ tail := Except.ok.inj h
    rw [← hbytes, readMessage_writeMessage hframe] at hall
    cases hall
    exact ⟨ms, rfl, hmore⟩

/-- The frames of `ms` are what is in the inbox and what comes behind it, while the connection is
    there. -/
def Pending (ms : List NetworkMessage) (tail : List UInt8) (C : Connection) : Prop :=
  C.stage ≠ .closed → frames ms = .ok (C.inbox ++ tail)

/-- A connection that reads takes the next frame, when the whole of it is there. -/
theorem pending_read {ms : List NetworkMessage} {tail : List UInt8}
    (serve : Connection → NetworkMessage → Peer × Connection)
    (hserve : ∀ C m, (serve C m).2.inbox = C.inbox) (hopen : C.stage ≠ .closed)
    (h : Pending ms tail C)
    (hnext : readsNext C =
      (match readMessage C.inbox with | .ok (m, _) => some m | .error _ => none)) :
    ∃ ms', ms = (readsNext C).toList ++ ms' ∧ Pending ms' tail (read P C serve).2 := by
  unfold read
  rw [hnext]
  cases hr : readMessage C.inbox with
  | ok r =>
    have hfirst : readMessage C.inbox = .ok (r.1, r.2) := hr
    obtain ⟨ms', hms, hrest⟩ := frames_read (h hopen) hfirst
    refine ⟨ms', hms, fun _ => ?_⟩
    show frames ms' = .ok ((serve { C with inbox := r.2 } r.1).2.inbox ++ tail)
    rw [hserve]
    exact hrest
  | error e =>
    refine ⟨ms, rfl, ?_⟩
    split
    · rename_i heq
      cases heq
    · exact h
    · exact fun hclosed => absurd rfl hclosed

/-- **A turn reads the next message, or none.** -/
theorem pending_turn {ms : List NetworkMessage} {tail : List UInt8} (h : Pending ms tail C) :
    ∃ ms', ms = (readsNext C).toList ++ ms' ∧ Pending ms' tail (turn E io P C).2 := by
  have hsame : ∀ C', C'.inbox = C.inbox → C.stage ≠ .closed → readsNext C = none →
      ∃ ms', ms = (readsNext C).toList ++ ms' ∧ Pending ms' tail C' :=
    fun C' hinbox hopen hnone => by
      rw [hnone]
      refine ⟨ms, rfl, fun _ => ?_⟩
      rw [hinbox]
      exact h hopen
  obtain ⟨initiator, hello, inbox, written, stage⟩ := C
  cases stage with
  | greeting =>
    exact pending_read (fun C m => (P, C.greet m)) inbox_greet (fun hs => by cases hs) h rfl
  | serving =>
    exact pending_read (handle E P) inbox_handle (fun hs => by cases hs) h rfl
  | working task request =>
    exact hsame _ (inbox_continueTask _ request task) (fun hs => by cases hs) rfl
  | submitting ts =>
    exact hsame _ (inbox_continueSubmitting _ ts) (fun hs => by cases hs) rfl
  | closed => exact ⟨ms, rfl, fun hclosed => absurd rfl hclosed⟩

/-- **One event.** -/
theorem pending_step {ms : List NetworkMessage} {tail : List UInt8} (e : Event)
    (hi : H.connections[i]? = some C) (h : Pending ms (brings i e ++ tail) C) :
    ∃ ms' C', ms = (reads i H e).toList ++ ms' ∧ (H.next E e).connections[i]? = some C' ∧
      Pending ms' tail C' := by
  have hlt : i < H.connections.length := (List.getElem?_eq_some_iff.mp hi).1
  cases he : concerns i e with
  | false =>
    have hnone : reads i H e = none := by
      cases e with
      | go io j => exact if_neg (by simpa [concerns] using he)
      | _ => rfl
    have hempty : brings i e = [] := by
      cases e with
      | arrive j bytes => exact if_neg (by simpa [concerns] using he)
      | _ => rfl
    rw [hempty] at h
    rw [hnone]
    exact ⟨ms, C, rfl, (getElem?_next hlt he).trans hi, h⟩
  | true =>
    cases e with
    | connect initiator => cases he
    | call c => cases he
    | arrive j bytes =>
      have hj : j = i := by simpa [concerns] using he
      subst hj
      refine ⟨ms, { C with inbox := C.inbox ++ bytes }, rfl, ?_, fun hopen => ?_⟩
      · rw [next_arrive hi]
        exact List.getElem?_set_self hlt
      · have hframes := h hopen
        rw [brings, if_pos rfl, ← List.append_assoc] at hframes
        exact hframes
    | fail j =>
      have hj : j = i := by simpa [concerns] using he
      subst hj
      have hnext : (H.next E (.fail j)).connections[j]? =
          some (if waits C then C.close else C) := by
        rw [next_fail hi]
        split
        · exact List.getElem?_set_self hlt
        · exact hi
      refine ⟨ms, _, rfl, hnext, ?_⟩
      split
      · exact fun hclosed => absurd rfl hclosed
      · exact h
    | go io j =>
      have hj : j = i := by simpa [concerns] using he
      subst hj
      have hturn : ∃ ms', ms = (readsNext C).toList ++ ms' ∧
          Pending ms' tail (turn E io H.peer C).2 := pending_turn h
      obtain ⟨ms', hms, hpending⟩ := hturn
      refine ⟨ms', (turn E io H.peer C).2, ?_, ?_, hpending⟩
      · rw [reads, if_pos rfl, hi]
        exact hms
      · rw [next_go hi]
        exact List.getElem?_set_self hlt

/-- **What is read was written.** The other side has written `ms` on a connection, and a part of
    these bytes arrives, in whatever pieces and among whatever else happens to the hub. Then what
    is read on the connection is a beginning of `ms`, each message once and in this order; and
    unless the connection has ended, the frames of all the others are the bytes that wait in its
    inbox and those that are still on their way. -/
theorem reads_written (hi : H.connections[i]? = some C) (hinbox : C.inbox = [])
    {ms : List NetworkMessage} {left : List UInt8}
    (hwritten : frames ms = .ok (arrivals i events ++ left)) :
    ∃ ms' C', ms = emitted (next E) (reads i) H events ++ ms' ∧
      (runs (next E) H events).connections[i]? = some C' ∧
      (C'.stage ≠ .closed → frames ms' = .ok (C'.inbox ++ left)) := by
  have hpending : Pending ms (arrivals i events ++ left) C := fun _ => by
    rw [hinbox]
    exact hwritten
  clear hinbox hwritten
  induction events generalizing H C ms with
  | nil => exact ⟨ms, C, rfl, hi, hpending⟩
  | cons e events ih =>
    have hfirst : Pending ms (brings i e ++ (arrivals i events ++ left)) C := by
      rw [← List.append_assoc]
      exact hpending
    obtain ⟨ms₁, C₁, hms, hC₁, h₁⟩ := pending_step (E := E) e hi hfirst
    obtain ⟨ms', C', hms', hC', h'⟩ := ih hC₁ h₁
    refine ⟨ms', C', ?_, hC', h'⟩
    rw [hms, hms', ← List.append_assoc]
    rfl

end Hub

namespace Sample

/-- A connection that has just been taken up, and the hub with it. -/
def greetingConnection : Connection :=
  ⟨false, ⟨chainId, .zero, 0, "node"⟩, [], [], .greeting⟩

def greetingHub : Hub :=
  { Hub.started freshNode none chainId "node" with connections := [greetingConnection] }

/-- The other side greets and asks for the mempool. -/
def greetedMessages : List NetworkMessage := [.hello chainId .zero 4 "peer", .getMempool]

def greetedBytes : List UInt8 := Hub.frames greetedMessages |>.toOption.getD []

/-- The bytes arrive in two pieces, of which the first ends inside the first frame. -/
def greetedEvents : List Hub.Event :=
  [.arrive 0 (greetedBytes.take 10), .go ⟨0, none⟩ 0, .arrive 0 (greetedBytes.drop 10),
    .go ⟨0, none⟩ 0, .go ⟨0, none⟩ 0]

theorem frames_greetedMessages :
    Hub.frames greetedMessages = .ok (Hub.arrivals 0 greetedEvents ++ []) := by
  decide +kernel

end Sample

namespace Hub

/-- A greeting and a request in two pieces. -/
theorem reads_written_greeted :
    ∃ ms' C', Sample.greetedMessages =
        emitted (next .standIn) (reads 0) Sample.greetingHub Sample.greetedEvents ++ ms' ∧
      (runs (next .standIn) Sample.greetingHub Sample.greetedEvents).connections[0]? = some C' ∧
      (C'.stage ≠ .closed → frames ms' = .ok (C'.inbox ++ [])) :=
  reads_written (C := Sample.greetingConnection) rfl rfl Sample.frames_greetedMessages

/-! ## 4. Strangers -/

/-- The two hubs differ in the `i`-th connection at most. -/
structure Alike (i : Nat) (H H' : Hub) : Prop where
  peer : H'.peer = H.peer
  chainId : H'.chainId = H.chainId
  nodeId : H'.nodeId = H.nodeId
  length : H'.connections.length = H.connections.length
  others : ∀ j, j ≠ i → H'.connections[j]? = H.connections[j]?

theorem Alike.refl (i : Nat) (H : Hub) : Alike i H H := ⟨rfl, rfl, rfl, rfl, fun _ _ => rfl⟩

theorem Alike.trans {H'' : Hub} (h : Alike i H H') (h' : Alike i H' H'') : Alike i H H'' where
  peer := h'.peer.trans h.peer
  chainId := h'.chainId.trans h.chainId
  nodeId := h'.nodeId.trans h.nodeId
  length := h'.length.trans h.length
  others j hj := (h'.others j hj).trans (h.others j hj)

theorem Alike.symm (h : Alike i H H') : Alike i H' H where
  peer := h.peer.symm
  chainId := h.chainId.symm
  nodeId := h.nodeId.symm
  length := h.length.symm
  others j hj := (h.others j hj).symm

/-- The `i`-th entry is written. -/
theorem alike_put (H : Hub) (i : Nat) (C : Connection) : Alike i H (H.put i C) where
  peer := rfl
  chainId := rfl
  nodeId := rfl
  length := List.length_set
  others _ hj := List.getElem?_set_ne (Ne.symm hj)

/-- The same entry is written in both, and the peers stay the same. -/
theorem Alike.set (h : Alike i H H') (P' : Peer) (j : Nat) (C : Connection) :
    Alike i { H with peer := P', connections := H.connections.set j C }
      { H' with peer := P', connections := H'.connections.set j C } where
  peer := rfl
  chainId := h.chainId
  nodeId := h.nodeId
  length := by
    show (H'.connections.set j C).length = (H.connections.set j C).length
    rw [List.length_set, List.length_set, h.length]
  others k hk := by
    show (H'.connections.set j C)[k]? = (H.connections.set j C)[k]?
    rw [List.getElem?_set, List.getElem?_set, h.length, h.others k hk]

theorem Alike.localHello (h : Alike i H H') : H'.localHello = H.localHello := by
  unfold Hub.localHello
  rw [h.peer, h.chainId, h.nodeId]

/-- **What does not concern the connection** does the same to both. -/
theorem Alike.next (h : Alike i H H') {e : Event} (he : concerns i e = false) :
    Alike i (H.next E e) (H'.next E e) := by
  cases e with
  | connect initiator =>
    show Alike i (H.connect initiator) (H'.connect initiator)
    unfold connect
    rw [h.localHello]
    cases H.localHello with
    | error e => exact h
    | ok hello =>
      refine ⟨h.peer, h.chainId, h.nodeId, ?_, fun j hj => ?_⟩
      · show (H'.connections ++ [_]).length = (H.connections ++ [_]).length
        rw [List.length_append, List.length_append, h.length]
      · show (H'.connections ++ [_])[j]? = (H.connections ++ [_])[j]?
        rw [List.getElem?_append, List.getElem?_append, h.length, h.others j hj]
  | call c => exact ⟨congrArg (Peer.next E · (.call c)) h.peer, h.chainId, h.nodeId, h.length,
      h.others⟩
  | arrive j bytes =>
    have hj : j ≠ i := by simpa [concerns] using he
    cases hC : H.connections[j]? with
    | none =>
      rw [(next_absent hC).1 bytes, (next_absent ((h.others j hj).trans hC)).1 bytes]
      exact h
    | some C =>
      rw [next_arrive hC, next_arrive ((h.others j hj).trans hC)]
      have hset := h.set H.peer j { C with inbox := C.inbox ++ bytes }
      exact ⟨h.peer, hset.chainId, hset.nodeId, hset.length, hset.others⟩
  | fail j =>
    have hj : j ≠ i := by simpa [concerns] using he
    cases hC : H.connections[j]? with
    | none =>
      rw [(next_absent hC).2.2, (next_absent ((h.others j hj).trans hC)).2.2]
      exact h
    | some C =>
      rw [next_fail hC, next_fail ((h.others j hj).trans hC)]
      split
      · have hset := h.set H.peer j C.close
        exact ⟨h.peer, hset.chainId, hset.nodeId, hset.length, hset.others⟩
      · exact h
  | go io j =>
    have hj : j ≠ i := by simpa [concerns] using he
    cases hC : H.connections[j]? with
    | none =>
      rw [(next_absent hC).2.1 io, (next_absent ((h.others j hj).trans hC)).2.1 io]
      exact h
    | some C =>
      rw [next_go hC, next_go ((h.others j hj).trans hC), h.peer]
      exact h.set _ j _

/-- A connection that has ended, or waits for the greeting and does not get the right one from the
    bytes it has, those that come next and those behind them. -/
def Stranger (tail : List UInt8) (C : Connection) : Prop :=
  C.stage = .closed ∨ C.stage = .greeting ∧ ∀ m rest,
    readMessage (C.inbox ++ tail) = .ok (m, rest) → validateHello m C.hello ≠ .ok ()

/-- **A stranger's turn** moves the peer nowhere. -/
theorem stranger_turn {tail : List UInt8} (h : Stranger tail C) :
    (turn E io P C).1 = P ∧ Stranger tail (turn E io P C).2 := by
  obtain ⟨initiator, hello, inbox, written, stage⟩ := C
  rcases h with hclosed | ⟨hgreeting, hno⟩
  · cases hclosed
    exact ⟨rfl, Or.inl rfl⟩
  · cases hgreeting
    show (read P _ _).1 = P ∧ Stranger tail (read P _ _).2
    unfold read
    cases hr : readMessage inbox with
    | ok r =>
      have hrefused := hno r.1 (r.2 ++ tail) (readMessage_append hr tail)
      refine ⟨rfl, Or.inl ?_⟩
      show (Connection.greet _ r.1).stage = .closed
      unfold Connection.greet
      split
      · rename_i hok
        exact absurd hok hrefused
      · rfl
    | error e =>
      split
      · rename_i heq
        cases heq
      · exact ⟨rfl, Or.inr ⟨rfl, hno⟩⟩
      · exact ⟨rfl, Or.inl rfl⟩

/-- **A stranger's event** moves nothing but its own connection. -/
theorem stranger_step {tail : List UInt8} (e : Event) (hi : H.connections[i]? = some C)
    (h : Stranger (brings i e ++ tail) C) :
    (concerns i e = true → Alike i H (H.next E e)) ∧
      ∃ C', (H.next E e).connections[i]? = some C' ∧ Stranger tail C' := by
  have hlt : i < H.connections.length := (List.getElem?_eq_some_iff.mp hi).1
  cases he : concerns i e with
  | false =>
    have hempty : brings i e = [] := by
      cases e with
      | arrive j bytes => exact if_neg (by simpa [concerns] using he)
      | _ => rfl
    rw [hempty] at h
    exact ⟨Bool.noConfusion, C, (getElem?_next hlt he).trans hi, h⟩
  | true =>
    have hself : ∀ C' : Connection, (H.put i C').connections[i]? = some C' :=
      fun C' => List.getElem?_set_self hlt
    cases e with
    | connect initiator => cases he
    | call c => cases he
    | arrive j bytes =>
      have hj : j = i := by simpa [concerns] using he
      subst hj
      rw [next_arrive hi]
      refine ⟨fun _ => alike_put H j _, _, hself _, ?_⟩
      rcases h with hclosed | ⟨hgreeting, hno⟩
      · exact Or.inl hclosed
      · rw [brings, if_pos rfl, ← List.append_assoc] at hno
        exact Or.inr ⟨hgreeting, hno⟩
    | fail j =>
      have hj : j = i := by simpa [concerns] using he
      subst hj
      rw [next_fail hi]
      split
      · exact ⟨fun _ => alike_put H j _, _, hself _, Or.inl rfl⟩
      · exact ⟨fun _ => .refl j H, C, hi, h⟩
    | go io j =>
      have hj : j = i := by simpa [concerns] using he
      subst hj
      have hturn : (turn E io H.peer C).1 = H.peer ∧ Stranger tail (turn E io H.peer C).2 :=
        stranger_turn h
      obtain ⟨hpeer, hstays⟩ := hturn
      have hnext : H.next E (.go io j) = H.put j (turn E io H.peer C).2 := by
        rw [next_go hi, hpeer]
        rfl
      rw [hnext]
      exact ⟨fun _ => alike_put H j _, _, hself _, hstays⟩

theorem stranger_runs (h : Alike i H H') (hi : H.connections[i]? = some C)
    (hC : Stranger (arrivals i events) C) :
    Alike i (runs (next E) H events)
      (runs (next E) H' (events.filter fun e => !concerns i e)) := by
  induction events generalizing H H' C with
  | nil => exact h
  | cons e events ih =>
    obtain ⟨halike, C', hC', hstranger⟩ := stranger_step (E := E) e hi hC
    cases he : concerns i e with
    | true =>
      rw [List.filter_cons_of_neg (by simp [he])]
      exact ih ((halike he).symm.trans h) hC' hstranger
    | false =>
      rw [List.filter_cons_of_pos (by simp [he])]
      exact ih (h.next he) hC' hstranger

/-- **A stranger moves nothing.** If what arrives on a connection does not begin with a `Hello` of
    the node's chain and genesis, then, whatever else happens to the hub and in whatever order, the
    peer and all other connections are in the end as if nothing had arrived on it and it had
    never had a turn. -/
theorem stranger_invisible (hi : H.connections[i]? = some C) (hgreeting : C.stage = .greeting)
    (hno : ∀ m rest, readMessage (C.inbox ++ arrivals i events) = .ok (m, rest) →
      validateHello m C.hello ≠ .ok ()) :
    Alike i (runs (next E) H events)
      (runs (next E) H (events.filter fun e => !concerns i e)) :=
  stranger_runs (.refl i H) hi (Or.inr ⟨hgreeting, hno⟩)

end Hub

namespace Sample

/-- A connection on which a request arrives before any greeting, and a block from elsewhere. -/
def strangerEvents : List Hub.Event :=
  [.arrive 0 [0, 0, 0, 1, 3], .go ⟨0, none⟩ 0, .call (.produceBlock ⟨2, none⟩ none)]

theorem readMessage_stranger :
    readMessage (greetingConnection.inbox ++ Hub.arrivals 0 strangerEvents) =
      .ok (.getMempool, []) := by
  decide +kernel

end Sample

namespace Hub

/-- The request is refused, and the block is made all the same. -/
theorem stranger_invisible_request :
    Alike 0 (runs (next .standIn) Sample.greetingHub Sample.strangerEvents)
      (runs (next .standIn) Sample.greetingHub [.call (.produceBlock ⟨2, none⟩ none)]) := by
  show Alike 0 _ (runs (next .standIn) Sample.greetingHub
    (Sample.strangerEvents.filter fun e => !concerns 0 e))
  refine stranger_invisible (C := Sample.greetingConnection) rfl rfl fun m rest h => ?_
  rw [Sample.readMessage_stranger] at h
  cases h
  exact fun hok => by cases hok

end Hub

end WorldstreetChain
