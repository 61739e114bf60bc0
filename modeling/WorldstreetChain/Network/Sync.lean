import WorldstreetChain.Network.Frame
import WorldstreetChain.Node.Execution
import WorldstreetChain.Node.Served

/-!
# Block synchronization (`GetBlocks`, `Blocks`)

A peer asks for the blocks above its own, in pieces of 129, and goes on from the last block of every
full answer. Pieces are counted in blocks, frames are limited in bytes, and nothing limits a block:
an answer that fits no frame is not sent, and ends the connection.

* `Node.collectBlocks`, `Node.exchange` -- an answer, and the exchange of requests and answers.
* `Node.collectBlocks_requestFrom` -- **what a request is answered with**: the next 129 blocks, or
  those up to the tip.
* `Node.synchronizes_iff` -- **when a peer gets the blocks above its own**, each once and in order:
  every piece fits a frame, and the last one is not full at the greatest height.
-/

namespace WorldstreetChain

open Std Postcard

/-! ## 1. Requests and answers -/

/-- `first..=last`. -/
def heightsFromTo (first last : U64) : List U64 :=
  (List.range' first.toNat (last.toNat + 1 - first.toNat)).map (BitVec.ofNat 64)

/-- `GetBlocks` after the handshake, of a peer at this height. -/
def firstRequest (height : U64) : U64 × U64 :=
  (Unsigned.saturatingAdd height 1, Unsigned.saturatingAdd height 129)

def requestFrom (first : U64) : U64 × U64 := (first, Unsigned.saturatingAdd first 128)

/-- `GetBlocks` after an answer, if it is full. -/
def continueFrom (blocks : List Block) : Option (U64 × U64) :=
  if blocks.length = 129 then
    blocks.getLast?.map fun b => requestFrom (Unsigned.saturatingAdd b.header.height 1)
  else none

namespace Node

section Calls

variable (n : Node)

def collectBlocks (first last : U64) : Outcome NetworkError (List Block) := do
  rejectIf (last < first ∨ 128 < Unsigned.saturatingSub last first)
    (.handshake "block range must be ordered and at most 128 blocks")
  let latest := n.latestBlock.header.height
  let stop := if last ≤ latest then last else latest
  if stop < first then .ok []
  else .ok ((heightsFromTo first stop).filterMap fun height =>
    (n.store.getBlockByHeight height).toOption)

/-- `Blocks`, as it goes over the connection. -/
def serveGetBlocks (first last : U64) : Outcome NetworkError (List UInt8) := do
  let blocks ← n.collectBlocks first last
  writeMessage (.blocks blocks)

/-- A request and what arrives for it. -/
def answer (request : U64 × U64) : Outcome NetworkError (List Block) := do
  let frame ← n.serveGetBlocks request.1 request.2
  let (message, _) ← readMessage frame
  match message with
  | .blocks blocks => .ok blocks
  | _ => .error (.err .encoding)

/-- At most `fuel` requests: the answers, and the request that is still open. -/
def exchange : Nat → U64 × U64 → Outcome NetworkError (List (List Block) × Option (U64 × U64))
  | 0, request => .ok ([], some request)
  | fuel + 1, request => do
    let blocks ← n.answer request
    match continueFrom blocks with
    | none => .ok ([blocks], none)
    | some request => do
      let (answers, left) ← exchange fuel request
      .ok (blocks :: answers, left)

/-- The exchange comes to its end with these answers. -/
def Delivers (request : U64 × U64) (answers : List (List Block)) : Prop :=
  ∃ fuel, n.exchange fuel request = .ok (answers, none)

/-- **A peer at this height synchronizes**: the answers fit their frames, and are the stored blocks
    of all heights above its own up to the tip's, one after the other. -/
def Synchronizes (height : U64) : Prop :=
  ∃ answers, n.Delivers (firstRequest height) answers ∧
    (∀ blocks ∈ answers,
      (canonicalEncode (NetworkMessage.blocks blocks)).length ≤ maxFrameBytes) ∧
    answers.flatten.map (fun b => b.header.height) =
      heightsFromTo (height + 1) n.latestBlock.header.height ∧
    ∀ b ∈ answers.flatten, n.store.getBlockByHeight b.header.height = .ok b

/-- The blocks of `count` heights. -/
def blocksAt (first count : Nat) : List Block :=
  (List.range' first count).filterMap fun height =>
    (n.store.getBlockByHeight (BitVec.ofNat 64 height)).toOption

end Calls

/-- The bytes of an answer: the variant, the number of the blocks and the blocks. -/
def answerBytes (blocks : List Block) : Nat :=
  1 + (encodeLength blocks.length).length +
    (blocks.map fun b => (canonicalEncode b).length).sum

/-! ## 2. One answer -/

variable {E : Env} {H : List BlockHeader} {genesis : GenesisConfig} {n : Node}

theorem length_canonicalEncode_blocks (blocks : List Block) :
    (canonicalEncode (NetworkMessage.blocks blocks)).length = answerBytes blocks := by
  have hitems : (encodeItems blocks).length =
      (blocks.map fun b => (canonicalEncode b).length).sum := by
    unfold encodeItems
    rw [List.length_flatMap]
    rfl
  show (encodeVariant 2 ++ (encodeLength blocks.length ++ encodeItems blocks)).length = _
  rw [List.length_append, List.length_append, hitems, answerBytes, Nat.add_assoc]
  rfl

/-- **What arrives** is what is collected, if it fits a frame. -/
theorem answer_eq_ok {request : U64 × U64} {blocks : List Block} :
    n.answer request = .ok blocks ↔
      n.collectBlocks request.1 request.2 = .ok blocks ∧ answerBytes blocks ≤ maxFrameBytes := by
  have hread : ∀ collected frame, writeMessage (.blocks collected) = .ok frame →
      readMessage frame = .ok (.blocks collected, []) := fun collected frame h => by
    have hall := readMessage_writeMessage h []
    rw [List.append_nil] at hall
    exact hall
  unfold answer serveGetBlocks
  constructor
  · intro h
    obtain ⟨frame, hserve, h⟩ := Outcome.bind_eq_ok.mp h
    obtain ⟨collected, hcollect, hwrite⟩ := Outcome.bind_eq_ok.mp hserve
    rw [hread collected frame hwrite] at h
    cases h
    rw [← length_canonicalEncode_blocks]
    exact ⟨hcollect, (writeMessage_eq_ok.mp hwrite).1⟩
  · intro ⟨hcollect, hle⟩
    rw [← length_canonicalEncode_blocks] at hle
    have hwrite := writeMessage_eq_ok.mpr ⟨hle, rfl⟩
    refine Outcome.bind_eq_ok.mpr ⟨_, Outcome.bind_eq_ok.mpr ⟨blocks, hcollect, hwrite⟩, ?_⟩
    rw [hread blocks _ hwrite]
    rfl

theorem Served.getBlockByHeight (h : Served E H n) {height : U64}
    (hle : height ≤ n.latestBlock.header.height) :
    ∃ b, n.store.getBlockByHeight height = .ok b ∧ b.header.height = height := by
  obtain ⟨b, -, hheight, hindex, hstored⟩ := h.serves height hle
  exact ⟨b, (Store.getBlockByHeight_of_get hindex).trans hstored, hheight⟩

theorem toNat_ofNat_of_le {k : Nat} (h : k ≤ n.latestBlock.header.height.toNat) :
    (BitVec.ofNat 64 k).toNat = k := by
  have hlt := n.latestBlock.header.height.isLt
  rw [BitVec.toNat_ofNat]
  exact Nat.mod_eq_of_lt (by omega)

/-- **There is a block at every height up to the tip's.** -/
theorem Served.map_height_blocksAt (h : Served E H n) {first count : Nat}
    (hle : first + count ≤ n.latestBlock.header.height.toNat + 1) :
    (n.blocksAt first count).map (fun b => b.header.height) =
      (List.range' first count).map (BitVec.ofNat 64) := by
  induction count generalizing first with
  | zero => rfl
  | succ count ih =>
    have hfirst : BitVec.ofNat 64 first ≤ n.latestBlock.header.height := by
      rw [BitVec.le_def, toNat_ofNat_of_le (n := n) (by omega)]
      omega
    obtain ⟨b, hb, hheight⟩ := h.getBlockByHeight hfirst
    have hcons : n.blocksAt first (count + 1) = b :: n.blocksAt (first + 1) count := by
      unfold blocksAt
      rw [List.range'_succ, List.filterMap_cons, hb]
      rfl
    rw [hcons, List.map_cons, hheight, ih (by omega), List.range'_succ, List.map_cons]

theorem Served.length_blocksAt (h : Served E H n) {first count : Nat}
    (hle : first + count ≤ n.latestBlock.header.height.toNat + 1) :
    (n.blocksAt first count).length = count := by
  have hlength := congrArg List.length (h.map_height_blocksAt hle)
  rw [List.length_map, List.length_map, List.length_range'] at hlength
  exact hlength

theorem blocksAt_add (n : Node) (first count more : Nat) :
    n.blocksAt first (count + more) =
      n.blocksAt first count ++ n.blocksAt (first + count) more := by
  unfold blocksAt
  rw [← List.filterMap_append, List.range'_append_1]

/-- **What a request is answered with**: the next 129 blocks, or those up to the tip. -/
theorem collectBlocks_requestFrom (n : Node) (first : U64) :
    n.collectBlocks (requestFrom first).1 (requestFrom first).2 =
      .ok (n.blocksAt first.toNat
        (min 129 (n.latestBlock.header.height.toNat + 1 - first.toNat))) := by
  have hlast := Unsigned.toNat_saturatingAdd first (128 : U64)
  have hone : (128 : U64).toNat = 128 := rfl
  have hlt := first.isLt
  have htip := n.latestBlock.header.height.isLt
  rw [hone] at hlast
  show n.collectBlocks first (Unsigned.saturatingAdd first 128) = _
  generalize Unsigned.saturatingAdd first 128 = last at hlast
  generalize htipdef : n.latestBlock.header.height = tip at htip
  unfold collectBlocks
  have hrange : ¬ (last < first ∨ 128 < Unsigned.saturatingSub last first) := by
    rw [BitVec.lt_def, BitVec.lt_def, Unsigned.toNat_saturatingSub, hone]
    omega
  rw [rejectIf_neg hrange]
  show (if (if last ≤ n.latestBlock.header.height then last else n.latestBlock.header.height) <
    first then _ else _) = _
  rw [htipdef]
  generalize hstop : (if last ≤ tip then last else tip) = stop
  have hmin : stop.toNat = min last.toNat tip.toNat := by
    rw [← hstop]
    split
    · rename_i hle
      rw [BitVec.le_def] at hle
      omega
    · rename_i hle
      rw [BitVec.le_def] at hle
      omega
  by_cases hbelow : stop < first
  · rw [if_pos hbelow]
    rw [BitVec.lt_def] at hbelow
    have hnone : min 129 (tip.toNat + 1 - first.toNat) = 0 := by omega
    rw [hnone]
    rfl
  · rw [if_neg hbelow]
    rw [BitVec.lt_def] at hbelow
    have hcount : min 129 (tip.toNat + 1 - first.toNat) = stop.toNat + 1 - first.toNat := by omega
    rw [hcount, heightsFromTo, List.filterMap_map]
    rfl

/-! ## 3. The exchange -/

/-- **One round** of an exchange that comes to its end. -/
theorem delivers_iff {request : U64 × U64} {answers : List (List Block)} :
    n.Delivers request answers ↔ ∃ blocks, n.answer request = .ok blocks ∧
      ((continueFrom blocks = none ∧ answers = [blocks]) ∨
        ∃ next rest, continueFrom blocks = some next ∧ n.Delivers next rest ∧
          answers = blocks :: rest) := by
  constructor
  · intro ⟨fuel, h⟩
    cases fuel with
    | zero => cases h
    | succ fuel =>
      obtain ⟨blocks, hblocks, h⟩ := Outcome.bind_eq_ok.mp h
      refine ⟨blocks, hblocks, ?_⟩
      cases hnext : continueFrom blocks with
      | none =>
        simp only [hnext] at h
        cases h
        exact Or.inl ⟨rfl, rfl⟩
      | some next =>
        simp only [hnext] at h
        obtain ⟨⟨rest, left⟩, hrest, h⟩ := Outcome.bind_eq_ok.mp h
        cases h
        exact Or.inr ⟨next, rest, rfl, ⟨fuel, hrest⟩, rfl⟩
  · intro ⟨blocks, hblocks, hcase⟩
    rcases hcase with ⟨hnext, rfl⟩ | ⟨next, rest, hnext, ⟨fuel, hrest⟩, rfl⟩
    · refine ⟨1, Outcome.bind_eq_ok.mpr ⟨blocks, hblocks, ?_⟩⟩
      simp only [hnext]
    · refine ⟨fuel + 1, Outcome.bind_eq_ok.mpr ⟨blocks, hblocks, ?_⟩⟩
      simp only [hnext]
      exact Outcome.bind_eq_ok.mpr ⟨(rest, none), hrest, rfl⟩

/-- Every answer that arrives fits its frame. -/
theorem Delivers.fits {request : U64 × U64} {answers : List (List Block)}
    (h : n.Delivers request answers) :
    ∀ blocks ∈ answers, answerBytes blocks ≤ maxFrameBytes := by
  obtain ⟨fuel, h⟩ := h
  induction fuel generalizing request answers with
  | zero => cases h
  | succ fuel ih =>
    obtain ⟨blocks, hblocks, h⟩ := Outcome.bind_eq_ok.mp h
    have hfits := (answer_eq_ok.mp hblocks).2
    cases hnext : continueFrom blocks with
    | none =>
      simp only [hnext] at h
      cases h
      intro b hb
      rw [List.mem_singleton.mp hb]
      exact hfits
    | some next =>
      simp only [hnext] at h
      obtain ⟨⟨rest, left⟩, hrest, h⟩ := Outcome.bind_eq_ok.mp h
      cases h
      intro b hb
      rcases List.mem_cons.mp hb with rfl | hb
      · exact hfits
      · exact ih hrest b hb

/-- The pieces of `count` blocks fit their frames. -/
def PiecesFit (n : Node) (first count : Nat) : Prop :=
  ∀ i, 129 * i < count →
    answerBytes (n.blocksAt (first + 129 * i) (min 129 (count - 129 * i))) ≤ maxFrameBytes

/-- The last piece is full, at the greatest height. -/
def EndsFull (n : Node) (count : Nat) : Prop :=
  n.latestBlock.header.height.toNat = 2 ^ 64 - 1 ∧ 0 < count ∧ 129 ∣ count

theorem piecesFit_iff_of_le {first count : Nat} (h : 129 ≤ count) :
    n.PiecesFit first count ↔ answerBytes (n.blocksAt first 129) ≤ maxFrameBytes ∧
      n.PiecesFit (first + 129) (count - 129) := by
  constructor
  · intro hfit
    constructor
    · have hzero := hfit 0 (by omega)
      rw [Nat.mul_zero, Nat.add_zero, Nat.sub_zero, Nat.min_eq_left h] at hzero
      exact hzero
    · intro i hi
      have hsucc := hfit (i + 1) (by omega)
      rw [show first + 129 * (i + 1) = first + 129 + 129 * i by omega,
        show count - 129 * (i + 1) = count - 129 - 129 * i by omega] at hsucc
      exact hsucc
  · intro ⟨hfirst, hrest⟩ i hi
    cases i with
    | zero =>
      rw [Nat.mul_zero, Nat.add_zero, Nat.sub_zero, Nat.min_eq_left h]
      exact hfirst
    | succ i =>
      have hsucc := hrest i (by omega)
      rw [show first + 129 * (i + 1) = first + 129 + 129 * i by omega,
        show count - 129 * (i + 1) = count - 129 - 129 * i by omega]
      exact hsucc

theorem piecesFit_iff_of_lt {first count : Nat} (h : count < 129) :
    n.PiecesFit first count ↔ answerBytes (n.blocksAt first count) ≤ maxFrameBytes := by
  constructor
  · intro hfit
    rcases Nat.eq_zero_or_pos count with rfl | hpos
    · show answerBytes [] ≤ maxFrameBytes
      decide
    · have hzero := hfit 0 (by omega)
      rw [Nat.mul_zero, Nat.add_zero, Nat.sub_zero, Nat.min_eq_right (by omega)] at hzero
      exact hzero
  · intro hfit i hi
    obtain rfl : i = 0 := by omega
    rw [Nat.mul_zero, Nat.add_zero, Nat.sub_zero, Nat.min_eq_right (by omega)]
    exact hfit

/-- Where a full answer goes on: behind its last block. -/
theorem Served.continueFrom_full (h : Served E H n) (first : Nat)
    (hle : first + 129 ≤ n.latestBlock.header.height.toNat + 1) :
    continueFrom (n.blocksAt first 129) =
      some (requestFrom (Unsigned.saturatingAdd (BitVec.ofNat 64 (first + 128)) 1)) := by
  have hlength := h.length_blocksAt hle
  have hheights := congrArg List.getLast? (h.map_height_blocksAt hle)
  rw [List.getLast?_map, List.getLast?_map, List.getLast?_range'] at hheights
  unfold continueFrom
  rw [if_pos hlength]
  cases hlast : (n.blocksAt first 129).getLast? with
  | none =>
    rw [List.getLast?_eq_none_iff.mp hlast] at hlength
    cases hlength
  | some b =>
    rw [hlast] at hheights
    have hheight : b.header.height = BitVec.ofNat 64 (first + 128) := by
      simpa using hheights
    rw [Option.map_some, hheight]

/-- **The exchange** from a height on delivers the blocks up to the tip, if their pieces fit and the
    last is not full at the greatest height. The induction is on the blocks that are missing. -/
theorem Served.delivers_iff (h : Served E H n) {count : Nat} {first : U64}
    (hcount : n.latestBlock.header.height.toNat + 1 - first.toNat = count) :
    (∃ answers, n.Delivers (requestFrom first) answers ∧
        answers.flatten = n.blocksAt first.toNat count) ↔
      n.PiecesFit first.toNat count ∧ ¬ n.EndsFull count := by
  induction count using Nat.strong_induction_on generalizing first with
  | _ count ih =>
    have hcollect := collectBlocks_requestFrom n first
    rw [hcount] at hcollect
    by_cases hshort : count < 129
    · rw [Nat.min_eq_right (by omega)] at hcollect
      rw [piecesFit_iff_of_lt hshort]
      have hnext : continueFrom (n.blocksAt first.toNat count) = none := by
        have hlength : (n.blocksAt first.toNat count).length ≤ count := by
          unfold blocksAt
          refine Nat.le_trans (List.length_filterMap_le _ _) ?_
          rw [List.length_range']
        exact if_neg (by omega)
      have hends : ¬ n.EndsFull count := by
        intro ⟨_, hpos, hdvd⟩
        have hle := Nat.le_of_dvd hpos hdvd
        omega
      constructor
      · intro ⟨answers, hdelivers, _⟩
        obtain ⟨blocks, hblocks, -⟩ := Node.delivers_iff.mp hdelivers
        obtain ⟨hcollected, hfits⟩ := answer_eq_ok.mp hblocks
        rw [hcollect] at hcollected
        cases hcollected
        exact ⟨hfits, hends⟩
      · intro ⟨hfits, _⟩
        refine ⟨[n.blocksAt first.toNat count], Node.delivers_iff.mpr ⟨_,
          answer_eq_ok.mpr ⟨hcollect, hfits⟩, Or.inl ⟨hnext, rfl⟩⟩, ?_⟩
        rw [List.flatten_singleton]
    · have hlong : 129 ≤ count := Nat.not_lt.mp hshort
      rw [Nat.min_eq_left hlong] at hcollect
      rw [piecesFit_iff_of_le hlong]
      have hfull := h.continueFrom_full first.toNat (by omega)
      have hlt := n.latestBlock.header.height.isLt
      have hblocks : n.blocksAt first.toNat count = n.blocksAt first.toNat 129 ++
          n.blocksAt (first.toNat + 129) (count - 129) := by
        rw [← blocksAt_add, Nat.add_sub_cancel' hlong]
      have hround : ∀ answers, n.Delivers (requestFrom first) answers ∧
          answers.flatten = n.blocksAt first.toNat count ↔
            answerBytes (n.blocksAt first.toNat 129) ≤ maxFrameBytes ∧
              ∃ rest, n.Delivers (requestFrom (Unsigned.saturatingAdd
                  (BitVec.ofNat 64 (first.toNat + 128)) 1)) rest ∧
                rest.flatten = n.blocksAt (first.toNat + 129) (count - 129) ∧
                answers = n.blocksAt first.toNat 129 :: rest := by
        intro answers
        rw [Node.delivers_iff, hblocks]
        constructor
        · intro ⟨⟨blocks, hanswer, hcase⟩, hflat⟩
          obtain ⟨hcollected, hfits⟩ := answer_eq_ok.mp hanswer
          rw [hcollect] at hcollected
          cases hcollected
          refine ⟨hfits, ?_⟩
          rw [hfull] at hcase
          rcases hcase with ⟨hnone, -⟩ | ⟨next, rest, hnext, hrest, rfl⟩
          · cases hnone
          · cases hnext
            rw [List.flatten_cons] at hflat
            exact ⟨rest, hrest, List.append_cancel_left hflat, rfl⟩
        · intro ⟨hfits, rest, hrest, hflat, hanswers⟩
          subst hanswers
          refine ⟨⟨_, answer_eq_ok.mpr ⟨hcollect, hfits⟩, Or.inr ⟨_, rest, hfull, hrest, rfl⟩⟩, ?_⟩
          rw [List.flatten_cons, hflat]
      have hsat := Unsigned.toNat_saturatingAdd (BitVec.ofNat 64 (first.toNat + 128)) (1 : U64)
      rw [toNat_ofNat_of_le (n := n) (by omega), show (1 : U64).toNat = 1 from rfl] at hsat
      generalize hnext : Unsigned.saturatingAdd (BitVec.ofNat 64 (first.toNat + 128)) 1 = next
        at hsat hround
      by_cases hend : first.toNat + 129 = 2 ^ 64
      · -- the answer ends at the greatest height, and its last block is asked for again
        have hends : n.EndsFull count := ⟨by omega, by omega, 1, by omega⟩
        constructor
        · intro ⟨answers, hdelivers⟩
          obtain ⟨-, rest, hrest, hflat, -⟩ := (hround answers).mp hdelivers
          obtain ⟨blocks, hanswer, hcase⟩ := Node.delivers_iff.mp hrest
          have hagain := (answer_eq_ok.mp hanswer).1
          rw [collectBlocks_requestFrom] at hagain
          have hone : min 129 (n.latestBlock.header.height.toNat + 1 - next.toNat) = 1 := by omega
          rw [hone] at hagain
          have hlength : (n.blocksAt next.toNat 1).length = 1 := h.length_blocksAt (by omega)
          cases hagain
          have hzero : count - 129 = 0 := by omega
          rw [hzero] at hflat
          have hnil : rest.flatten = [] := hflat
          have hmem : n.blocksAt next.toNat 1 ∈ rest := by
            rcases hcase with ⟨-, rfl⟩ | ⟨_, _, -, -, rfl⟩
            · exact List.mem_singleton_self _
            · exact List.mem_cons_self
          rw [List.flatten_eq_nil_iff.mp hnil _ hmem] at hlength
          cases hlength
        · intro ⟨_, hnot⟩
          exact absurd hends hnot
      · have hvalue : next.toNat = first.toNat + 129 := by omega
        have hih := @ih (count - 129) (by omega) next (by omega)
        rw [hvalue] at hih
        have hends : n.EndsFull count ↔ n.EndsFull (count - 129) := by
          unfold EndsFull
          refine and_congr_right fun htip => ?_
          constructor
          · intro ⟨_, hdvd⟩
            exact ⟨by omega, Nat.dvd_sub hdvd (Nat.dvd_refl 129)⟩
          · intro ⟨_, hdvd⟩
            refine ⟨by omega, ?_⟩
            rw [← Nat.sub_add_cancel hlong]
            exact Nat.dvd_add hdvd (Nat.dvd_refl 129)
        rw [hends, and_assoc, ← hih]
        constructor
        · intro ⟨answers, hdelivers⟩
          obtain ⟨hfits, rest, hrest, hflat, -⟩ := (hround answers).mp hdelivers
          exact ⟨hfits, rest, hrest, hflat⟩
        · intro ⟨hfits, rest, hrest, hflat⟩
          exact ⟨_, (hround _).mpr ⟨hfits, rest, hrest, hflat, rfl⟩⟩

/-- Blocks that are stored under their own heights are those of their heights. -/
theorem eq_filterMap_of_stored {blocks : List Block} {heights : List U64}
    (hheights : blocks.map (fun b => b.header.height) = heights)
    (hstored : ∀ b ∈ blocks, n.store.getBlockByHeight b.header.height = .ok b) :
    blocks = heights.filterMap fun height => (n.store.getBlockByHeight height).toOption := by
  subst hheights
  induction blocks with
  | nil => rfl
  | cons b blocks ih =>
    rw [List.map_cons, List.filterMap_cons, hstored b List.mem_cons_self]
    show b :: blocks = b :: _
    rw [← ih fun a ha => hstored a (List.mem_cons_of_mem _ ha)]

/-- **When a peer behind the tip gets the blocks above its own.** -/
theorem Served.synchronizes (h : Served E H n) (height : U64)
    (hbehind : height < n.latestBlock.header.height) :
    n.Synchronizes height ↔
      n.PiecesFit (height.toNat + 1) (n.latestBlock.header.height.toNat - height.toNat) ∧
        ¬ n.EndsFull (n.latestBlock.header.height.toNat - height.toNat) := by
  have hlt := n.latestBlock.header.height.isLt
  rw [BitVec.lt_def] at hbehind
  have hone : (height + 1).toNat = height.toNat + 1 := by
    rw [BitVec.toNat_add]
    exact Nat.mod_eq_of_lt (by show height.toNat + 1 < 2 ^ 64; omega)
  have hrequest : firstRequest height = requestFrom (height + 1) := by
    have hfirst : Unsigned.saturatingAdd height 1 = height + 1 := by
      apply BitVec.eq_of_toNat_eq
      rw [Unsigned.toNat_saturatingAdd, hone]
      show min (height.toNat + 1) _ = _
      omega
    have hlast : Unsigned.saturatingAdd height 129 = Unsigned.saturatingAdd (height + 1) 128 := by
      apply BitVec.eq_of_toNat_eq
      rw [Unsigned.toNat_saturatingAdd, Unsigned.toNat_saturatingAdd, hone]
      show min (height.toNat + 129) _ = min (height.toNat + 1 + 128) _
      omega
    rw [firstRequest, requestFrom, hfirst, hlast]
  have hcount : n.latestBlock.header.height.toNat + 1 - (height + 1).toNat =
      n.latestBlock.header.height.toNat - height.toNat := by omega
  have hheights : heightsFromTo (height + 1) n.latestBlock.header.height =
      (List.range' (height + 1).toNat
        (n.latestBlock.header.height.toNat - height.toNat)).map (BitVec.ofNat 64) := by
    rw [heightsFromTo, hcount]
  have hall : n.blocksAt (height + 1).toNat (n.latestBlock.header.height.toNat - height.toNat) =
      (heightsFromTo (height + 1) n.latestBlock.header.height).filterMap fun height =>
        (n.store.getBlockByHeight height).toOption := by
    rw [hheights, List.filterMap_map]
    rfl
  rw [← hone, ← h.delivers_iff hcount, Synchronizes, hrequest]
  refine exists_congr fun answers => and_congr_right fun hdelivers => ?_
  constructor
  · intro ⟨_, hmap, hstored⟩
    rw [hall]
    exact eq_filterMap_of_stored hmap hstored
  · intro hflat
    refine ⟨fun blocks hblocks => ?_, ?_, fun b hb => ?_⟩
    · rw [length_canonicalEncode_blocks]
      exact hdelivers.fits blocks hblocks
    · rw [hflat, h.map_height_blocksAt (by omega), hheights]
    · rw [hflat, blocksAt, List.mem_filterMap] at hb
      obtain ⟨k, hk, hread⟩ := hb
      rw [List.mem_range'_1] at hk
      have hle : BitVec.ofNat 64 k ≤ n.latestBlock.header.height := by
        rw [BitVec.le_def, toNat_ofNat_of_le (n := n) (by omega)]
        omega
      obtain ⟨a, ha, hheight⟩ := h.getBlockByHeight hle
      rw [ha] at hread
      cases hread
      rw [hheight]
      exact ha

/-- **Synchronization makes progress.** On every node of a directory, whatever has happened to it,
    and for every peer behind its tip: the answers fit their frames and deliver the blocks up to
    the tip exactly if every piece of 129 blocks, and the piece up to the tip, fits a frame, and
    the tip is not the greatest height at the end of a full piece. -/
theorem synchronizes_iff (hreached : Reached E H genesis n) (hsep : E.crypto.SeparatesHeaders H)
    (height : U64) (hbehind : height < n.latestBlock.header.height) :
    n.Synchronizes height ↔
      n.PiecesFit (height.toNat + 1) (n.latestBlock.header.height.toNat - height.toNat) ∧
        ¬ n.EndsFull (n.latestBlock.header.height.toNat - height.toNat) :=
  (hreached.serves hsep).1.synchronizes height hbehind

/-- Calls without faults, after each of which the tip is one of the headers. -/
theorem Reached.runs {genesis : GenesisConfig} {calls : List Call} (h : Reached E H genesis n)
    (hcalls : EachStep (next E)
      (fun n c => c.fault = none ∧ (n.next E c).latestBlock.header ∈ H) n calls) :
    Reached E H genesis (WorldstreetChain.runs (next E) n calls) := by
  induction calls generalizing n with
  | nil => exact h
  | cons c calls ih =>
    obtain ⟨⟨hrel, hmem⟩, hrest⟩ := hcalls
    refine ih (h.call c fun s b hc => ?_) hrest
    rw [← (hc.adopted hrel).latestBlock]
    exact hmem

end Node

/-! ## 4. A block that fits no frame -/

namespace Sample

/-- A memo of a million bytes; nothing limits the memos of bridge operations. -/
def longMemo : String := String.ofList (List.replicate 1000000 'a')

def memoMint (id : UInt8) : AssetOperation :=
  { bridge .mint id (.wrapped "ethereum" "WETH" "0x01" 18) 1 with memo := longMemo }

def memoMints : List AssetOperation := [1, 2, 3, 4, 5, 6, 7, 8, 9].map memoMint

def submitMints : List Node.Call := memoMints.map .submitAssetOperation

def queuedNode : Node := runs (Node.next tagged) taggedNode submitMints

/-- The node with nine bridge operations in its block at height 1. -/
def memoNode : Node := queuedNode.next tagged tick

def memoHeaders : List BlockHeader := [taggedNode.latestBlock.header, memoNode.latestBlock.header]

theorem queuedNode_eq :
    queuedNode = { taggedNode with pendingAssetOperations := memoMints } :=
  Node.runs_submitAssetOperation (n := taggedNode) (by decide +kernel) (by decide +kernel)
    (by decide +kernel)

theorem acceptLoop_memoMints : ∃ s,
    Node.acceptLoop tagged .asset (genesisState 1) memoMints = .ok (s, memoMints) := by
  have hlength : ((Node.acceptLoop tagged .asset (genesisState 1) memoMints).toOption.any fun r =>
      r.2.length == memoMints.length) = true := by
    decide +kernel
  cases h : Node.acceptLoop tagged .asset (genesisState 1) memoMints with
  | error e =>
    rw [h] at hlength
    cases hlength
  | ok r =>
    obtain ⟨s, accepted⟩ := r
    rw [h] at hlength
    have hall := (Node.acceptLoop_sublist h).eq_of_length (beq_iff_eq.mp hlength)
    exact ⟨s, by rw [hall]⟩

theorem commits_memoMints :
    ∃ s b, Node.Commits tagged queuedNode tick s b ∧ b.assetOperations = memoMints := by
  obtain ⟨s, hs⟩ := acceptLoop_memoMints
  rw [queuedNode_eq]
  have haccept : Node.accept tagged (genesisState 1) 1
      { Batch.empty with assetOperations := memoMints } =
        .ok (s, { Batch.empty with assetOperations := memoMints }) :=
    Node.accept_assets hs
  exact ⟨s, _, .produce ⟨2, none⟩ none s _ 1 (by decide) haccept rfl, rfl⟩

theorem le_length_string (s : String) : (utf8 s).length ≤ (encode s).length := by
  show _ ≤ (encodeLength (utf8 s).length ++ utf8 s).length
  rw [List.length_append]
  exact Nat.le_add_left _ _

theorem length_utf8_replicate (k : Nat) :
    (utf8 (String.ofList (List.replicate k 'a'))).length = k := by
  have hone : ∀ c ∈ List.replicate k 'a', c.utf8Size = 1 := fun c hc => by
    rw [List.eq_of_mem_replicate hc]
    rfl
  rw [length_utf8_ofList hone, List.length_replicate]

theorem le_length_longMemo : 1000000 ≤ (encode longMemo).length := by
  have hle := le_length_string longMemo
  have hlength : (utf8 longMemo).length = 1000000 := length_utf8_replicate 1000000
  rw [hlength] at hle
  exact hle

/-- An operation is at least as long as its memo. -/
theorem le_length_assetOperation (o : AssetOperation) :
    (encode o.memo).length ≤ (canonicalEncode o).length := by
  show _ ≤ (encode (o.version, o.operationId, o.kind, o.assetId, o.address, o.destination, o.amount,
    o.externalTransaction, o.memo)).length
  simp only [encode_pair, List.length_append]
  omega

/-- A block is at least as long as its bridge operations. -/
theorem le_length_block (b : Block) :
    (b.assetOperations.map fun o => (canonicalEncode o).length).sum ≤
      (canonicalEncode b).length := by
  have hitems : (encode b.assetOperations).length =
      (encodeLength b.assetOperations.length).length +
        (b.assetOperations.map fun o => (canonicalEncode o).length).sum := by
    show (encodeLength _ ++ b.assetOperations.flatMap encode).length = _
    rw [List.length_append, List.length_flatMap]
    rfl
  show _ ≤ (encode (b.header, b.transactions, b.assetOperations, b.tokenOperations,
    b.mnaSwapOperations, b.mnaReserveOperations, b.programOperations)).length
  simp only [encode_pair, List.length_append, hitems]
  omega

/-- **The nine operations fit no frame.** -/
theorem lt_length_memoBlock {b : Block} (h : b.assetOperations = memoMints) :
    maxFrameBytes < (canonicalEncode b).length := by
  have hle := le_length_block b
  have hsum := List.card_nsmul_le_sum
    (b.assetOperations.map fun o => (canonicalEncode o).length) 1000000 fun x hx => by
      obtain ⟨o, ho, rfl⟩ := List.mem_map.mp hx
      rw [h] at ho
      obtain ⟨id, -, rfl⟩ := List.mem_map.mp ho
      exact Nat.le_trans le_length_longMemo (le_length_assetOperation (memoMint id))
  have hnine : memoMints.length = 9 := rfl
  rw [List.length_map, h, hnine] at hsum
  rw [h] at hle
  have hsum : 9 * 1000000 ≤ (memoMints.map fun o => (canonicalEncode o).length).sum := hsum
  have hmax : maxFrameBytes < 9 * 1000000 := by decide
  omega

theorem memoNode_adopted :
    ∃ s b, Node.Commits tagged queuedNode tick s b ∧ Node.Adopted tagged queuedNode s b memoNode ∧
      b.assetOperations = memoMints := by
  obtain ⟨s, b, hc, hmemos⟩ := commits_memoMints
  exact ⟨s, b, hc, hc.adopted rfl, hmemos⟩

theorem latestBlock_queuedNode : queuedNode.latestBlock = taggedNode.latestBlock := by
  rw [queuedNode_eq]

theorem height_memoNode : memoNode.latestBlock.header.height = 1 := by
  obtain ⟨s, b, hc, ha, -⟩ := memoNode_adopted
  rw [ha.latestBlock, hc.extends.height_eq, latestBlock_queuedNode]
  rfl

theorem tagged_separates {a b : BlockHeader} (hne : a.height ≠ b.height) :
    tagged.crypto.SeparatesHeaders [a, b] := by
  intro h hh h' hh' heq
  have hheight := (tagged_binds heq).1
  simp only [List.mem_cons, List.not_mem_nil, or_false] at hh hh'
  rcases hh with rfl | rfl
  · rcases hh' with rfl | rfl
    · rfl
    · exact absurd hheight hne
  · rcases hh' with rfl | rfl
    · exact absurd hheight.symm hne
    · rfl

theorem memoHeaders_separate : tagged.crypto.SeparatesHeaders memoHeaders := by
  refine tagged_separates ?_
  rw [height_memoNode]
  decide

/-- Calls that commit nothing, one after the other. -/
theorem reached_runs {E : Env} {H : List BlockHeader} {genesis : GenesisConfig} {n : Node}
    (h : Node.Reached E H genesis n) {calls : List Node.Call}
    (hnone : ∀ c ∈ calls, ∀ n s b, ¬ Node.Commits E n c s b) :
    Node.Reached E H genesis (runs (Node.next E) n calls) := by
  induction calls generalizing n with
  | nil => exact h
  | cons c calls ih =>
    refine ih (h.call c fun s b hc => ?_) fun d hd => hnone d (List.mem_cons_of_mem _ hd)
    exact absurd hc (hnone c List.mem_cons_self n s b)

theorem memoNode_reached : Node.Reached tagged memoHeaders (genesis 1) memoNode := by
  have hopened : Node.Reached tagged memoHeaders (genesis 1) taggedNode :=
    .opened ⟨1, none⟩ Node.openDir_taggedNode List.mem_cons_self
  have hqueued : Node.Reached tagged memoHeaders (genesis 1) queuedNode := by
    refine reached_runs hopened fun c hc n s b hcommits => ?_
    obtain ⟨o, -, rfl⟩ := List.mem_map.mp hc
    cases hcommits
  refine hqueued.call tick fun s b hc => ?_
  have ha : Node.Adopted tagged queuedNode s b memoNode := hc.adopted rfl
  rw [← ha.latestBlock]
  exact List.mem_cons_of_mem _ List.mem_cons_self

/-- A node at height 2. -/
def servingNode : Node := runs (Node.next tagged) taggedNode twoBlocks

def servedHeaders : List BlockHeader :=
  (Node.chainOf tagged taggedNode twoBlocks).map Block.header

/-- Each call leaves one of the headers at the tip, and the two blocks fit a frame. -/
theorem evaluated_servingNode :
    EachStep (Node.next tagged)
      (fun n c => c.fault = none ∧ (n.next tagged c).latestBlock.header ∈ servedHeaders)
        taggedNode twoBlocks ∧
    servingNode.latestBlock.header.height = 2 ∧
    Node.answerBytes (servingNode.blocksAt 1 2) ≤ maxFrameBytes := by
  decide +kernel

theorem servingNode_reached : Node.Reached tagged servedHeaders (genesis 1) servingNode :=
  (Node.Reached.opened ⟨1, none⟩ Node.openDir_taggedNode List.mem_cons_self).runs
    evaluated_servingNode.1

end Sample

namespace Node

/-- The one block above a peer at height 0. -/
theorem blocksAt_one {b : Block} {s : State} {m : Node} (ha : Adopted E n s b m)
    (hheight : b.header.height = 1) : m.blocksAt 1 1 = [b] := by
  have hread := ha.getBlockByHeight
  rw [hheight] at hread
  show [1].filterMap (fun height : Nat =>
    (m.store.getBlockByHeight (BitVec.ofNat 64 height)).toOption) = _
  rw [List.filterMap_cons, show BitVec.ofNat 64 1 = (1 : U64) from rfl, hread]
  rfl

/-- A peer at height 0 gets the two blocks. -/
theorem synchronizes_blocks : Sample.servingNode.Synchronizes 0 := by
  obtain ⟨-, hheight, hfits⟩ := Sample.evaluated_servingNode
  have htwo : Sample.servingNode.latestBlock.header.height.toNat - (0 : U64).toNat = 2 := by
    rw [hheight]
    rfl
  refine (synchronizes_iff Sample.servingNode_reached Sample.twoBlocks_separate 0 ?_).mpr
    ⟨?_, ?_⟩
  · rw [hheight]
    decide
  · rw [htwo]
    exact (piecesFit_iff_of_lt (by decide)).mpr hfits
  · rw [htwo]
    intro h
    have hdvd := Nat.le_of_dvd h.2.1 h.2.2
    omega

/-- **A block of nine bridge operations with long memos** fits no frame: the answer to a peer at
    height 0 is not sent, now or at any later try. -/
theorem long_block_stops_synchronization :
    Reached Sample.tagged Sample.memoHeaders (Sample.genesis 1) Sample.memoNode ∧
      Sample.tagged.crypto.SeparatesHeaders Sample.memoHeaders ∧
      0 < Sample.memoNode.latestBlock.header.height ∧
      Sample.memoNode.serveGetBlocks 1 129 = .error (.err .invalidFrameLength) ∧
      ¬ Sample.memoNode.Synchronizes 0 := by
  obtain ⟨s, b, hc, ha, hmemos⟩ := Sample.memoNode_adopted
  have hheight := Sample.height_memoNode
  have hb : b.header.height = 1 := by rw [← ha.latestBlock, hheight]
  have hblocks := blocksAt_one ha hb
  have hlong := Sample.lt_length_memoBlock hmemos
  have hbehind : 0 < Sample.memoNode.latestBlock.header.height := by
    rw [hheight]
    decide
  have hone : Sample.memoNode.latestBlock.header.height.toNat - (0 : U64).toNat = 1 := by
    rw [hheight]
    rfl
  have hbytes : maxFrameBytes < answerBytes [b] := by
    have hsum : answerBytes [b] = 1 + (encodeLength [b].length).length +
      (canonicalEncode b).length := rfl
    omega
  refine ⟨Sample.memoNode_reached, Sample.memoHeaders_separate, hbehind, ?_, fun h => ?_⟩
  · have hcollect := collectBlocks_requestFrom Sample.memoNode 1
    rw [hheight, show min 129 ((1 : U64).toNat + 1 - (1 : U64).toNat) = 1 from rfl,
      show (1 : U64).toNat = 1 from rfl, hblocks] at hcollect
    have hsat : (requestFrom 1).2 = 129 := by decide
    rw [hsat] at hcollect
    unfold serveGetBlocks
    rw [show Sample.memoNode.collectBlocks 1 129 = .ok [b] from hcollect]
    rw [← length_canonicalEncode_blocks] at hbytes
    exact writeMessage_eq_error hbytes
  · have hserved := (Sample.memoNode_reached.serves Sample.memoHeaders_separate).1
    have hfit := ((hserved.synchronizes 0 hbehind).mp h).1
    rw [hone, show (0 : U64).toNat + 1 = 1 from rfl] at hfit
    have hle := (piecesFit_iff_of_lt (by decide)).mp hfit
    rw [hblocks] at hle
    omega

end Node

end WorldstreetChain
