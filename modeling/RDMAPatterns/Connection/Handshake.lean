import RDMAPatterns.Connection.LinkSteps

/-! Two servers that may both connect to each other. Each keeps a link about
the other one, and each call has a channel with at most one message in flight.
The flag and the comparison of the node ids see to it that one of the two
requests is served at most. -/
namespace RDMAClient

open ReliableRDMA

/-- What is in flight on the control connection of a call. -/
inductive Channel where
  | empty
  | request (connRequest : ConnRequest)
  | reply (answer : ConnReply)
deriving DecidableEq, Repr

/-- `RDMAServer::handle`: a refusal is sent as an `ErrorMessage` without code. -/
def toReply : Option ConnData → ConnReply
  | some connResponse => .connResponse connResponse
  | none => .errorMessage 0

/-- A step of the call from `x` to `y`, on the caller's link, the callee's link
and the call's channel. The flag says that the step serves the request. -/
inductive Exchange (x y : Nat) :
    Bool → Link → Link → Channel → Link → Link → Channel → Prop where
  | claimed {lx ly : Link} {ch : Channel} (hStage : lx.stage = .notCalled)
      (hFlag : lx.claimed = false) : Exchange x y false lx ly ch lx.claim.2 ly ch
  | early {lx ly : Link} {ch : Channel} (hStage : lx.stage = .notCalled)
      (hFlag : lx.claimed = true) :
      Exchange x y false lx ly ch { lx with stage := .returned, pending := none } ly ch
  | sent {lx ly : Link} {ch : Channel} (hStage : lx.stage = .claimed) (connRequest : ConnRequest) :
      Exchange x y false lx ly ch (lx.send connRequest.conn.qpNum none).2 ly
        (.request connRequest)
  | handled {lx ly : Link} (connRequest : ConnRequest) (localConn : ConnData) :
      Exchange x y (ly.connectQueue (x < y) none localConn connRequest.conn none).1.isSome
        lx ly (.request connRequest)
        lx (ly.connectQueue (x < y) none localConn connRequest.conn none).2
        (.reply (toReply (ly.connectQueue (x < y) none localConn connRequest.conn none).1))
  | received {lx ly : Link} (hStage : lx.stage = .waiting) (localConn : ConnData)
      (answer : ConnReply) :
      Exchange x y false lx ly (.reply answer) (lx.reply localConn answer none).2 ly .empty

/-- How far a call has got that is not served. -/
inductive Ask where
  | notCalled
  | claimed
  | requested
  | refused
  | returned
deriving DecidableEq, Repr

def Asks (l : Link) (ch : Channel) : Ask → Prop
  | .notCalled => l.stage = .notCalled ∧ ch = .empty
  | .claimed => l.stage = .claimed ∧ ch = .empty
  | .requested => l.stage = .waiting ∧ ∃ connRequest, ch = .request connRequest ∧
      l.pending = some (freshQp none connRequest.conn.qpNum)
  | .refused => l.stage = .waiting ∧ ∃ code, ch = .reply (.errorMessage code)
  | .returned => l.stage = .returned ∧ ch = .empty

/-- The callee holds a queue pair for the caller's. The caller holds one for
the callee's, or the answer that tells it to is in flight. -/
structure Served (lx ly : Link) (ch : Channel) (nx ny : Nat) : Prop where
  flags : lx.claimed = true ∧ ly.claimed = true
  callee : ly.qp = some (connectedQp ny nx) ∧ ly.rconn.qpNum = nx
  caller : (lx.stage = .waiting ∧ lx.connected = false ∧ lx.pending = some (freshQp none nx) ∧
      ∃ conn, ch = .reply (.connResponse conn) ∧ conn.qpNum = ny) ∨
    (lx.stage = .returned ∧ ch = .empty ∧ lx.qp = some (connectedQp nx ny) ∧
      lx.rconn.qpNum = ny)

/-- The state of a pair. `la` and `up` belong to the node with the smaller id,
`lb` and `down` to the other one; the number counts the requests served.
Before one is served, only the smaller node can have been refused, and only
because the other one is going to be served. -/
inductive PairState (la lb : Link) (up down : Channel) : Nat → Prop where
  | undecided (ka kb : Ask) (hA : Asks la up ka) (hB : Asks lb down kb)
      (hFlagA : la.claimed = true ↔ ka ≠ .notCalled)
      (hFlagB : lb.claimed = true ↔ kb ≠ .notCalled)
      (hNewA : la.connected = false) (hNewB : lb.connected = false)
      (hHigh : kb ≠ .refused ∧ kb ≠ .returned)
      (hLow : ka = .refused ∨ ka = .returned → kb ≠ .notCalled) : PairState la lb up down 0
  | lowServed (na nb : Nat) (hServed : Served la lb up na nb)
      (hB : Asks lb down .notCalled ∨ Asks lb down .returned) : PairState la lb up down 1
  | highServed (na nb : Nat) (hServed : Served lb la down nb na) (ka : Ask)
      (hA : Asks la up ka) : PairState la lb up down 1

section Asking

variable {l : Link} {ch : Channel} {k : Ask}

theorem Asks.of_notCalled (h : Asks l ch k) (hStage : l.stage = .notCalled) :
    k = .notCalled ∧ ch = .empty := by
  cases k <;> simp_all [Asks]

theorem Asks.of_claimed (h : Asks l ch k) (hStage : l.stage = .claimed) :
    k = .claimed ∧ ch = .empty := by
  cases k <;> simp_all [Asks]

theorem Asks.of_request {connRequest : ConnRequest} (h : Asks l (.request connRequest) k) :
    k = .requested ∧ l.stage = .waiting ∧
      l.pending = some (freshQp none connRequest.conn.qpNum) := by
  cases k <;> simp_all [Asks]

theorem Asks.of_reply {answer : ConnReply} (h : Asks l (.reply answer) k) :
    k = .refused ∧ ∃ code, answer = .errorMessage code := by
  cases k <;> simp_all [Asks]

end Asking

section Steps

variable {a b : Nat} {la lb la' lb' : Link} {up down ch' : Channel} {count : Nat} {served : Bool}

/-- What one call does cannot undo that another call of the pair was served. -/
theorem Served.frame {lx ly ly' : Link} {ch : Channel} {nx ny : Nat} (h : Served lx ly ch nx ny)
    (hClaimed : ly'.claimed = ly.claimed) (hQp : ly'.qp = ly.qp) (hRemote : ly'.rconn = ly.rconn) :
    Served lx ly' ch nx ny where
  flags := by rw [hClaimed]; exact h.flags
  callee := by rw [hQp, hRemote]; exact h.callee
  caller := h.caller

/-- A served call can only receive its answer, and then both sides are connected. -/
theorem Served.exchange {x y nx ny : Nat} {lx ly lx' ly' : Link} {ch ch' : Channel}
    (h : Served lx ly ch nx ny) (hStep : Exchange x y served lx ly ch lx' ly' ch') :
    served = false ∧ ly' = ly ∧ Served lx' ly' ch' nx ny := by
  cases hStep with
  | claimed hStage hFlag => rcases h.caller with ⟨hWait, _⟩ | ⟨hDone, _⟩ <;> simp_all
  | early hStage hFlag => rcases h.caller with ⟨hWait, _⟩ | ⟨hDone, _⟩ <;> simp_all
  | sent hStage connRequest => rcases h.caller with ⟨hWait, _⟩ | ⟨hDone, _⟩ <;> simp_all
  | handled connRequest localConn =>
      rcases h.caller with ⟨_, _, _, conn, hCh, _⟩ | ⟨_, hCh, _⟩
      · cases hCh
      · cases hCh
  | received hStage localConn answer =>
      rcases h.caller with ⟨_, hNew, hPending, conn, hCh, hNum⟩ | ⟨_, hCh, _⟩
      · obtain rfl := Channel.reply.inj hCh
        rw [Link.reply_accepts hNew hPending]
        refine ⟨rfl, rfl, h.flags, h.callee, .inr ⟨rfl, rfl, ?_, hNum⟩⟩
        rw [hNum]
      · cases hCh

/-- A call that is served has never been refused, and finds the callee's link new. -/
theorem served_of_handled {x y : Nat} {lx ly : Link} {connRequest : ConnRequest}
    {localConn : ConnData} (hFlag : lx.claimed = true)
    (hAsks : Asks lx (.request connRequest) .requested)
    (hCaller : lx.connected = false) (hCallee : ly.connected = false)
    (hBack : ¬ (ly.claimed = true ∧ x < y)) :
    Served lx (ly.connectQueue (x < y) none localConn connRequest.conn none).2
      (.reply (toReply (ly.connectQueue (x < y) none localConn connRequest.conn none).1))
      connRequest.conn.qpNum localConn.qpNum := by
  obtain ⟨_, hStage, hPending⟩ := hAsks.of_request
  rw [Link.connectQueue_serves hBack hCallee]
  exact ⟨⟨hFlag, rfl⟩, ⟨rfl, rfl⟩, .inl ⟨hStage, hCaller, hPending, localConn, rfl, rfl⟩⟩

/-- A step of the call that the smaller node makes. -/
theorem low_exchange (hLt : a < b) (h : PairState la lb up down count)
    (hStep : Exchange a b served la lb up la' lb' ch') :
    PairState la' lb' ch' down (count + served.toNat) := by
  cases h with
  | lowServed na nb hServed hB =>
      obtain ⟨rfl, rfl, hAfter⟩ := hServed.exchange hStep
      exact .lowServed na nb hAfter hB
  | highServed na nb hServed ka hA =>
      cases hStep with
      | claimed hStage hFlag => simp [hServed.flags.2] at hFlag
      | early hStage hFlag =>
          obtain ⟨rfl, rfl⟩ := hA.of_notCalled hStage
          exact .highServed na nb (hServed.frame rfl rfl rfl) .returned ⟨rfl, rfl⟩
      | sent hStage connRequest =>
          rw [Link.send_ok]
          exact .highServed na nb (hServed.frame rfl rfl rfl) .requested
            ⟨rfl, connRequest, rfl, rfl⟩
      | handled connRequest localConn =>
          obtain ⟨rfl, hStage, hPending⟩ := hA.of_request
          rw [Link.connectQueue_refuses ⟨hServed.flags.1, hLt⟩]
          exact .highServed na nb hServed .refused ⟨hStage, 0, rfl⟩
      | received hStage localConn answer =>
          obtain ⟨rfl, code, rfl⟩ := hA.of_reply
          exact .highServed na nb (hServed.frame rfl rfl rfl) .returned ⟨rfl, rfl⟩
  | undecided ka kb hA hB hFlagA hFlagB hNewA hNewB hHigh hLow =>
      cases hStep with
      | claimed hStage hFlag =>
          obtain ⟨rfl, rfl⟩ := hA.of_notCalled hStage
          rw [Link.claim_of_unclaimed hFlag]
          exact .undecided .claimed kb ⟨rfl, rfl⟩ hB (by simp) hFlagB hNewA hNewB hHigh (by simp)
      | early hStage hFlag =>
          obtain ⟨rfl, rfl⟩ := hA.of_notCalled hStage
          exact absurd rfl (hFlagA.mp hFlag)
      | sent hStage connRequest =>
          obtain ⟨rfl, rfl⟩ := hA.of_claimed hStage
          rw [Link.send_ok]
          have hFlag : la.claimed = true := hFlagA.mpr (by simp)
          exact .undecided .requested kb ⟨rfl, connRequest, rfl, rfl⟩ hB (by simp [hFlag]) hFlagB
            hNewA hNewB hHigh (by simp)
      | handled connRequest localConn =>
          obtain ⟨rfl, hStage, hPending⟩ := hA.of_request
          have hFlag : la.claimed = true := hFlagA.mpr (by simp)
          by_cases hBack : lb.claimed = true
          · rw [Link.connectQueue_refuses ⟨hBack, hLt⟩]
            exact .undecided .refused kb ⟨hStage, 0, rfl⟩ hB (by simp [hFlag]) hFlagB hNewA hNewB
              hHigh fun _ => hFlagB.mp hBack
          · have hIdle : kb = .notCalled := by
              by_contra hCalled
              exact hBack (hFlagB.mpr hCalled)
            have hNot : ¬ (lb.claimed = true ∧ a < b) := fun hBoth => hBack hBoth.1
            have hServed := @served_of_handled a b la lb connRequest localConn hFlag hA hNewA
              hNewB hNot
            rw [Link.connectQueue_serves hNot hNewB] at hServed ⊢
            rw [hIdle] at hB
            exact .lowServed _ _ hServed (.inl hB)
      | received hStage localConn answer =>
          obtain ⟨rfl, code, rfl⟩ := hA.of_reply
          have hFlag : la.claimed = true := hFlagA.mpr (by simp)
          exact .undecided .returned kb ⟨rfl, rfl⟩ hB (by simp [Link.reply_refused, hFlag]) hFlagB
            hNewA hNewB hHigh fun _ => hLow (.inl rfl)

/-- A step of the call that the greater node makes. Its requests are never
refused. -/
theorem high_exchange (hLt : a < b) (h : PairState la lb up down count)
    (hStep : Exchange b a served lb la down lb' la' ch') :
    PairState la' lb' up ch' (count + served.toNat) := by
  have hGreater : ¬ (la.claimed = true ∧ b < a) := fun hBoth => Nat.lt_asymm hLt hBoth.2
  cases h with
  | highServed na nb hServed ka hA =>
      obtain ⟨rfl, rfl, hAfter⟩ := hServed.exchange hStep
      exact .highServed na nb hAfter ka hA
  | lowServed na nb hServed hB =>
      have hFlag : lb.claimed = true := hServed.flags.2
      cases hStep with
      | claimed hStage hUnset => simp [hFlag] at hUnset
      | early hStage _ =>
          rcases hB with hB | hB
          · obtain ⟨_, rfl⟩ := hB.of_notCalled hStage
            exact .lowServed na nb (hServed.frame rfl rfl rfl) (.inr ⟨rfl, rfl⟩)
          · simp [hStage, Asks] at hB
      | sent hStage connRequest => rcases hB with hB | hB <;> simp [hStage, Asks] at hB
      | handled connRequest localConn => rcases hB with hB | hB <;> simp [Asks] at hB
      | received hStage localConn answer => rcases hB with hB | hB <;> simp [Asks] at hB
  | undecided ka kb hA hB hFlagA hFlagB hNewA hNewB hHigh hLow =>
      cases hStep with
      | claimed hStage hFlag =>
          obtain ⟨rfl, rfl⟩ := hB.of_notCalled hStage
          rw [Link.claim_of_unclaimed hFlag]
          exact .undecided ka .claimed hA ⟨rfl, rfl⟩ hFlagA (by simp) hNewA hNewB (by simp)
            (by simp)
      | early hStage hFlag =>
          obtain ⟨rfl, rfl⟩ := hB.of_notCalled hStage
          exact absurd rfl (hFlagB.mp hFlag)
      | sent hStage connRequest =>
          obtain ⟨rfl, rfl⟩ := hB.of_claimed hStage
          rw [Link.send_ok]
          have hFlag : lb.claimed = true := hFlagB.mpr (by simp)
          exact .undecided ka .requested hA ⟨rfl, connRequest, rfl, rfl⟩ hFlagA (by simp [hFlag])
            hNewA hNewB (by simp) (by simp)
      | handled connRequest localConn =>
          obtain ⟨rfl, _, _⟩ := hB.of_request
          have hFlag : lb.claimed = true := hFlagB.mpr (by simp)
          have hServed := @served_of_handled b a lb la connRequest localConn hFlag hB hNewB
            hNewA hGreater
          rw [Link.connectQueue_serves hGreater hNewA] at hServed ⊢
          exact .highServed _ _ hServed ka hA
      | received hStage localConn answer =>
          obtain ⟨rfl, _⟩ := hB.of_reply
          exact absurd rfl hHigh.1

theorem PairState.count_le (h : PairState la lb up down count) : count ≤ 1 := by
  cases h <;> simp

/-- Both links are connected to each other, by queue pairs that exist. -/
def Linked (la lb : Link) : Prop :=
  ∃ na nb, la.qp = some (connectedQp na nb) ∧ lb.qp = some (connectedQp nb na) ∧
    la.rconn.qpNum = nb ∧ lb.rconn.qpNum = na

/-- A call that is not in progress. -/
def Settled (l : Link) : Prop := l.stage = .notCalled ∨ l.stage = .returned

/-- When the calls are over, and there was one, the pair is connected. -/
theorem PairState.linked (h : PairState la lb up down count) (hA : Settled la) (hB : Settled lb)
    (hCalled : la.stage = .returned ∨ lb.stage = .returned) : Linked la lb := by
  cases h with
  | undecided ka kb hAskA hAskB hFlagA hFlagB hNewA hNewB hHigh hLow =>
      exfalso
      have hIdle : kb = .notCalled := by
        rcases hB with hStage | hStage
        · exact (hAskB.of_notCalled hStage).1
        · cases kb <;> simp_all [Asks]
      rcases hCalled with hStage | hStage
      · have hReturned : ka = .returned := by cases ka <;> simp_all [Asks]
        exact hLow (.inr hReturned) hIdle
      · rw [hIdle] at hAskB
        simp [Asks, hStage] at hAskB
  | lowServed na nb hServed _ =>
      rcases hServed.caller with ⟨hWait, _⟩ | ⟨_, _, hQp, hNum⟩
      · rcases hA with hStage | hStage <;> simp [hStage] at hWait
      · exact ⟨na, nb, hQp, hServed.callee.1, hNum, hServed.callee.2⟩
  | highServed na nb hServed _ _ =>
      rcases hServed.caller with ⟨hWait, _⟩ | ⟨_, _, hQp, hNum⟩
      · rcases hB with hStage | hStage <;> simp [hStage] at hWait
      · exact ⟨na, nb, hServed.callee.1, hQp, hServed.callee.2, hNum⟩

end Steps

end RDMAClient
