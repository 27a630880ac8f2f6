import Go2Cbt.Client.NetworkClient

/-!
# Client — the stream of one connection

`SendHello`, `SendBlock`, `SendBlockNoWait` and `SendBye` of `NetworkClient.cpp` down to the single
calls of `send` and `recv`, which may take or bring less than they are offered, fail, or not
return.  The thread that receives the acknowledgements may lose the connection at any time.

What the socket has taken is always a prefix of the messages of the calls, one after the other,
and after a `SendAll` or a `RecvAll` has failed it takes nothing more (`handed_prefix_run`).
-/

namespace Go2Cbt.Client

open Go2Cbt.Protocol

/-- What one call of `send` reports.  While it is out, `RecvAll` may fail in the thread that
receives the acknowledgements. -/
inductive SendReport where
  | sent (n : Nat)
  | error
  | receiverFails
  deriving DecidableEq

/-- What one call of `recv` reports: no bytes if the server has closed the connection. -/
inductive RecvReport where
  | received (data : Bytes)
  | error
  | receiverFails
  deriving DecidableEq

/-- The connection, with the bytes that the socket has taken and whether a `SendAll` or a
`RecvAll` has failed, and the reports of the calls to come. -/
structure Talk where
  connected : Bool
  failed : Bool
  handed : Bytes
  sends : List SendReport
  recvs : List RecvReport
  connected_eq : connected = !failed

namespace Talk

/-- A connection just made. -/
def start : Talk :=
  { connected := true
    failed := false
    handed := []
    sends := []
    recvs := []
    connected_eq := rfl }

/-- A `SendAll` or a `RecvAll` fails. -/
def fail (t : Talk) : Talk := { t with connected := false, failed := true, connected_eq := rfl }

end Talk

/-- An unsigned size as the `int` it is passed as. -/
def asInt (n : UInt32) : Int := n.toBitVec.toInt

/-- The loop of `SendAll`.  Without a result it waits for the socket. -/
def sendAllFrom (data : Bytes) (size : Int) :
    (totalSent : Nat) → List SendReport → Talk → Option Bool × Talk
  | totalSent, [], t =>
      (if (totalSent : Int) < size then none else some true, { t with sends := [] })
  | totalSent, report :: reports, t =>
      if (totalSent : Int) < size then
        match report with
        | .sent n =>
            let taken := min n (size - totalSent).toNat
            sendAllFrom data size (totalSent + taken) reports
              { t with handed := t.handed ++ (data.drop totalSent).take taken }
        | .error => (some false, { t.fail with sends := reports })
        | .receiverFails => sendAllFrom data size totalSent reports t.fail
      else (some true, { t with sends := report :: reports })

/-- `SendAll`. -/
def sendAll (data : Bytes) (size : Int) (t : Talk) : Option Bool × Talk :=
  sendAllFrom data size 0 t.sends t

/-- The loop of `RecvAll`, which returns the bytes if it succeeds. -/
def recvAllFrom (size : Nat) :
    (buffer : Bytes) → List RecvReport → Talk → Option (Option Bytes) × Talk
  | buffer, [], t =>
      (if buffer.length < size then none else some (some buffer), { t with recvs := [] })
  | buffer, report :: reports, t =>
      if buffer.length < size then
        match report with
        | .received [] => (some none, { t.fail with recvs := reports })
        | .received (byte :: data) =>
            recvAllFrom size (buffer ++ (byte :: data).take (size - buffer.length)) reports t
        | .error => (some none, { t.fail with recvs := reports })
        | .receiverFails => recvAllFrom size buffer reports t.fail
      else (some (some buffer), { t with recvs := report :: reports })

/-- `RecvAll`. -/
def recvAll (size : Nat) (t : Talk) : Option (Option Bytes) × Talk :=
  recvAllFrom size [] t.recvs t

/-- Return `false` if the call did, and go on otherwise. -/
def orReturn {α : Type} (r : Option (Option α) × Talk) (next : α → Talk → Option Bool × Talk) :
    Option Bool × Talk :=
  match r.1 with
  | none => (none, r.2)
  | some none => (some false, r.2)
  | some (some a) => next a r.2

/-- `ReceiveAck`, which uses neither of its arguments for what it accepts. -/
def receiveAck (t : Talk) : Option Bool × Talk :=
  orReturn (recvAll headerSize t) fun header t =>
    let hdr := MsgHeader.ofBytes header
    if hdr.magic ≠ protocolMagic then (some false, t)
    else if hdr.type ≠ MessageType.ack.code then (some false, t)
    else
      orReturn (recvAll ackBodySize t) fun body t =>
        (some (decide ((AckBody.ofBytes body).status = 0)), t)

/-- Go on if a `SendAll` has succeeded. -/
def afterSend (r : Option Bool × Talk) (next : Talk → Option Bool × Talk) : Option Bool × Talk :=
  if r.1 = some true then next r.2 else r

/-- The messages and who waits for their acknowledgement. -/
inductive Call where
  | sendHello (versionId devNo : UInt32) (totalBlocks totalSize : UInt64)
      (versionType : List UInt16)
  | sendBlock (devNo : UInt32) (blockIndex : UInt64) (rawSize : UInt32) (compressedData : Bytes)
      (hash : Hash) (versionId : UInt32)
  | sendBlockNoWait (devNo : UInt32) (blockIndex : UInt64) (rawSize : UInt32)
      (compressedData : Bytes) (hash : Hash) (versionId : UInt32)
  | sendBye (devNo : UInt32)
  deriving DecidableEq

namespace Call

/-- The message of a call. -/
def message : Call → ClientMessage
  | sendHello versionId devNo totalBlocks totalSize versionType =>
      .hello versionId devNo totalBlocks totalSize versionType
  | sendBlock devNo blockIndex rawSize compressedData hash versionId =>
      .block devNo blockIndex rawSize compressedData hash versionId
  | sendBlockNoWait devNo blockIndex rawSize compressedData hash versionId =>
      .block devNo blockIndex rawSize compressedData hash versionId
  | sendBye devNo => .bye devNo

/-- The three pieces of a block. -/
def sendPieces (devNo : UInt32) (blockIndex : UInt64) (rawSize : UInt32) (compressedData : Bytes)
    (hash : Hash) (versionId : UInt32) (t : Talk) : Option Bool × Talk :=
  let blkHdr := blockHeader blockIndex rawSize compressedData hash versionId
  afterSend (sendAll (header .dataBlock devNo).bytes headerSize t) fun t =>
    afterSend (sendAll blkHdr.bytes blockHeaderSize t) fun t =>
      sendAll compressedData (asInt blkHdr.compressedSize) t

/-- What a call does once it has seen that it is connected. -/
def send : Call → Talk → Option Bool × Talk
  | sendHello versionId devNo totalBlocks totalSize versionType, t =>
      let body := helloBody versionId devNo totalBlocks totalSize versionType
      afterSend (sendAll (header .hello devNo).bytes headerSize t) fun t =>
        afterSend (sendAll body.bytes helloBodySize t) receiveAck
  | sendBlock devNo blockIndex rawSize compressedData hash versionId, t =>
      afterSend (sendPieces devNo blockIndex rawSize compressedData hash versionId t) receiveAck
  | sendBlockNoWait devNo blockIndex rawSize compressedData hash versionId, t =>
      sendPieces devNo blockIndex rawSize compressedData hash versionId t
  | sendBye devNo, t =>
      afterSend (sendAll (header .bye devNo).bytes headerSize t) receiveAck

/-- `SendHello`, `SendBlock`, `SendBlockNoWait` and `SendBye`. -/
def run (c : Call) (t : Talk) : Option Bool × Talk :=
  if t.connected then c.send t else (some false, t)

/-- The payload of a block is small enough for the `int` that `SendAll` takes. -/
def Fits (c : Call) : Prop :=
  match c with
  | sendBlock _ _ _ compressedData _ _ | sendBlockNoWait _ _ _ compressedData _ _ =>
      compressedData.length < 2 ^ 31
  | _ => True

end Call

/-- What happens on the connection: a call, with the reports that the socket gives it as far as
they have come in, or a `RecvAll` that fails between two calls in the thread that receives the
acknowledgements. -/
inductive Action where
  | call (c : Call) (sends : List SendReport) (recvs : List RecvReport)
  | receiverFails

/-- The call of an action fits. -/
def Action.Fits : Action → Prop
  | .call c _ _ => c.Fits
  | .receiverFails => True

/-- The connection, the calls made on it, and whether the last of them waits for the socket. -/
structure Stream where
  talk : Talk
  called : List Call
  waiting : Bool

namespace Stream

/-- The connection before the first call. -/
def start : Stream := { talk := .start, called := [], waiting := false }

/-- What the next action does.  Nothing follows a call that still waits. -/
def act (s : Stream) (a : Action) : Stream :=
  if s.waiting then s
  else
    match a with
    | .call c sends recvs =>
        let r := c.run { s.talk with sends, recvs }
        { talk := r.2, called := s.called ++ [c], waiting := r.1.isNone }
    | .receiverFails => { s with talk := s.talk.fail }

/-- The actions in order. -/
def run (s : Stream) (actions : List Action) : Stream := actions.foldl act s

/-- The messages of the calls, one after the other. -/
def wanted (s : Stream) : Bytes := wire (s.called.map Call.message)

end Stream

/-! ### What a call hands over -/

/-- A run of sends hands over a prefix of `bs`: all of it if it succeeds.  If it returns without
success, a `SendAll` has failed. -/
structure Hands (bs : Bytes) (t : Talk) (r : Option Bool × Talk) : Prop where
  part : ∃ part, part <+: bs ∧ r.2.handed = t.handed ++ part
  whole : r.1 = some true → r.2.handed = t.handed ++ bs
  torn : r.1 = some false → r.2.failed = true

/-- A call hands over a prefix of `bs`: all of it if it returns and nothing has failed. -/
structure Speaks (bs : Bytes) (t : Talk) (r : Option Bool × Talk) : Prop where
  part : ∃ part, part <+: bs ∧ r.2.handed = t.handed ++ part
  whole : r.1.isSome = true → r.2.failed = false → r.2.handed = t.handed ++ bs

/-- A call may end with a run of sends. -/
theorem Hands.speaks {bs : Bytes} {t : Talk} {r : Option Bool × Talk} (h : Hands bs t r) :
    Speaks bs t r where
  part := h.part
  whole := by
    intro hreturned hintact
    obtain ⟨result, hresult⟩ := Option.isSome_iff_exists.mp hreturned
    cases result with
    | true => exact h.whole hresult
    | false => exact absurd (hintact.symm.trans (h.torn hresult)) Bool.noConfusion

/-- A prefix of what follows is a prefix of the whole. -/
theorem part_append {bs bs' : Bytes} {t t' t'' : Talk} (h : t'.handed = t.handed ++ bs)
    (h' : ∃ part, part <+: bs' ∧ t''.handed = t'.handed ++ part) :
    ∃ part, part <+: bs ++ bs' ∧ t''.handed = t.handed ++ part := by
  obtain ⟨part, hpart, hhanded⟩ := h'
  refine ⟨bs ++ part, (List.prefix_append_right_inj bs).mpr hpart, ?_⟩
  rw [hhanded, h, List.append_assoc]

theorem Hands.afterSend {bs bs' : Bytes} {t : Talk} {r : Option Bool × Talk}
    {next : Talk → Option Bool × Talk} (h : Hands bs t r) (hnext : ∀ t', Hands bs' t' (next t')) :
    Hands (bs ++ bs') t (afterSend r next) := by
  rw [Client.afterSend]
  split
  · next hsent =>
    have hall := h.whole hsent
    refine ⟨part_append hall (hnext r.2).part, ?_, (hnext r.2).torn⟩
    intro hnextSent
    rw [(hnext r.2).whole hnextSent, hall, List.append_assoc]
  · next hunsent =>
    obtain ⟨part, hpart, hhanded⟩ := h.part
    exact ⟨⟨part, hpart.trans (List.prefix_append bs bs'), hhanded⟩,
      fun hsent => absurd hsent hunsent, h.torn⟩

/-- What follows the last `SendAll` may fail without a failure of the connection. -/
theorem Hands.speaks_afterSend {bs bs' : Bytes} {t : Talk} {r : Option Bool × Talk}
    {next : Talk → Option Bool × Talk} (h : Hands bs t r) (hnext : ∀ t', Speaks bs' t' (next t')) :
    Speaks (bs ++ bs') t (Client.afterSend r next) := by
  rw [Client.afterSend]
  split
  · next hsent =>
    have hall := h.whole hsent
    refine ⟨part_append hall (hnext r.2).part, ?_⟩
    intro hreturned hintact
    rw [(hnext r.2).whole hreturned hintact, hall, List.append_assoc]
  · next hunsent =>
    obtain ⟨part, hpart, hhanded⟩ := h.part
    refine ⟨⟨part, hpart.trans (List.prefix_append bs bs'), hhanded⟩, ?_⟩
    intro hreturned hintact
    obtain ⟨result, hresult⟩ := Option.isSome_iff_exists.mp hreturned
    cases result with
    | true => exact absurd hresult hunsent
    | false => exact absurd (hintact.symm.trans (h.torn hresult)) Bool.noConfusion

/-- The bytes that one call of `send` takes come before those still to be sent. -/
theorem Hands.cons {bs : Bytes} {n : Nat} {t t' : Talk} {r : Option Bool × Talk}
    (htaken : t'.handed = t.handed ++ bs.take n) (h : Hands (bs.drop n) t' r) : Hands bs t r where
  part := by
    have hpart := part_append htaken h.part
    rw [List.take_append_drop] at hpart
    exact hpart
  whole := by
    intro hsent
    rw [h.whole hsent, htaken, List.append_assoc, List.take_append_drop]
  torn := h.torn

/-- Nothing has been handed over yet, and the sends have not succeeded. -/
theorem hands_nothing {bs : Bytes} {t : Talk} {r : Option Bool × Talk}
    (hhanded : r.2.handed = t.handed) (hsent : r.1 ≠ some true)
    (htorn : r.1 = some false → r.2.failed = true) : Hands bs t r where
  part := ⟨[], List.nil_prefix, hhanded.trans (List.append_nil _).symm⟩
  whole := fun h => absurd h hsent
  torn := htorn

/-- There is nothing left to send. -/
theorem hands_sendAllFrom_done {data : Bytes} {totalSent : Nat} (reports : List SendReport)
    (t : Talk) (h : ¬ (totalSent : Int) < data.length) :
    Hands (data.drop totalSent) t (sendAllFrom data data.length totalSent reports t) := by
  have hreturns : sendAllFrom data data.length totalSent reports t
      = (some true, { t with sends := reports }) := by
    cases reports with
    | nil => rw [sendAllFrom, if_neg h]
    | cons report reports => cases report <;> rw [sendAllFrom, if_neg h]
  have hrest : data.drop totalSent = [] := List.drop_eq_nil_of_le (by omega)
  rw [hreturns, hrest]
  exact ⟨⟨[], List.nil_prefix, (List.append_nil _).symm⟩, fun _ => (List.append_nil _).symm,
    fun h => by cases h⟩

/-- **`SendAll` hands over a prefix of its bytes**, whatever the socket takes at a time. -/
theorem hands_sendAllFrom (data : Bytes) (reports : List SendReport) {totalSent : Nat} (t : Talk)
    (hsent : totalSent ≤ data.length) :
    Hands (data.drop totalSent) t (sendAllFrom data data.length totalSent reports t) := by
  induction reports generalizing totalSent t with
  | nil =>
      by_cases hmore : (totalSent : Int) < data.length
      · rw [sendAllFrom, if_pos hmore]
        exact hands_nothing rfl (fun h => by cases h) (fun h => by cases h)
      · exact hands_sendAllFrom_done [] t hmore
  | cons report reports ih =>
      by_cases hmore : (totalSent : Int) < data.length
      · cases report with
        | sent n =>
            have hroom : ((data.length : Int) - totalSent).toNat = data.length - totalSent := by
              omega
            rw [sendAllFrom, if_pos hmore, hroom]
            generalize htaken : min n (data.length - totalSent) = taken
            have hle : totalSent + taken ≤ data.length := by omega
            have hrest := ih { t with handed := t.handed ++ (data.drop totalSent).take taken } hle
            rw [← List.drop_drop] at hrest
            exact .cons rfl hrest
        | error =>
            rw [sendAllFrom, if_pos hmore]
            exact hands_nothing rfl (fun h => by cases h) (fun _ => rfl)
        | receiverFails =>
            rw [sendAllFrom, if_pos hmore]
            obtain ⟨hpart, hwhole, htorn⟩ := ih t.fail hsent
            exact ⟨hpart, hwhole, htorn⟩
      · exact hands_sendAllFrom_done _ t hmore

theorem hands_sendAll {data : Bytes} {size : Nat} (hsize : data.length = size) (t : Talk) :
    Hands data t (sendAll data size t) := by
  rw [sendAll, ← hsize]
  exact hands_sendAllFrom data t.sends t (Nat.zero_le _)

/-- `RecvAll` hands nothing over. -/
theorem handed_recvAllFrom (size : Nat) (buffer : Bytes) (reports : List RecvReport) (t : Talk) :
    (recvAllFrom size buffer reports t).2.handed = t.handed := by
  induction reports generalizing buffer t with
  | nil => rfl
  | cons report reports ih =>
      cases report with
      | received data =>
          cases data with
          | nil => rw [recvAllFrom]; split <;> rfl
          | cons byte data =>
              rw [recvAllFrom]
              split
              · exact ih _ _
              · rfl
      | error => rw [recvAllFrom]; split <;> rfl
      | receiverFails =>
          rw [recvAllFrom]
          split
          · exact ih _ t.fail
          · rfl

theorem handed_orReturn {α : Type} {t : Talk} {r : Option (Option α) × Talk}
    {next : α → Talk → Option Bool × Talk} (h : r.2.handed = t.handed)
    (hnext : ∀ a t', (next a t').2.handed = t'.handed) :
    (orReturn r next).2.handed = t.handed := by
  rw [orReturn]
  split
  · exact h
  · exact h
  · exact (hnext _ _).trans h

theorem handed_receiveAck (t : Talk) : (receiveAck t).2.handed = t.handed := by
  rw [receiveAck]
  refine handed_orReturn (handed_recvAllFrom _ _ _ t) ?_
  intro header t'
  dsimp only
  split
  · rfl
  · split
    · rfl
    · exact handed_orReturn (handed_recvAllFrom _ _ _ t') fun _ _ => rfl

/-- Waiting for the acknowledgement hands nothing over. -/
theorem Hands.speaks_receiveAck {bs : Bytes} {t : Talk} {r : Option Bool × Talk}
    (h : Hands bs t r) : Speaks bs t (Client.afterSend r receiveAck) := by
  have hnothing : ∀ t', Speaks [] t' (receiveAck t') := by
    intro t'
    have hhanded : (receiveAck t').2.handed = t'.handed ++ [] :=
      (handed_receiveAck t').trans (List.append_nil _).symm
    exact ⟨⟨[], List.prefix_refl [], hhanded⟩, fun _ _ => hhanded⟩
  have hspeaks := h.speaks_afterSend hnothing
  rw [List.append_nil] at hspeaks
  exact hspeaks

/-- A size below `2 ^ 31` is the `int` it is passed as. -/
theorem asInt_ofNat {n : Nat} (h : n < 2 ^ 31) : asInt (UInt32.ofNat n) = n := by
  have hnat : (UInt32.ofNat n).toNat = n := UInt32.toNat_ofNat_of_lt (h.trans (by decide))
  rw [asInt, BitVec.toInt_eq_toNat_of_lt]
  · exact congrArg Int.ofNat hnat
  · rw [UInt32.toNat_toBitVec, hnat]
    omega

theorem hands_sendPieces {devNo : UInt32} {blockIndex : UInt64} {rawSize : UInt32}
    {compressedData : Bytes} {hash : Hash} {versionId : UInt32}
    (hfits : compressedData.length < 2 ^ 31) (t : Talk) :
    Hands (sendBlockNoWait devNo blockIndex rawSize compressedData hash versionId) t
      (Call.sendPieces devNo blockIndex rawSize compressedData hash versionId t) := by
  have hheader := hands_sendAll (length_msgHeader (header .dataBlock devNo))
  rw [sendBlockNoWait, Call.sendPieces]
  refine (hheader t).afterSend fun t => ?_
  refine (hands_sendAll (length_blockHeader _) t).afterSend fun t => ?_
  rw [blockHeader, asInt_ofNat hfits]
  exact hands_sendAll rfl t

/-- **A call hands over its message**, or a prefix of it if it waits or something fails. -/
theorem speaks_send {c : Call} (h : c.Fits) (t : Talk) :
    Speaks c.message.bytes t (c.send t) := by
  cases c with
  | sendHello versionId devNo totalBlocks totalSize versionType =>
      have hheader := hands_sendAll (length_msgHeader (header .hello devNo))
      have hbody := hands_sendAll
        (length_helloBody (helloBody versionId devNo totalBlocks totalSize versionType))
      rw [Call.message, ClientMessage.bytes, sendHello, Call.send]
      exact (hheader t).speaks_afterSend fun t => (hbody t).speaks_receiveAck
  | sendBlock devNo blockIndex rawSize compressedData hash versionId =>
      exact (hands_sendPieces h t).speaks_receiveAck
  | sendBlockNoWait devNo blockIndex rawSize compressedData hash versionId =>
      exact (hands_sendPieces h t).speaks
  | sendBye devNo =>
      have hheader := hands_sendAll (length_msgHeader (header .bye devNo))
      exact (hheader t).speaks_receiveAck

/-! ### What a connection hands over -/

namespace Stream

/-- What has been handed over is a prefix of the messages, and all of them between two calls if
nothing has failed. -/
structure InOrder (s : Stream) : Prop where
  prefix_wanted : s.talk.handed <+: s.wanted
  whole : s.waiting = false → s.talk.failed = false → s.talk.handed = s.wanted

theorem inOrder_start : start.InOrder where
  prefix_wanted := List.prefix_refl []
  whole := fun _ _ => rfl

/-- A call that is not connected returns at once. -/
theorem run_of_failed {t : Talk} (h : t.failed = true) (c : Call) : c.run t = (some false, t) := by
  have hdisconnected : t.connected = false := by rw [t.connected_eq, h]; rfl
  rw [Call.run, hdisconnected]
  rfl

/-- **A call continues the stream where the one before it has ended.** -/
theorem InOrder.act {s : Stream} (h : s.InOrder) {a : Action} (hfits : a.Fits) :
    (s.act a).InOrder := by
  cases a with
  | receiverFails =>
      rw [Stream.act]
      split
      · exact h
      · exact ⟨h.prefix_wanted, fun _ hintact => Bool.noConfusion hintact⟩
  | call c sends recvs =>
      have hwanted : wire ((s.called ++ [c]).map Call.message) = s.wanted ++ c.message.bytes := by
        rw [wanted, wire, wire, List.map_append, List.flatMap_append, List.map_singleton,
          List.flatMap_singleton]
      rw [Stream.act]
      split
      · exact h
      · next hready =>
        cases hfailed : s.talk.failed with
        | true =>
            rw [run_of_failed (by exact hfailed)]
            refine ⟨?_, fun _ hintact => absurd (hfailed.symm.trans hintact) Bool.noConfusion⟩
            rw [wanted, hwanted]
            exact h.prefix_wanted.trans (List.prefix_append _ _)
        | false =>
            have hall := h.whole (Bool.eq_false_of_not_eq_true hready) hfailed
            have hconnected : s.talk.connected = true := by rw [s.talk.connected_eq, hfailed]; rfl
            rw [Call.run, if_pos (by exact hconnected)]
            have hspeaks := speaks_send hfits { s.talk with sends, recvs }
            obtain ⟨part, hpart, hhanded⟩ := hspeaks.part
            refine ⟨?_, ?_⟩
            · rw [wanted, hwanted, hhanded, hall]
              exact (List.prefix_append_right_inj _).mpr hpart
            · intro hreturned hintact
              have hreported := Option.isNone_eq_false_iff.mp hreturned
              rw [wanted, hwanted, hspeaks.whole hreported hintact, hall]

/-- After a failure nothing more is handed over. -/
theorem handed_act_of_failed {s : Stream} (h : s.talk.failed = true) (a : Action) :
    (s.act a).talk.failed = true ∧ (s.act a).talk.handed = s.talk.handed := by
  cases a with
  | receiverFails =>
      rw [act]
      split
      · exact ⟨h, rfl⟩
      · exact ⟨rfl, rfl⟩
  | call c sends recvs =>
      rw [act]
      split
      · exact ⟨h, rfl⟩
      · rw [run_of_failed (by exact h)]
        exact ⟨h, rfl⟩

theorem handed_run_of_failed {s : Stream} (h : s.talk.failed = true) (actions : List Action) :
    (s.run actions).talk.handed = s.talk.handed := by
  induction actions generalizing s with
  | nil => rfl
  | cons a actions ih =>
      obtain ⟨hstill, hhanded⟩ := handed_act_of_failed h a
      exact (ih hstill).trans hhanded

/-- **The socket gets a prefix of the messages in the order of the calls**, at every point, and
nothing more after a `SendAll` or a `RecvAll` has failed. -/
theorem handed_prefix_run (actions : List Action) (h : ∀ a ∈ actions, a.Fits) :
    (start.run actions).talk.handed <+: (start.run actions).wanted ∧
      ((start.run actions).talk.failed = true →
        ∀ more, ((start.run actions).run more).talk.handed = (start.run actions).talk.handed) := by
  have hinorder : (start.run actions).InOrder :=
    List.foldlRecOn actions _ inOrder_start fun _ hs a ha => hs.act (h a ha)
  exact ⟨hinorder.prefix_wanted, handed_run_of_failed⟩

/-- A message that is torn after five bytes, and a call after it. -/
def tornBye : List Action :=
  [.call (.sendBye 7) [.sent 5, .error] [], .call (.sendBye 8) [.sent 16] []]

theorem handed_prefix_run_tornBye :
    (start.run tornBye).talk.handed <+: (start.run tornBye).wanted ∧
      ((start.run tornBye).talk.failed = true →
        ∀ more, ((start.run tornBye).run more).talk.handed = (start.run tornBye).talk.handed) :=
  handed_prefix_run tornBye (by simp [tornBye, Action.Fits, Call.Fits])

example : (start.run tornBye).talk.handed = (Client.sendBye 7).take 5 := by decide

end Stream

end Go2Cbt.Client
