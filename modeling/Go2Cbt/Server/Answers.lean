import Go2Cbt.Server.Service
import Mathlib.Data.List.Forall2

/-!
# Server — the stream of acknowledgements

Which messages are owed an acknowledgement, and that each gets exactly one, in order, with what
it named (`react_owes`).  Along a run the bytes that the socket took and those that wait in the
send buffer are these acknowledgements (`sent_eq_acks`).
-/

namespace Go2Cbt.Server

open Go2Cbt.Protocol MessageParser

/-- The message is a greeting. -/
def isHello : ParseResult → Bool
  | .ok msg => MessageType.ofCode msg.header.type = some .hello
  | _ => false

/-- The message is a greeting that names a registered device with a file large enough. -/
def accepts (libs : Libs) : ParseResult → Bool
  | .ok msg => MessageType.ofCode msg.header.type = some .hello && greets libs msg
  | _ => false

/-- The message is owed an acknowledgement, after those before it: the first greeting is, and
every block after an accepted one, and a goodbye. -/
def owes (libs : Libs) (before : List ParseResult) : ParseResult → List ParsedMessage
  | .ok msg =>
      match MessageType.ofCode msg.header.type with
      | some .hello => if before.any isHello then [] else [msg]
      | some .dataBlock => if before.any (accepts libs) then [msg] else []
      | some .bye => [msg]
      | _ => []
  | _ => []

/-- The messages of a list that are owed an acknowledgement. -/
def owed (libs : Libs) : (before rs : List ParseResult) → List ParsedMessage
  | _, [] => []
  | before, r :: rs => owes libs before r ++ owed libs (before ++ [r]) rs

theorem owed_append (libs : Libs) (before rs : List ParseResult) (r : ParseResult) :
    owed libs before (rs ++ [r]) = owed libs before rs ++ owes libs (before ++ rs) r := by
  induction rs generalizing before with
  | nil => simp [owed]
  | cons r' rs ih => simp [owed, ih]

/-- The acknowledgement repeats what the message names. -/
def Echoes (msg : ParsedMessage) (ack : AckBody) : Prop :=
  match MessageType.ofCode msg.header.type with
  | some .dataBlock =>
      ack.blockIndex = (BlockHeader.ofBytes msg.body).blockIndex ∧
        ack.devNo = msg.header.devNo ∧ ack.hash = (BlockHeader.ofBytes msg.body).hash
  | some .hello =>
      ack.blockIndex = 0 ∧ ack.devNo = (HelloBody.ofBytes msg.body).devNo ∧ ack.hash = .zero
  | _ => ack.blockIndex = 0 ∧ ack.devNo = msg.header.devNo ∧ ack.hash = .zero

/-- An acknowledgement is 64 bytes. -/
theorem length_ackMessage (ack : AckBody) : (ackMessage ack).length = 64 := by
  rw [ackMessage, List.length_append, length_msgHeader, length_ackBody]
  rfl

theorem any_isHello_of_accepts {libs : Libs} {rs : List ParseResult}
    (h : rs.any (accepts libs) = true) : rs.any isHello = true := by
  rw [List.any_eq_true] at h ⊢
  obtain ⟨r, hr, haccepts⟩ := h
  refine ⟨r, hr, ?_⟩
  cases r with
  | ok msg => exact (Bool.and_eq_true_iff.mp haccepts).1
  | _ => cases haccepts

/-- `Process` repeats the block it was given. -/
theorem processRequest_ack (libs : Libs) (r : BlockRequest) (files : Files) :
    (processRequest libs r files).2.1 = r.ack (processRequest libs r files).1 := by
  rw [processRequest_eq]
  cases r.check libs with
  | error status => rfl
  | ok found =>
      dsimp only
      split <;> rfl

/-- What the session knows of the greetings before it. -/
structure Session.Knows (c : Session) (libs : Libs) (before : List ParseResult) : Prop where
  accepted : c.helloDone = before.any (accepts libs)
  first : c.helloDone = false → before.any isHello = false

section Answers

variable {libs : Libs} {c : Session} {before : List ParseResult}

theorem Session.Knows.skip (h : c.Knows libs before) {r : ParseResult} (hr : isHello r = false)
    (hr' : accepts libs r = false) : c.Knows libs (before ++ [r]) where
  accepted := by rw [h.accepted]; simp [hr']
  first hdone := by simp [h.first hdone, hr]

theorem Session.Knows.of_accepted {r : ParseResult} (hdone : c.helloDone = true)
    (hr : before.any (accepts libs) = true ∨ accepts libs r = true) :
    c.Knows libs (before ++ [r]) where
  accepted := by
    rw [hdone, List.any_append, eq_comm, Bool.or_eq_true]
    exact hr.imp_right fun h => by simp [h]
  first hfirst := absurd (hdone.symm.trans hfirst) Bool.noConfusion

/-- **One message is answered as it is owed.** -/
theorem react_owes (hc : c.Knows libs before) (files : Files) {r : ParseResult} (hr : Parsed r) :
    List.Forall₂ Echoes (owes libs before r) (react libs c files r).ack.toList ∧
      ((react libs c files r).closes = false →
        (react libs c files r).session.Knows libs (before ++ [r])) := by
  cases r with
  | needMore => exact absurd rfl hr.1
  | badMagic diag => exact ⟨.nil, fun _ => hc.skip rfl rfl⟩
  | invalidType diag => exact ⟨.nil, fun _ => hc.skip rfl rfl⟩
  | oversizeBlock diag => exact ⟨.nil, fun h => absurd h Bool.noConfusion⟩
  | ok msg =>
      have hhello : isHello (.ok msg) = decide (MessageType.ofCode msg.header.type = some .hello) :=
        rfl
      have haccepts : accepts libs (.ok msg)
          = (decide (MessageType.ofCode msg.header.type = some .hello) && greets libs msg) := rfl
      rw [react, owes]
      cases htype : MessageType.ofCode msg.header.type with
      | none =>
          rw [htype] at hhello haccepts
          exact ⟨.nil, fun _ => hc.skip hhello haccepts⟩
      | some t =>
          rw [htype] at hhello haccepts
          cases t with
          | ack => exact ⟨.nil, fun _ => hc.skip hhello haccepts⟩
          | error => exact ⟨.nil, fun _ => hc.skip hhello haccepts⟩
          | bye =>
              refine ⟨.cons ?_ .nil, fun h => absurd h Bool.noConfusion⟩
              rw [Echoes, htype]
              exact ⟨rfl, rfl, rfl⟩
          | dataBlock =>
              dsimp only
              cases hdone : c.helloDone with
              | false =>
                  -- before a greeting nothing is owed, and the connection closes
                  rw [handleDataBlock_early libs files hdone, ← hc.accepted, hdone]
                  exact ⟨.nil, fun h => absurd h Bool.noConfusion⟩
              | true =>
                  rw [handleDataBlock_greeted libs hr files htype hdone, ← hc.accepted, hdone]
                  refine ⟨.cons ?_ .nil, fun _ => .of_accepted ?_ (.inl (hc.accepted ▸ hdone))⟩
                  · rw [Echoes, htype, processRequest_ack]
                    exact ⟨rfl, rfl, rfl⟩
                  · dsimp only
                    rw [Session.count]
                    split <;> exact hdone
          | hello =>
              dsimp only
              cases hdone : c.helloDone with
              | true =>
                  have hknown := hc.accepted.symm.trans hdone
                  -- a second greeting is passed over
                  rw [handleHello_again libs files hdone, any_isHello_of_accepts hknown]
                  exact ⟨.nil, fun _ => .of_accepted hdone (.inl hknown)⟩
              | false =>
                  rw [hc.first hdone]
                  -- the first greeting is answered either way
                  cases hgreets : greets libs msg with
                  | true =>
                      rw [handleHello_accepts libs hr files htype hdone hgreets]
                      refine ⟨.cons ?_ .nil, fun _ => .of_accepted rfl (.inr ?_)⟩
                      · rw [Echoes, htype]
                        exact ⟨rfl, rfl, rfl⟩
                      · rw [haccepts, hgreets]
                        rfl
                  | false =>
                      obtain ⟨status, -, hreaction⟩ :=
                        handleHello_rejects libs hr files htype hdone hgreets
                      rw [hreaction]
                      refine ⟨.cons ?_ .nil, fun h => absurd h Bool.noConfusion⟩
                      rw [Echoes, htype]
                      exact ⟨rfl, rfl, rfl⟩

/-- What a service answers, and what its session knows while it goes on. -/
theorem Served.answers {files : Files} {rs : List ParseResult} {st : Serving} {live : Bool}
    (h : Served libs files rs st live) :
    (∃ acks, List.Forall₂ Echoes (owed libs [] rs) acks ∧ st.output = acks.flatMap ackMessage) ∧
      (live = true → st.session.Knows libs rs) := by
  induction h with
  | start => exact ⟨⟨[], .nil, rfl⟩, fun _ => ⟨rfl, fun _ => rfl⟩⟩
  | lose _ ih => exact ⟨ih.1, fun h => absurd h Bool.noConfusion⟩
  | @handle rs st _ r hparsed ih =>
      obtain ⟨⟨acks, hechoes, houtput⟩, hknows⟩ := ih
      obtain ⟨hanswer, hgoes⟩ := react_owes (hknows rfl) st.files hparsed
      refine ⟨⟨acks ++ (react libs st.session st.files r).ack.toList, ?_, ?_⟩, fun h => hgoes ?_⟩
      · rw [owed_append, List.nil_append]
        exact List.rel_append hechoes hanswer
      · rw [List.flatMap_append, ← houtput, respond, Reaction.reply]
        cases (react libs st.session st.files r).ack with
        | none => rfl
        | some ack => simp
      · exact Bool.not_eq_true' _ ▸ h

/-- **The acknowledgements of a connection**: at every moment, what the socket has taken and what
waits in the send buffer are the acknowledgements that the messages handled so far are owed, in
order, 64 bytes each.  No block that the parser finds fails the size checks of its handler. -/
theorem sent_eq_acks (libs : Libs) (send : SendSide) (files : Files) (events : List IoEvent) :
    let s := (receive libs send events (.accept files)).1
    (∃ acks, List.Forall₂ Echoes (owed libs [] s.delivered) acks ∧
      s.sent ++ s.sendBuf.readable = acks.flatMap ackMessage ∧
      ∀ ack ∈ acks, (ackMessage ack).length = 64) ∧
    ∀ msg, .ok msg ∈ s.delivered →
      MessageType.ofCode msg.header.type = some .dataBlock →
      ¬ msg.body.length < blockHeaderSize ∧
        ¬ msg.body.length < (UInt32.ofNat blockHeaderSize
          + (BlockHeader.ofBytes msg.body).compressedSize).toNat := by
  intro s
  have hserved := served_receive libs send files events
  refine ⟨?_, fun msg hmsg htype => ?_⟩
  · obtain ⟨acks, hechoes, houtput⟩ := hserved.answers.1
    exact ⟨acks, hechoes, houtput, fun ack _ => length_ackMessage ack⟩
  · exact guards_of_dataBlock (hserved.parsed _ hmsg) htype

end Answers

end Go2Cbt.Server
